import Columnar.Proofs.Connection.Replay

/-!
# Sessions over streams that are cut differently

All that can be seen of a session is decided by what its stream delivers to whoever reads again
after an interruption: not by how the bytes are cut into segments, nor by how many of them a call may
deliver, nor by the interruptions. Main statement: `session_eq`.
-/

namespace Columnar

open ByteStream

/-- What a source delivers to whoever reads again after interruptions are its segments, whatever its
limit, if calls can deliver anything at all. -/
lemma ByteStream.Source.unread_of_limit (s : Source) (h : s.limit ≠ some 0) :
    unread s = s.contents.calm :=
  congrArg Feed.calm (if_neg h)

variable {ρ σ : Type}

/-- What can be seen of an open connection. -/
structure Seen where
  server : ServerInfo
  revision : Revision
  state : ConnectionState
  written : Bytes

/-- What can be seen of a session: of the handshake and what it wrote, and of each call what was
learnt from it and how it left the connection. -/
structure Transcript where
  opened : Except ClientError Seen
  introduction : Bytes
  turns : List (Answer × Seen)

namespace Connection

def seen (c : Connection ρ) : Seen where
  server := c.server
  revision := c.revision
  state := c.state
  written := c.transport.sink.accepted

/-- Nothing of the stream is seen of a connection. -/
@[simp] lemma seen_over (c : Connection ρ) (input : Buffered σ) : (c.over input).seen = c.seen :=
  rfl

variable [Reader ρ] [Reader σ]

/-- Makes calls one after the other and looks at the connection after each of them. -/
def watch : List Call → Connection ρ → QueryIds → List (Answer × Seen)
  | [], _, _ => []
  | k :: ks, c, ids =>
    match c.call k ids with
    | (answer, c, ids) => (answer, c.seen) :: watch ks c ids

/-- Opens a connection over a fresh stream and makes calls on it. -/
def session (options : Options) (stream : ρ) (sink : Sink) (ks : List Call) (ids : QueryIds) :
    Transcript :=
  match handshake options (.ofStream stream sink) with
  | (.error e, t) => ⟨.error e, t.sink.accepted, []⟩
  | (.ok c, t) => ⟨.ok c.seen, t.sink.accepted, c.watch ks ids⟩

/-- A call is watched, and then the others. -/
lemma watch_cons {k : Call} {ks : List Call} {c c' : Connection ρ} {ids ids' : QueryIds}
    {answer : Answer} (first : c.call k ids = (answer, c', ids')) :
    c.watch (k :: ks) ids = (answer, c'.seen) :: c'.watch ks ids' := by
  simp only [watch, first]

variable [Observable ρ] [Observable σ]

/-- Over a stream of the same unread bytes the same is seen. -/
lemma watch_over {ks : List Call} {c : Connection ρ}
    (ready : c.state = .idle ∨ c.state = .disconnected) {input : Buffered σ}
    (same : ByteStream.unread input = c.unread) (ids : QueryIds) :
    (c.over input).watch ks ids = c.watch ks ids := by
  -- After each call the two connections still differ in nothing but how their streams are cut.
  induction ks generalizing c input ids with
  | nil => rfl
  | cons k ks ih =>
    obtain ⟨answer, c', ids', called⟩ : ∃ answer c' ids', c.call k ids = (answer, c', ids') :=
      ⟨_, _, _, rfl⟩
    obtain ⟨used, here, again⟩ := call_replays (σ := σ) ready called
    obtain ⟨input', called', left⟩ := again (same.trans here) (.inl rfl)
    rw [watch_cons called, watch_cons called', seen_over, ih (settled_call ready called).ready left]

/-- A session is the same over any two streams that deliver the same to whoever reads again after
interruptions. -/
theorem session_eq (options : Options) {stream : ρ} {stream' : σ}
    (same : ByteStream.unread stream = ByteStream.unread stream') (sink : Sink) (ks : List Call)
    (ids : QueryIds) :
    session options stream sink ks ids = session options stream' sink ks ids := by
  obtain ⟨result, t, opened⟩ : ∃ result t,
      handshake options (.ofStream stream sink) = (result, t) := ⟨_, _, rfl⟩
  obtain ⟨used, here, again⟩ := handshake_replays (σ := σ) opened
  obtain ⟨input, opened', left⟩ := again (r := { inner := stream' }) (same.symm.trans here) (.inl rfl)
  have opened' : handshake options (.ofStream stream' sink) =
      (result.map fun c => c.over input, t.over input) := opened'
  rw [session, session, opened, opened']
  cases result with
  | error e => rfl
  | ok c =>
    obtain ⟨t₁, info, _, _, rfl⟩ := handshake_inv opened
    exact congrArg (Transcript.mk _ _) (watch_over (.inl rfl) left ids).symm

/-- A session of two calls that a server sends in one piece. -/
def elderWhole : Source :=
  .ofBytes (elder.encode ++ [.failingQuery, .takenInsert].flatMap (Turn.encode elder.agreed))

/-- The same session, where reads are interrupted and deliver one byte each. -/
def elderCut : Source where
  segments :=
    [.bytes elder.encode, .failure ⟨.interrupted, "interrupted"⟩,
      .bytes (Turn.encode elder.agreed .failingQuery), .failure ⟨.interrupted, "interrupted"⟩,
      .bytes (Turn.encode elder.agreed .takenInsert)]
  limit := some 1

/-- A stream in one piece and one that is cut, interrupted and limited give the same session. -/
theorem session_eq_elder :
    ByteStream.unread elderWhole = ByteStream.unread elderCut ∧
      session { queryIds := ⟨0⟩ } elderWhole {} [Turn.failingQuery.call, Turn.takenInsert.call] {} =
        session { queryIds := ⟨0⟩ } elderCut {} [Turn.failingQuery.call, Turn.takenInsert.call] {} := by
  have same : ByteStream.unread elderWhole = ByteStream.unread elderCut := by
    have again : Feed.calm [.failure ⟨.interrupted, "interrupted"⟩] = [] := rfl
    rw [Source.unread_of_limit elderWhole nofun, Source.unread_of_limit elderCut nofun]
    simp only [elderWhole, elderCut, Source.ofBytes, Source.contents, Segment.feed,
      List.flatMap_cons, List.flatMap_nil, Feed.ofBytes_append, Feed.calm_append, Feed.calm_ofBytes,
      again, List.nil_append, List.append_nil]
  exact ⟨same, session_eq _ same _ _ _⟩

end Connection

end Columnar
