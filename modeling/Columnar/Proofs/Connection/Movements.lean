import Columnar.Proofs.ByteStream.Accepted
import Columnar.Proofs.Connection.State

/-!
# Bytes on their way out

What leaves a connection is recorded as movements, in the order in which they happen: bytes are
staged, and the stream accepts pieces of what waits. A flush that fails keeps all that waited, also
what has been accepted; yet at no moment is a byte lost, repeated or out of its order, because a
connection whose flush failed never flushes again. Main statement: `movements_orderly`.
-/

namespace Columnar

open ByteStream

/-- A step of bytes on their way out: they are staged, or the stream accepts them. -/
inductive Movement where
  | staged (bs : Bytes)
  | accepted (bs : Bytes)
  deriving DecidableEq, Repr

namespace Movement

/-- All the bytes that were staged, in the order in which they were. -/
def bytesStaged : List Movement → Bytes
  | [] => []
  | .staged bs :: ms => bs ++ bytesStaged ms
  | .accepted _ :: ms => bytesStaged ms

/-- All the bytes that the stream has accepted, in the order in which it has. -/
def bytesAccepted : List Movement → Bytes
  | [] => []
  | .staged _ :: ms => bytesAccepted ms
  | .accepted bs :: ms => bs ++ bytesAccepted ms

/-- What two runs of movements stage is staged one after the other. -/
@[simp] lemma bytesStaged_append (ms ms' : List Movement) :
    bytesStaged (ms ++ ms') = bytesStaged ms ++ bytesStaged ms' := by
  induction ms with
  | nil => rfl
  | cons m ms ih =>
    cases m with
    | staged bs => rw [List.cons_append, bytesStaged, bytesStaged, ih, List.append_assoc]
    | accepted bs => exact ih

/-- What two runs of movements deliver is delivered one after the other. -/
@[simp] lemma bytesAccepted_append (ms ms' : List Movement) :
    bytesAccepted (ms ++ ms') = bytesAccepted ms ++ bytesAccepted ms' := by
  induction ms with
  | nil => rfl
  | cons m ms ih =>
    cases m with
    | staged bs => exact ih
    | accepted bs => rw [List.cons_append, bytesAccepted, bytesAccepted, ih, List.append_assoc]

/-- Accepting stages nothing. -/
@[simp] lemma bytesStaged_accepted (pieces : List Bytes) :
    bytesStaged (pieces.map .accepted) = [] := by
  induction pieces with
  | nil => rfl
  | cons piece pieces ih => exact ih

/-- All the pieces that were accepted are delivered. -/
@[simp] lemma bytesAccepted_accepted (pieces : List Bytes) :
    bytesAccepted (pieces.map .accepted) = pieces.flatten := by
  induction pieces with
  | nil => rfl
  | cons piece pieces ih => rw [List.map_cons, bytesAccepted, ih, List.flatten_cons]

/-- By an earlier moment no other bytes had been accepted than by a later one. -/
lemma bytesAccepted_prefix {ms ms' : List Movement} (h : ms <+: ms') :
    bytesAccepted ms <+: bytesAccepted ms' := by
  obtain ⟨rest, rfl⟩ := h
  rw [bytesAccepted_append]
  exact List.prefix_append _ _

/-- At every moment the stream has accepted a beginning of what had been staged by then. -/
def Orderly (ms : List Movement) : Prop :=
  ∀ past, past <+: ms → bytesAccepted past <+: bytesStaged past

/-- When all that was staged has been accepted, more can be staged and accepted in part. -/
lemma Orderly.push {ms : List Movement} (orderly : Orderly ms)
    (whole : bytesAccepted ms = bytesStaged ms) {bs : Bytes} {pieces : List Bytes}
    (begins : pieces.flatten <+: bs) : Orderly (ms ++ .staged bs :: pieces.map .accepted) := by
  intro past earlier
  rcases List.prefix_or_prefix_of_prefix earlier (List.prefix_append ms _) with before | ⟨since, rfl⟩
  · exact orderly past before
  · rw [List.prefix_append_right_inj] at earlier
    rw [bytesAccepted_append, bytesStaged_append, whole, List.prefix_append_right_inj]
    cases since with
    | nil => exact List.nil_prefix
    | cons m since =>
      obtain ⟨rfl, later⟩ := List.cons_prefix_cons.1 earlier
      have accepted := bytesAccepted_prefix later
      rw [bytesAccepted_accepted] at accepted
      exact (accepted.trans begins).trans (List.prefix_append _ _)

end Movement

open Movement

variable {ρ : Type}

/-- What staging bytes and flushing them moves. -/
def Transport.movements (bs : Bytes) (t : Transport ρ) : List Movement :=
  .staged bs :: (t.sink.since (t.stage bs).flush.2.sink).map .accepted

/-- Staging bytes and flushing them stages just these bytes. -/
@[simp] lemma bytesStaged_movements (bs : Bytes) (t : Transport ρ) :
    bytesStaged (t.movements bs) = bs := by
  rw [Transport.movements, bytesStaged, bytesStaged_accepted, List.append_nil]

/-- The movements of a transport that was opened over this sink. If the last flush went well, nothing
waits and the stream has accepted everything. -/
structure Moved (sink : Sink) (ms : List Movement) (flushed : Prop) (t : Transport ρ) : Prop where
  orderly : Orderly ms
  accepted : t.sink.accepted = sink.accepted ++ bytesAccepted ms
  clear : flushed → t.staged = [] ∧ bytesAccepted ms = bytesStaged ms

namespace Moved

variable {sink : Sink} {ms : List Movement} {t t' : Transport ρ}

/-- At the beginning nothing has moved. -/
lemma fresh (stream : ρ) (sink : Sink) : Moved sink [] True (.ofStream stream sink) where
  orderly := by
    intro past earlier
    rw [List.prefix_nil.1 earlier]
    exact List.nil_prefix
  accepted := (List.append_nil _).symm
  clear _ := ⟨rfl, rfl⟩

/-- A weaker promise about the flushes is kept, too. -/
lemma imp {flushed flushed' : Prop} (moved : Moved sink ms flushed t) (h : flushed' → flushed) :
    Moved sink ms flushed' t :=
  ⟨moved.orderly, moved.accepted, fun done => moved.clear (h done)⟩

/-- One flush is in order if nothing waited before its bytes. -/
lemma flush {bs : Bytes} {result : Except Failure Unit} (moved : Moved sink ms True t)
    (h : (t.stage bs).flush = (result, t')) :
    Moved sink (ms ++ t.movements bs) (result = .ok ()) t' := by
  obtain ⟨clear, whole⟩ := moved.clear trivial
  obtain ⟨pieces, flushes⟩ := Transport.flushes_of_flush h
  have waits : (t.stage bs).staged = bs := by rw [Transport.stage, clear, List.nil_append]
  have moves : t.movements bs = .staged bs :: pieces.map .accepted := by
    rw [Transport.movements, h, Sink.since_eq (s := t.sink) flushes.added]
  have begins := flushes.begins
  rw [waits] at begins
  rw [moves]
  refine ⟨moved.orderly.push whole begins, ?_, ?_⟩
  · rw [Sink.accepted_of_pieces flushes.added, bytesAccepted_append, bytesAccepted,
      bytesAccepted_accepted, ← List.append_assoc, ← moved.accepted]
    rfl
  · rintro rfl
    obtain ⟨flushed, all⟩ := flushes.clear
    refine ⟨flushed, ?_⟩
    simp only [bytesAccepted_append, bytesStaged_append, bytesAccepted, bytesStaged,
      bytesAccepted_accepted, bytesStaged_accepted, whole, all, waits, List.append_nil]

/-- A flush that fails after two bytes. -/
example : (Transport.ofStream () { writes := [.accept 2, .failure .brokenPipe] }).movements [1, 2, 3] =
    [.staged [1, 2, 3], .accepted [1, 2]] := rfl

end Moved

namespace Connection

/-- What opening a connection moves. -/
def handshakeMovements (options : Options) (t : Transport ρ) : List Movement :=
  t.movements ((Request.helloOf options).encode .client)

/-- What sending packets moves. -/
def sendMovements (packets : List Request) (c : Connection ρ) : List Movement :=
  c.transport.movements (Request.encodeAll c.revision packets)

/-- Sending packets stages their encodings, one after the other. -/
lemma bytesStaged_sendMovements (packets : List Request) (c : Connection ρ) :
    bytesStaged (c.sendMovements packets) = Request.encodeAll c.revision packets :=
  bytesStaged_movements _ _

/-- Sending moves what it stages, and in whole if it succeeds. -/
lemma moved_of_send {sink : Sink} {ms : List Movement} {c c' : Connection ρ}
    {packets : List Request} {result : Except ClientError Unit}
    (moved : Moved sink ms True c.transport) (h : c.send packets = (result, c')) :
    Moved sink (ms ++ c.sendMovements packets) (result = .ok ()) c'.transport := by
  obtain ⟨flushed, t, run⟩ : ∃ flushed t,
      (c.transport.stage (Request.encodeAll c.revision packets)).flush = (flushed, t) :=
    ⟨_, _, rfl⟩
  rw [send, run] at h
  cases h
  refine (moved.flush run).imp ?_
  intro sent
  cases flushed with
  | error e => cases sent
  | ok u => rfl

/-- The packets of an insert that follow its announcement, which was answered so. -/
def rowsAfter (block : Block) : Except ClientError Packet → List Request
  | .ok (.exception _) | .error _ => []
  | .ok _ => Request.insertRows block

/-- A connection that ends idle has drained its response. -/
lemma isOk_of_idle {c : Connection ρ} {drained : Bool} (h : (c.settle drained).state = .idle) :
    drained = true := by
  cases drained with
  | true => rfl
  | false => cases h

variable [Reader ρ]

/-- What a call moves; a connection that is not idle moves nothing. -/
def movements (k : Call) (c : Connection ρ) (ids : QueryIds) : List Movement :=
  match c.state, k with
  | .idle, .execute query => c.sendMovements (c.opening ids query.text)
  | .idle, .insert table block =>
    c.sendMovements (c.opening ids (insertQuery table)) ++
      match c.busy.exchange (c.opening ids (insertQuery table)) .readiness with
      | ((_, .error _), _) => []
      | ((_, .ok (.exception _)), _) => []
      | ((_, .ok _), c) => c.sendMovements (Request.insertRows block)
  | .idle, .ping => c.sendMovements [.ping]
  | _, _ => []

/-- The packets that a call stages; a connection that is not idle stages none. -/
def requests (k : Call) (c : Connection ρ) (ids : QueryIds) : List Request :=
  match c.state, k with
  | .idle, .execute query => c.opening ids query.text
  | .idle, .insert table block =>
    c.opening ids (insertQuery table) ++
      rowsAfter block (c.busy.exchange (c.opening ids (insertQuery table)) .readiness).1.2
  | .idle, .ping => [.ping]
  | _, _ => []

/-- What a call moves are the packets that it stages. -/
lemma bytesStaged_movements_call (k : Call) (c : Connection ρ) (ids : QueryIds) :
    bytesStaged (c.movements k ids) = Request.encodeAll c.revision (c.requests k ids) := by
  cases state : c.state with
  | idle =>
    cases k with
    | execute query =>
      simp only [movements, requests, state]
      exact bytesStaged_sendMovements _ c
    | ping =>
      simp only [movements, requests, state]
      exact bytesStaged_sendMovements _ c
    | insert table block =>
      obtain ⟨before, found, c₁, exchanged⟩ : ∃ before found c₁,
          c.busy.exchange (c.opening ids (insertQuery table)) .readiness = ((before, found), c₁) :=
        ⟨_, _, _, rfl⟩
      obtain ⟨t, rfl⟩ := frame_of_exchange exchanged
      -- The second exchange happens or not; the packets of the first come in front of it either way.
      have both (rows : List Request) : Request.encodeAll c.revision
          (c.opening ids (insertQuery table) ++ rows) =
          bytesStaged (c.sendMovements (c.opening ids (insertQuery table))) ++
            Request.encodeAll c.revision rows := by
        rw [bytesStaged_sendMovements]
        exact List.flatMap_append
      simp only [movements, requests, state, exchanged]
      rw [bytesStaged_append, both]
      congr 1
      cases found with
      | error e => rfl
      | ok p =>
        cases p with
        | exception e => rfl
        | _ => exact bytesStaged_sendMovements _ _
  | _ => simp only [movements, requests, state]; rfl

/-- The movements of the connection since it was opened over this sink, whatever happened to it. -/
inductive Recorded (options : Options) (sink : Sink) : List Movement → Connection ρ → Prop where
  | opened {stream : ρ} {c : Connection ρ} {t : Transport ρ} :
    handshake options (.ofStream stream sink) = (.ok c, t) →
    Recorded options sink (handshakeMovements options (.ofStream stream sink)) c
  | called {ms : List Movement} {k : Call} {c c' : Connection ρ} {ids ids' : QueryIds}
      {answer : Answer} :
    Recorded options sink ms c →
    c.call k ids = (answer, c', ids') →
    Recorded options sink (ms ++ c.movements k ids) c'
  | registered {ms : List Movement} {c : Connection ρ} (registry : Registry) :
    Recorded options sink ms c →
    Recorded options sink ms (c.withRegistry registry)
  | shut {ms : List Movement} {c : Connection ρ} :
    Recorded options sink ms c →
    Recorded options sink ms c.shutDown

section

variable {sink : Sink} {ms : List Movement} {c c' : Connection ρ} {packets : List Request}
  {phase : Phase} {before : List Packet} {last : Except ClientError Packet}

/-- If something was received, the packets had been sent. -/
lemma moved_of_exchange (moved : Moved sink ms True c.transport)
    (h : c.exchange packets phase = ((before, last), c')) :
    Moved sink (ms ++ c.sendMovements packets) (last.isOk = true) c'.transport := by
  rcases exchange_inv h with ⟨e, _, rfl, sent⟩ | ⟨c₁, sent, received⟩
  · exact (moved_of_send moved sent).imp nofun
  · have moved' := moved_of_send moved sent
    obtain ⟨input, rfl, _⟩ := receive_inv received
    exact ⟨moved'.orderly, moved'.accepted, fun _ => moved'.clear rfl⟩

/-- What a call moves is in order. -/
lemma moved_of_call {k : Call} {ids ids' : QueryIds} {answer : Answer}
    (ready : c.state = .idle ∨ c.state = .disconnected)
    (moved : Moved sink ms (c.state = .idle) c.transport)
    (called : c.call k ids = (answer, c', ids')) :
    Moved sink (ms ++ c.movements k ids) (c'.state = .idle) c'.transport := by
  rcases ready with idle | closed
  · -- An idle connection has flushed everything; only so the next flush begins in order.
    have clear : Moved sink ms True c.busy.transport := moved.imp fun _ => idle
    cases performed_of_call idle called with
    | executed exchanged =>
      simp only [movements, idle]
      exact (moved_of_exchange clear exchanged).imp isOk_of_idle
    | undescribed exchanged =>
      simp only [movements, idle, exchanged, List.append_nil]
      exact (moved_of_exchange clear exchanged).imp isOk_of_idle
    | refused exchanged =>
      simp only [movements, idle, exchanged, List.append_nil]
      exact (moved_of_exchange clear exchanged).imp isOk_of_idle
    | @inserted table block _ _ p _ c₁ _ exchanged ready answered =>
      -- The rows are flushed only behind an announcement that went well.
      have announced := moved_of_exchange clear exchanged
      have moves : c.movements (.insert table block) ids =
          c.sendMovements (c.opening ids (insertQuery table)) ++
            c₁.sendMovements (Request.insertRows block) := by
        cases p with
        | exception e => exact absurd rfl (ready e)
        | _ => simp only [movements, idle, exchanged]
      rw [moves, ← List.append_assoc]
      exact (moved_of_exchange (announced.imp fun _ => rfl) answered).imp isOk_of_idle
    | pinged exchanged =>
      simp only [movements, idle]
      exact (moved_of_exchange clear exchanged).imp isOk_of_idle
  · rw [call_of_disconnected closed] at called
    cases called
    have moves : c.movements k ids = [] := by simp only [movements, closed]
    rw [moves, List.append_nil]
    exact moved

/-- A handshake moves what it stages, and in whole if it succeeds. -/
lemma moved_of_handshake {options : Options} {stream : ρ} {t : Transport ρ}
    {result : Except ClientError (Connection ρ)}
    (h : handshake options (.ofStream stream sink) = (result, t)) :
    Moved sink (handshakeMovements options (.ofStream stream sink)) (result.isOk = true) t := by
  obtain ⟨flushed, t₁, sent⟩ : ∃ flushed t₁, ((Transport.ofStream stream sink).stage
      ((Request.helloOf options).encode .client)).flush = (flushed, t₁) := ⟨_, _, rfl⟩
  have moved := (Moved.fresh stream sink).flush sent
  cases flushed with
  | error e =>
    rw [handshake_of_failure sent] at h
    cases h
    exact moved.imp nofun
  | ok u =>
    obtain ⟨server, t₂, read⟩ : ∃ server t₂, readHello t₁ = (server, t₂) := ⟨_, _, rfl⟩
    rw [handshake_of_hello sent read] at h
    cases h
    obtain ⟨input, rfl⟩ := readHello_inv read
    exact ⟨moved.orderly, moved.accepted, fun _ => moved.clear rfl⟩

end

/-- What is known of every record: the movements are in order, nothing waits on an idle connection,
and what was staged are the introduction and the packets of requests. -/
structure InOrder (options : Options) (sink : Sink) (ms : List Movement) (c : Connection ρ) :
    Prop where
  ready : c.state = .idle ∨ c.state = .disconnected
  moved : Moved sink ms (c.state = .idle) c.transport
  packets : ∃ requests, bytesStaged ms =
    (Request.helloOf options).encode .client ++ Request.encodeAll c.revision requests

/-- A call keeps the movements in order. -/
lemma InOrder.called {options : Options} {sink : Sink} {ms : List Movement} {c c' : Connection ρ}
    {k : Call} {ids ids' : QueryIds} {answer : Answer} (inOrder : InOrder options sink ms c)
    (h : c.call k ids = (answer, c', ids')) :
    InOrder options sink (ms ++ c.movements k ids) c' := by
  obtain ⟨requests, staged⟩ := inOrder.packets
  have ready := (settled_call inOrder.ready h).ready
  have moved := moved_of_call inOrder.ready inOrder.moved h
  refine ⟨ready, moved, requests ++ c.requests k ids, ?_⟩
  obtain ⟨t, state, rfl⟩ := frame_of_call h
  rw [bytesStaged_append, staged, bytesStaged_movements_call, List.append_assoc]
  exact congrArg _ List.flatMap_append.symm

/-- The movements of a connection are in order after any calls. -/
lemma Recorded.inOrder {options : Options} {sink : Sink} {ms : List Movement} {c : Connection ρ}
    (recorded : Recorded options sink ms c) : InOrder options sink ms c := by
  induction recorded with
  | @opened stream c t opened =>
    have moved := moved_of_handshake opened
    obtain ⟨_, _, _, _, rfl⟩ := handshake_inv opened
    refine ⟨.inl rfl, moved.imp fun _ => rfl, [], ?_⟩
    exact (bytesStaged_movements _ _).trans (List.append_nil _).symm
  | called _ called ih => exact ih.called called
  | registered registry _ ih => exact ⟨ih.ready, ih.moved, ih.packets⟩
  | shut _ ih => exact ⟨ih.ready, ⟨ih.moved.orderly, ih.moved.accepted, ih.moved.clear⟩, ih.packets⟩

/-- Whatever the stream does to writes, no byte of a request is lost, repeated or reordered: at every
moment the stream has accepted a beginning of what has been staged, and on an idle connection all of
it, with nothing waiting. -/
theorem movements_orderly {options : Options} {sink : Sink} :
    (∀ {stream : ρ} {result : Except ClientError (Connection ρ)} {t : Transport ρ},
      handshake options (.ofStream stream sink) = (result, t) →
      Orderly (handshakeMovements options (.ofStream stream sink)) ∧
      bytesStaged (handshakeMovements options (.ofStream stream sink)) =
        (Request.helloOf options).encode .client ∧
      t.sink.accepted = sink.accepted ++
        bytesAccepted (handshakeMovements options (.ofStream stream sink))) ∧
    ∀ {ms : List Movement} {c : Connection ρ}, Recorded options sink ms c →
      Orderly ms ∧
      (∃ requests, bytesStaged ms =
        (Request.helloOf options).encode .client ++ Request.encodeAll c.revision requests) ∧
      c.transport.sink.accepted = sink.accepted ++ bytesAccepted ms ∧
      (c.state = .idle → c.transport.staged = [] ∧ bytesAccepted ms = bytesStaged ms) := by
  constructor
  · intro stream result t h
    have moved := moved_of_handshake h
    exact ⟨moved.orderly, bytesStaged_movements _ _, moved.accepted⟩
  · intro ms c recorded
    have inOrder := recorded.inOrder
    exact ⟨inOrder.moved.orderly, inOrder.packets, inOrder.moved.accepted, inOrder.moved.clear⟩

/-- A write call accepts five bytes, the next is interrupted, and then a ping goes out whole. -/
theorem movements_orderly_interrupted :
    ∃ (c : Connection Feed) (ms : List Movement),
      Recorded { queryIds := ⟨0⟩ } { writes := [.accept 5, .failure ⟨.interrupted, "again"⟩] } ms c ∧
      bytesAccepted ms <+: bytesStaged ms ∧
      c.transport.sink.accepted = bytesAccepted ms := by
  have obliging : Sink.Obliging { writes := [.accept 5, .failure ⟨.interrupted, "again"⟩] } := by
    refine ⟨?_, nofun⟩
    simp only [List.forall_mem_cons, WriteEntry.Obliging]
    exact ⟨trivial, trivial, List.forall_mem_nil _⟩
  obtain ⟨t, opened, _, _⟩ :=
    handshake_whole { queryIds := ⟨0⟩ } elder_fits obliging (unread_ofBytes elder.encode)
  have recorded : Recorded _ _ (_ ++ movements .ping _ {}) _ := .called (.opened opened) rfl
  obtain ⟨orderly, _, accepted, _⟩ := movements_orderly.2 recorded
  exact ⟨_, _, recorded, orderly _ List.prefix_rfl, accepted⟩

end Connection

end Columnar
