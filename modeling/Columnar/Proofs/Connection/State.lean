import Columnar.Proofs.Connection.Exchange
import Columnar.Proofs.Connection.Handshake
import Columnar.Proofs.Packet.Fails

/-!
# States and results

A call finds the connection idle or disconnected and leaves it so, whatever the stream does
(`Reached.ready`), and its result says which of the two it is (`Settled`). A connection that is
disconnected does nothing any more (`calls_of_disconnected`). Main statement: `call_settles`.
-/

namespace Columnar.Connection

open ByteStream
open ClientError (OfStream ofStream_ofFailure)

variable {ρ α β : Type}

/-- How a request leaves the connection, together with what it returns. -/
inductive Settled : ConnectionState → Except ClientError α → Prop where
  | answered (a : α) : Settled .idle (.ok a)
  | refused (e : ServerException) : Settled .idle (.error (.server e))
  | failed {e : ClientError} :
    e.OfStream →
    Settled .disconnected (.error e)
  | closed : Settled .disconnected (.error .disconnected)

namespace Settled

/-- A result settles the state, whatever its value is changed to. -/
lemma map {s : ConnectionState} {result : Except ClientError α} (h : Settled s result) (f : α → β) :
    Settled s (result.map f) := by
  cases h with
  | answered a => exact .answered (f a)
  | refused e => exact .refused e
  | failed sort => exact .failed sort
  | closed => exact .closed

/-- The outcome of an exchange settles the state. -/
lemma of_outcome (c : Connection ρ) (rethrow : Bool) {last : Except ClientError Packet}
    (sort : ∀ e, last = .error e → e.OfStream) :
    Settled (c.settle last.isOk).state (outcome rethrow last) := by
  cases last with
  | error e => exact .failed (sort e rfl)
  | ok p =>
    cases p with
    | exception e =>
      cases rethrow with
      | true => exact .refused e
      | false => exact .answered Outcome.serverException
    | _ => exact .answered Outcome.finished

variable {s : ConnectionState} {result : Except ClientError α} (h : Settled s result)
include h

/-- A settled connection is idle or disconnected. -/
lemma ready : s = .idle ∨ s = .disconnected := by
  cases h with
  | answered a => exact .inl rfl
  | refused e => exact .inl rfl
  | failed sort => exact .inr rfl
  | closed => exact .inr rfl

/-- A connection settles idle just when the result is a success or an exception of the server. -/
lemma idle_iff :
    s = .idle ↔ (∃ a, result = .ok a) ∨ ∃ e, result = .error (.server e) := by
  cases h with
  | answered a => exact ⟨fun _ => .inl ⟨a, rfl⟩, fun _ => rfl⟩
  | refused e => exact ⟨fun _ => .inr ⟨e, rfl⟩, fun _ => rfl⟩
  | failed sort =>
    refine ⟨nofun, ?_⟩
    rintro (⟨a, eq⟩ | ⟨e, eq⟩)
    · cases eq
    · cases eq
      cases sort
  | closed =>
    refine ⟨nofun, ?_⟩
    rintro (⟨a, eq⟩ | ⟨e, eq⟩)
    · cases eq
    · cases eq

/-- A connection settles disconnected just when its transport or its protocol failed, or it was so. -/
lemma disconnected_iff :
    s = .disconnected ↔ (∃ e, result = .error (.transport e)) ∨
      (∃ e, result = .error (.protocol e)) ∨ result = .error .disconnected := by
  cases h with
  | answered a =>
    refine ⟨nofun, ?_⟩
    rintro (⟨e, eq⟩ | ⟨e, eq⟩ | eq) <;> cases eq
  | refused e =>
    refine ⟨nofun, ?_⟩
    rintro (⟨e, eq⟩ | ⟨e, eq⟩ | eq) <;> cases eq
  | failed sort =>
    refine ⟨fun _ => ?_, fun _ => rfl⟩
    cases sort with
    | @transport e _ => exact .inl ⟨e, rfl⟩
    | protocol e => exact .inr (.inl ⟨e, rfl⟩)
  | closed => exact ⟨fun _ => .inr (.inr rfl), fun _ => rfl⟩

/-- The errors that no request returns. -/
lemma ne_error {e : ClientError}
    (never : e = .busy ∨ (∃ e', e = .handshake e') ∨ ∃ m, e = .transport (.malformed m)) :
    result ≠ .error e := by
  rintro rfl
  cases h with
  | refused e => rcases never with eq | ⟨e', eq⟩ | ⟨m, eq⟩ <;> cases eq
  | failed sort =>
    cases sort with
    | transport sound =>
      rcases never with eq | ⟨e', eq⟩ | ⟨m, eq⟩
      · cases eq
      · cases eq
      · cases eq
        exact sound m rfl
    | protocol e => rcases never with eq | ⟨e', eq⟩ | ⟨m, eq⟩ <;> cases eq
  | closed => rcases never with eq | ⟨e', eq⟩ | ⟨m, eq⟩ <;> cases eq

end Settled

/-- What fails in sending has to do with the stream. -/
lemma ofStream_of_send {c c' : Connection ρ} {packets : List Request} {e : ClientError}
    (h : c.send packets = (.error e, c')) : e.OfStream := by
  obtain ⟨result, t, flushed⟩ : ∃ result t,
      (c.transport.stage (Request.encodeAll c.revision packets)).flush = (result, t) := ⟨_, _, rfl⟩
  rw [send, flushed] at h
  cases result with
  | ok u => cases h
  | error failure =>
    cases h
    exact ofStream_ofFailure failure

variable [Reader ρ] {c c' : Connection ρ} {ids ids' : QueryIds}

/-- What fails in receiving has to do with the stream. -/
lemma ofStream_of_receive {phase : Phase} {before : List Packet} {e : ClientError}
    (h : c.receive phase = ((before, .error e), c')) : e.OfStream := by
  obtain ⟨input, _, run⟩ := receive_inv h
  exact Phase.ofStream_of_receive run

/-- An exchange fails only with an error of the stream or of what came over it. -/
lemma ofStream_of_exchange {packets : List Request} {phase : Phase} {before : List Packet}
    {e : ClientError} (h : c.exchange packets phase = ((before, .error e), c')) : e.OfStream := by
  rcases exchange_inv h with ⟨e', _, eq, sent⟩ | ⟨c₁, _, received⟩
  · cases eq
    exact ofStream_of_send sent
  · exact ofStream_of_receive received

/-- A connection that is disconnected answers no call and is not changed by any. -/
lemma call_of_disconnected (closed : c.state = .disconnected) (k : Call) (ids : QueryIds) :
    c.call k ids = ({ result := .error .disconnected }, c, ids) :=
  call_of_error (start_of_disconnected closed) k ids

/-- Calls on a disconnected connection are all refused and do nothing. -/
lemma calls_of_disconnected (closed : c.state = .disconnected) (ks : List Call) (ids : QueryIds) :
    c.calls ks ids = (ks.map fun _ => { result := .error .disconnected }, c, ids) := by
  induction ks with
  | nil => rfl
  | cons k ks ih => exact calls_cons (call_of_disconnected closed k ids) ih

/-- An exchange settles the state by what came last. -/
lemma settled_of_exchange {packets : List Request} {phase : Phase} {before : List Packet}
    {last : Except ClientError Packet} (h : c.exchange packets phase = ((before, last), c'))
    (rethrow : Bool) : Settled (c'.settle last.isOk).state (outcome rethrow last) := by
  refine .of_outcome c' rethrow ?_
  rintro e rfl
  exact ofStream_of_exchange h

/-- A call settles the state by its result. -/
lemma settled_call {k : Call} {answer : Answer} (ready : c.state = .idle ∨ c.state = .disconnected)
    (called : c.call k ids = (answer, c', ids')) : Settled c'.state answer.result := by
  rcases ready with idle | closed
  · cases performed_of_call idle called with
    | executed exchanged => exact (settled_of_exchange exchanged _).map some
    | undescribed exchanged => exact .failed (ofStream_of_exchange exchanged)
    | refused exchanged => exact .refused _
    | inserted _ _ answered => exact (settled_of_exchange answered true).map _
    | pinged exchanged => exact (settled_of_exchange exchanged true).map _
  · rw [call_of_disconnected closed] at called
    cases called
    rw [closed]
    exact .closed

/-- A call changes the transport and the state and nothing else. -/
lemma frame_of_call {k : Call} {answer : Answer} (called : c.call k ids = (answer, c', ids')) :
    ∃ transport state, c' = { c with transport, state } := by
  by_cases idle : c.state = .idle
  · cases performed_of_call idle called with
    | executed exchanged =>
      obtain ⟨t, rfl⟩ := frame_of_exchange exchanged
      exact ⟨_, _, rfl⟩
    | undescribed exchanged =>
      obtain ⟨t, rfl⟩ := frame_of_exchange exchanged
      exact ⟨_, _, rfl⟩
    | refused exchanged =>
      obtain ⟨t, rfl⟩ := frame_of_exchange exchanged
      exact ⟨_, _, rfl⟩
    | inserted exchanged ready answered =>
      obtain ⟨t, rfl⟩ := frame_of_exchange exchanged
      obtain ⟨t', rfl⟩ := frame_of_exchange answered
      exact ⟨_, _, rfl⟩
    | pinged exchanged =>
      obtain ⟨t, rfl⟩ := frame_of_exchange exchanged
      exact ⟨_, _, rfl⟩
  · obtain ⟨e, refused, _⟩ := start_of_other idle
    cases called.symm.trans (call_of_error refused k ids)
    exact ⟨_, _, rfl⟩

/-- A handshake that succeeds leaves an idle connection. -/
lemma idle_of_handshake {options : Options} {t t' : Transport ρ}
    (opened : handshake options t = (.ok c, t')) : c.state = .idle := by
  obtain ⟨_, _, _, _, rfl⟩ := handshake_inv opened
  rfl

/-- A connection that calls have reached is idle or disconnected. -/
lemma Reached.ready (reached : Reached c) : c.state = .idle ∨ c.state = .disconnected := by
  -- Neither of the two states lets a call end in another one.
  induction reached with
  | opened opened => exact .inl (idle_of_handshake opened)
  | called _ called ih => exact (settled_call ih called).ready
  | registered registry _ ih => exact ih

/-- Whatever the stream does, the state after a call corresponds to what the call returned, and a
connection that is disconnected stays so. -/
theorem call_settles {k : Call} {answer : Answer} (reached : Reached c)
    (called : c.call k ids = (answer, c', ids')) :
    (c'.state = .idle ∨ c'.state = .disconnected) ∧
    (c'.state = .idle ↔
      (∃ outcome, answer.result = .ok outcome) ∨ ∃ e, answer.result = .error (.server e)) ∧
    (c'.state = .disconnected ↔
      (∃ e, answer.result = .error (.transport e)) ∨
      (∃ e, answer.result = .error (.protocol e)) ∨ answer.result = .error .disconnected) ∧
    answer.result ≠ .error .busy ∧
    (∀ e, answer.result ≠ .error (.handshake e)) ∧
    (∀ m, answer.result ≠ .error (.transport (.malformed m))) ∧
    (c'.state = .disconnected → ∀ ks ids,
      c'.calls ks ids = (ks.map fun _ => { result := .error .disconnected }, c', ids)) := by
  have settled := settled_call reached.ready called
  refine ⟨settled.ready, settled.idle_iff, settled.disconnected_iff, ?_, ?_, ?_, ?_⟩
  · exact settled.ne_error (.inl rfl)
  · exact fun e => settled.ne_error (.inr (.inl ⟨e, rfl⟩))
  · exact fun m => settled.ne_error (.inr (.inr ⟨m, rfl⟩))
  · exact fun closed ks ids => calls_of_disconnected closed ks ids

/-- A ping that is not answered leaves a connection that never works again. -/
theorem call_settles_unanswered : ∃ c c' : Connection Feed, Reached c ∧
    c.call .ping {} = ({ result := .error (.transport .truncated) }, c', {}) ∧
    c'.state = .disconnected ∧
    ∀ ks ids, c'.calls ks ids = (ks.map fun _ => { result := .error .disconnected }, c', ids) := by
  have here : ByteStream.unread (Feed.ofBytes elder.encode) = Feed.ofBytes elder.encode ++ [] :=
    (Feed.calm_ofBytes _).trans (List.append_nil _).symm
  have obliging : Sink.Obliging {} := ⟨nofun, nofun⟩
  obtain ⟨t, opened, obliges, left⟩ := handshake_whole { queryIds := ⟨0⟩ } elder_fits obliging here
  have none_before : ∀ q ∈ ([] : List Reply), Phase.pong.Takes false q := List.forall_mem_nil _
  have awaited : Phase.pong.Takes true .pong := ⟨trivial, rfl, rfl⟩
  have cut : CutShort [] (Reply.pong.encode elder.agreed) :=
    ⟨List.nil_prefix, (Wire.Varint.encodeNat_ne_nil _).symm⟩
  obtain ⟨t', exchanged, _⟩ := exchange_short
    (c := ⟨t, { queryIds := ⟨0⟩ }, .builtin, elder.info, elder.agreed, .inFlight⟩)
    Registry.knowsBuiltin_builtin obliges [.ping] .pong none_before awaited cut left
  have called := call_ping (ping_of_exchange
    (c := ⟨t, { queryIds := ⟨0⟩ }, .builtin, elder.info, elder.agreed, .idle⟩) rfl exchanged) {}
  obtain ⟨_, _, disconnected, _, _, _, stays⟩ := call_settles (.opened opened) called
  have closed := disconnected.2 (.inl ⟨.truncated, rfl⟩)
  exact ⟨_, _, .opened opened, called, closed, stays closed⟩

end Columnar.Connection
