import Columnar.Proofs.Connection.State
import Columnar.Proofs.Packet.Received

/-!
# Doing the same again over another stream

What a request does depends on the bytes that it uses of its stream and on nothing else: over any
other stream that begins with the same bytes it returns the same, writes the same and leaves the
other stream behind the same bytes. Only where it reports that the stream has ended within a packet
it is also necessary that nothing follows them. Main lemmas: `handshake_replays`, `call_replays`.
-/

namespace Columnar

open ByteStream Wire

/-- A beginning of a stream has been used, and wherever it comes next the same can be done again; if
what has been done is not settled, then only where the same follows, too. -/
def ByteStream.Replays {ρ : Type} [Reader ρ] [Observable ρ] (before after : Feed) (settled : Prop)
    (again : ρ → ρ → Prop) : Prop :=
  ∃ used, before = used ++ after ∧
    ∀ {r rest}, unread r = used ++ rest → rest = after ∨ settled → ∃ r', again r r' ∧ unread r' = rest

namespace ByteStream.Replays

variable {ρ : Type} [Reader ρ] [Observable ρ] {before after end_ : Feed} {settled settled' : Prop}
  {again again' : ρ → ρ → Prop}

/-- A weaker repetition can be had under a stronger condition. -/
lemma imp (h : Replays before after settled again) (goes : settled' → settled)
    (same : ∀ r r', again r r' → again' r r') : Replays before after settled' again' := by
  obtain ⟨used, here, h⟩ := h
  refine ⟨used, here, fun {r rest} next followed => ?_⟩
  obtain ⟨r', did, left⟩ := h next (followed.imp_right goes)
  exact ⟨r', same r r' did, left⟩

/-- What is done in two parts is done again in two parts. -/
lemma trans (first : Replays before after settled again) (sound : settled)
    (second : Replays after end_ settled' again') :
    Replays before end_ settled' fun r r' => ∃ r₁, again r r₁ ∧ again' r₁ r' := by
  obtain ⟨used, rfl, first⟩ := first
  obtain ⟨used', rfl, second⟩ := second
  refine ⟨used ++ used', (List.append_assoc ..).symm, fun {r rest} next followed => ?_⟩
  rw [List.append_assoc] at next
  obtain ⟨r₁, did, left⟩ := first next (.inr sound)
  obtain ⟨r', did', left⟩ := second left followed
  exact ⟨r', ⟨r₁, did, did'⟩, left⟩

end ByteStream.Replays

variable {ρ σ : Type}

/-- The transport over another stream. -/
def Transport.over (t : Transport ρ) (input : Buffered σ) : Transport σ := { t with input }

/-- The connection over another stream. -/
def Connection.over (c : Connection ρ) (input : Buffered σ) : Connection σ :=
  { c with transport := c.transport.over input }

/-- Flushing does the same over another stream. -/
lemma Transport.flush_over (t : Transport ρ) (input : Buffered σ) :
    (t.over input).flush = (t.flush.1, t.flush.2.over input) := by
  have same : (t.over input).drain = t.drain := rfl
  rw [flush, flush, same]
  rcases t.drain with ⟨_ | _, sink⟩
  · rfl
  · rfl

/-- Of decoders that agree the one does again what the other has done. -/
lemma Wire.Decoder.Agrees.replays [Reader ρ] [Observable ρ] [Reader σ] [Observable σ] {ε α : Type}
    [Truncation ε] {d : Decoder ρ ε α} {d' : Decoder σ ε α} (agrees : d.Agrees d') {r s : ρ}
    {result : Except ε α} (run : d.run r = (result, s)) :
    Replays (unread r) (unread s) (∀ e, result = .error e → ¬IsTruncation e)
      fun r' s' => d'.run r' = (result, s') := by
  cases result with
  | ok a =>
    obtain ⟨bs, here, reads⟩ := agrees.ok run
    exact ⟨.ofBytes bs, here, fun next _ => reads.whole next⟩
  | error e =>
    obtain ⟨used, here, refuses⟩ := agrees.error run
    exact ⟨used, here, fun next goes => refuses next (goes.imp_right fun other => other e rfl)⟩

namespace Connection

/-- Sending does the same over another stream. -/
lemma send_over {c c' : Connection ρ} {packets : List Request} {result : Except ClientError Unit}
    (input : Buffered σ) (h : c.send packets = (result, c')) :
    (c.over input).send packets = (result, c'.over input) := by
  rw [send] at h ⊢
  cases h
  have flushed := Transport.flush_over (c.transport.stage (Request.encodeAll c.revision packets)) input
  have same : (c.over input).transport.stage (Request.encodeAll (c.over input).revision packets) =
      (c.transport.stage (Request.encodeAll c.revision packets)).over input := rfl
  rw [same, flushed]
  rfl

variable [Reader ρ] [Observable ρ] [Reader σ] [Observable σ] {c c' : Connection ρ}
  {packets : List Request} {phase : Phase} {before : List Packet} {last : Except ClientError Packet}
  {ids ids' : QueryIds}

/-- What a connection receives is received again wherever the same bytes come next. -/
lemma received_of_receive (h : c.receive phase = ((before, last), c')) :
    ∃ used, c.unread = used ++ c'.unread ∧
      phase.Received σ c.revision c.registry used c'.unread before last := by
  obtain ⟨input, rfl, run⟩ := receive_inv h
  exact Phase.received_of_run run

/-- An exchange does the same again wherever the same bytes come next. -/
lemma exchange_replays (h : c.exchange packets phase = ((before, last), c')) :
    Replays c.unread c'.unread (last ≠ .error (.transport .truncated))
      fun input input' : Buffered σ =>
        (c.over input).exchange packets phase = ((before, last), c'.over input') := by
  rcases exchange_inv h with ⟨e, rfl, rfl, sent⟩ | ⟨c₁, sent, received⟩
  · refine ⟨[], (unread_of_send sent).symm, fun {input rest} same goes => ⟨input, ?_, same⟩⟩
    exact exchange_of_unsent (send_over input sent)
  · obtain ⟨input₁, rfl, _⟩ := receive_inv received
    obtain ⟨used, here, received⟩ := received_of_receive (σ := Buffered σ) received
    rw [unread_of_send sent] at here
    refine ⟨used, here, fun {input rest} same goes => ?_⟩
    obtain ⟨input', run, left⟩ := (received.changed goes).run (ε := Empty) same
    refine ⟨input', ?_, left⟩
    exact (exchange_of_sent (send_over input sent)).trans (receive_of_run (c := c₁.over input) run)

/-- A result that is no truncation does not come from one. -/
lemma settled_of_outcome {rethrow : Bool}
    (h : outcome rethrow last ≠ .error (.transport .truncated)) :
    last ≠ .error (.transport .truncated) := by
  rintro rfl
  exact h rfl

/-- A result that is settled stays so under a change of its value. -/
lemma settled_of_map {α β : Type} {result : Except ClientError α} {f : α → β}
    (h : result.map f ≠ .error (.transport .truncated)) :
    result ≠ .error (.transport .truncated) := by
  rintro rfl
  exact h rfl

/-- A call does the same again wherever the same bytes come next. -/
lemma call_replays {k : Call} {answer : Answer} (ready : c.state = .idle ∨ c.state = .disconnected)
    (h : c.call k ids = (answer, c', ids')) :
    Replays c.unread c'.unread (answer.result ≠ .error (.transport .truncated))
      fun input input' : Buffered σ =>
        (c.over input).call k ids = (answer, c'.over input', ids') := by
  rcases ready with idle | closed
  · suffices Replays c.unread c'.unread (answer.result ≠ .error (.transport .truncated))
        fun input input' : Buffered σ =>
          Performed (c.over input) ids k answer (c'.over input') ids' from
      this.imp id fun input input' performed => Performed.call (c := c.over input) idle performed
    cases performed_of_call idle h with
    | @executed query before last c₁ exchanged =>
      refine (exchange_replays exchanged).imp ?_ fun input input' run => ?_
      · exact fun other => settled_of_outcome (settled_of_map other)
      · exact (.executed run : Performed (c.over input) ids (.execute query) _ _ _)
    | @undescribed table block before e c₁ exchanged =>
      refine (exchange_replays exchanged).imp ?_ fun input input' run => ?_
      · rintro other ⟨⟩
        exact other rfl
      · exact (.undescribed run : Performed (c.over input) ids (.insert table block) _ _ _)
    | @refused table block before e c₁ exchanged =>
      refine (exchange_replays exchanged).imp (fun _ => nofun) fun input input' run => ?_
      exact (.refused run : Performed (c.over input) ids (.insert table block) _ _ _)
    | @inserted table block before before' p last c₁ c₂ exchanged ready answered =>
      -- The second exchange uses what comes after the stretch that the first one has used.
      refine ((exchange_replays exchanged).trans nofun (exchange_replays answered)).imp ?_ ?_
      · exact fun other => settled_of_outcome (settled_of_map other)
      · rintro input input' ⟨input₁, run, run'⟩
        exact (.inserted run ready run' : Performed (c.over input) ids (.insert table block) _ _ _)
    | @pinged before last c₁ exchanged =>
      refine (exchange_replays exchanged).imp ?_ fun input input' run => ?_
      · exact fun other => settled_of_outcome (settled_of_map other)
      · exact (.pinged run : Performed (c.over input) ids .ping _ _ _)
  · rw [call_of_disconnected closed] at h
    cases h
    refine ⟨[], rfl, fun {input rest} same _ => ⟨input, ?_, same⟩⟩
    exact call_of_disconnected (c := c.over input) closed k ids

/-- The greeting is read again wherever the same bytes come next. -/
lemma readHello_replays {t t' : Transport ρ} {result : Except ClientError ServerInfo}
    (h : readHello t = (result, t')) :
    Replays (ByteStream.unread t.input) (ByteStream.unread t'.input)
      (result ≠ .error (.transport .truncated))
      fun input input' : Buffered σ => readHello (t.over input) = (result, t'.over input') := by
  obtain ⟨found, input₁, run⟩ : ∃ found input₁,
      (Packet.decode .opening .client .builtin : Decoder _ ClientError _).run t.input =
        (found, input₁) := ⟨_, _, rfl⟩
  rw [readHello_of_run run] at h
  cases h
  refine ((Packet.agrees_decode .opening .client .builtin).replays run).imp ?_ ?_
  · rintro other e rfl cut
    exact other (congrArg _ cut)
  · exact fun input input' again => readHello_of_run (t := t.over input) again

/-- The handshake does the same again wherever the same bytes come next. -/
lemma handshake_replays {options : Options} {t t' : Transport ρ}
    {result : Except ClientError (Connection ρ)} (h : handshake options t = (result, t')) :
    Replays (ByteStream.unread t.input) (ByteStream.unread t'.input)
      (result ≠ .error (.handshake (.transport .truncated)))
      fun input input' : Buffered σ => handshake options (t.over input) =
        (result.map fun c => c.over input', t'.over input') := by
  obtain ⟨flushed, t₁, sent⟩ : ∃ flushed t₁,
      (t.stage ((Request.helloOf options).encode .client)).flush = (flushed, t₁) := ⟨_, _, rfl⟩
  have unchanged : t₁.input = t.input := by
    obtain ⟨staged, sink, rfl⟩ := Transport.flush_inv sent
    rfl
  have sent_over (input : Buffered σ) :
      ((t.over input).stage ((Request.helloOf options).encode .client)).flush =
        (flushed, t₁.over input) := by
    have flushes := Transport.flush_over (t.stage ((Request.helloOf options).encode .client)) input
    rwa [sent] at flushes
  -- Only the flush happens before anything is read, and it does not touch the input.
  cases flushed with
  | error e =>
    rw [handshake_of_failure sent] at h
    cases h
    refine ⟨[], ?_, fun {input rest} same _ => ⟨input, ?_, same⟩⟩
    · rw [unchanged]
      rfl
    · exact handshake_of_failure (sent_over input)
  | ok u =>
    obtain ⟨server, t₂, read⟩ : ∃ server t₂, readHello t₁ = (server, t₂) := ⟨_, _, rfl⟩
    have replays := readHello_replays (σ := σ) read
    rw [unchanged] at replays
    rw [handshake_of_hello sent read] at h
    cases h
    refine replays.imp (fun other => ?_) fun input input' again => ?_
    · rintro rfl
      exact other rfl
    · refine (handshake_of_hello (sent_over input) again).trans ?_
      cases server <;> rfl

end Connection

end Columnar
