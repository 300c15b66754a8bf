import Columnar.Proofs.ByteStream.Accepted
import Columnar.Proofs.Connection.Replay
import Columnar.Proofs.Connection.Session
import Columnar.Proofs.Packet.Complete

/-!
# Rows wait for the server

An insert announces itself and then waits until the server has described the table. Until the whole
description has come, with nothing but progress before it, no byte of the rows is staged or written;
if anything else comes, none ever is. Main statement: `rows_wait`.
-/

namespace Columnar

open ByteStream Wire

/-- What stands in the stream is progress, then this packet, and then the rest. -/
def Packet.Heads (r : Revision) (registry : Registry) (p : Packet) (stream rest : Feed) : Prop :=
  ∃ (waiting : List (Bytes × Packet)) (bs : Bytes),
    stream = .ofBytes (waiting.flatMap Prod.fst ++ bs) ++ rest ∧
    (∀ x ∈ waiting, x.2.kind = .progress ∧ Complete r registry x.1 x.2) ∧
    Complete r registry bs p

namespace Phase

variable {ρ : Type} [Reader ρ] [Observable ρ] {r : Revision} {registry : Registry}
  {used after rest stream : Feed} {before : List Packet} {p : Packet}

/-- While an insert waits for readiness, only progress leaves it waiting. -/
lemma progress_of_readiness {k : PacketKind} (accepted : readiness.accepts k = true)
    (stays : readiness.endsWith k = false) : k = .progress := by
  cases k with
  | progress => rfl
  | data | exception => cases stays
  | _ => cases accepted

/-- Whatever ends the wait for readiness is accepted there. -/
lemma accepts_of_readiness {k : PacketKind} (ends : readiness.endsWith k = true) :
    readiness.accepts k = true := by
  cases k with
  | data | exception => rfl
  | _ => cases ends

/-- What ends the wait for a description comes after progress only. -/
lemma Received.heads (h : Received Feed .readiness r registry used after before (.ok p)) :
    p.Heads r registry (used ++ after) after ∧ readiness.endsWith p.kind = true := by
  cases h with
  | @ended pieces bs _ _ all whole =>
    refine ⟨⟨pieces, bs, rfl, fun x mem => ?_, (Packet.reads_decode_iff.1 whole.reads).1⟩,
      whole.endsWith⟩
    obtain ⟨complete, accepted⟩ := Packet.reads_decode_iff.1 (all x mem).reads
    exact ⟨progress_of_readiness accepted (all x mem).endsWith, complete⟩

/-- A packet that heads the stream is received, with no more than progress in front of it. -/
lemma received_of_heads (heads : p.Heads r registry stream rest)
    (ends : readiness.endsWith p.kind = true) :
    ∃ used before, stream = used ++ rest ∧
      Received ρ .readiness r registry used rest before (.ok p) := by
  obtain ⟨waiting, bs, here, all, complete⟩ := heads
  refine ⟨_, waiting.map Prod.snd, here, .ended (fun x mem => ?_) ?_⟩
  · obtain ⟨sort, whole⟩ := all x mem
    exact ⟨whole.reads (by rw [sort]; rfl), by rw [sort]; rfl⟩
  · exact ⟨complete.reads (accepts_of_readiness ends), ends⟩

end Phase

namespace Connection

variable {ρ : Type}

/-- After what waited at most these bytes have been written, and at most these wait now. -/
structure Within (t : Transport ρ) (bs : Bytes) (t' : Transport ρ) : Prop where
  accepted : ∃ part, part <+: t.staged ++ bs ∧ t'.sink.accepted = t.sink.accepted ++ part
  staged : t'.staged <+: t.staged ++ bs

/-- What waited has been written, and then these bytes, and nothing waits now. -/
structure Handed (t : Transport ρ) (bs : Bytes) (t' : Transport ρ) : Prop where
  accepted : t'.sink.accepted = t.sink.accepted ++ (t.staged ++ bs)
  staged : t'.staged = []

/-- Sending hands over no more than the packets, and all of them if it succeeds. -/
lemma handed_of_send {c c' : Connection ρ} {packets : List Request}
    {result : Except ClientError Unit} (h : c.send packets = (result, c')) :
    Within c.transport (Request.encodeAll c.revision packets) c'.transport ∧
      (result = .ok () →
        Handed c.transport (Request.encodeAll c.revision packets) c'.transport) := by
  obtain ⟨flushed, t, run⟩ : ∃ flushed t,
      (c.transport.stage (Request.encodeAll c.revision packets)).flush = (flushed, t) :=
    ⟨_, _, rfl⟩
  rw [send, run] at h
  cases h
  obtain ⟨pieces, flushes⟩ := Transport.flushes_of_flush run
  have accepted := Sink.accepted_of_pieces flushes.added
  refine ⟨⟨⟨_, flushes.begins, accepted⟩, ?_⟩, fun sent => ?_⟩
  · rcases flushes.kept with ⟨clear, _⟩ | ⟨kept, _⟩
    · exact clear ▸ List.nil_prefix
    · exact kept ▸ List.prefix_rfl
  · cases flushed with
    | error e => cases sent
    | ok u =>
      obtain ⟨clear, all⟩ := flushes.clear
      rw [all] at accepted
      exact ⟨accepted, clear⟩

/-- The bytes that announce an insert. -/
def announcement (c : Connection ρ) (ids : QueryIds) (table : String) : Bytes :=
  Request.encodeAll c.revision (c.opening ids (insertQuery table))

/-- The announcement of an insert goes out. -/
def Announced (c : Connection ρ) (ids : QueryIds) (table : String) : Prop :=
  (c.busy.send (c.opening ids (insertQuery table))).1 = .ok ()

variable [Reader ρ] {c c' : Connection ρ} {packets : List Request} {before : List Packet} {p : Packet}

/-- An exchange hands over no more than its packets, and all of them if they are sent. -/
lemma handed_of_exchange {phase : Phase} {last : Except ClientError Packet}
    (h : c.exchange packets phase = ((before, last), c')) :
    Within c.transport (Request.encodeAll c.revision packets) c'.transport ∧
      ((c.send packets).1 = .ok () →
        Handed c.transport (Request.encodeAll c.revision packets) c'.transport) := by
  rcases exchange_inv h with ⟨e, _, _, sent⟩ | ⟨c₁, sent, received⟩
  · obtain ⟨within, _⟩ := handed_of_send sent
    rw [sent]
    exact ⟨within, nofun⟩
  · obtain ⟨within, whole⟩ := handed_of_send sent
    obtain ⟨input, rfl, _⟩ := receive_inv received
    have handed := whole rfl
    exact ⟨⟨within.accepted, within.staged⟩, fun _ => ⟨handed.accepted, handed.staged⟩⟩

variable [Observable ρ] {rest : Feed}

/-- A packet that ended the wait headed the stream. -/
lemma heads_of_exchange (h : c.exchange packets .readiness = ((before, .ok p), c')) :
    (c.send packets).1 = .ok () ∧ p.Heads c.revision c.registry c.unread c'.unread ∧
      Phase.readiness.endsWith p.kind = true := by
  rcases exchange_inv h with ⟨e, _, eq, _⟩ | ⟨c₁, sent, received⟩
  · cases eq
  · obtain ⟨used, here, received⟩ := received_of_receive (σ := Feed) received
    obtain ⟨heads, ends⟩ := received.heads
    rw [← here, unread_of_send sent] at heads
    obtain ⟨staged, sink, rfl⟩ := send_inv sent
    exact ⟨congrArg Prod.fst sent, heads, ends⟩

/-- When the packets have been sent, the packet that heads the stream ends the wait. -/
lemma exchange_of_heads (sent : (c.send packets).1 = .ok ())
    (heads : p.Heads c.revision c.registry c.unread rest)
    (ends : Phase.readiness.endsWith p.kind = true) :
    ∃ before c', c.exchange packets .readiness = ((before, .ok p), c') := by
  have sends : c.send packets = (.ok (), (c.send packets).2) := Prod.ext sent rfl
  obtain ⟨staged, sink, after⟩ := send_inv sends
  rw [after] at sends
  obtain ⟨used, before, here, received⟩ := Phase.received_of_heads (ρ := Buffered ρ) heads ends
  obtain ⟨input, run, _⟩ := received.run (ε := Empty) here
  exact ⟨before, _, (exchange_of_sent sends).trans (receive_of_run run)⟩

/-- Rows are written only after the announcement has gone out and the whole description has come
behind progress alone. Otherwise an insert writes nothing behind its announcement and fails: with the
server's exception, if one came there, and else with an error that closes the connection. -/
theorem rows_wait {table : String} {block : Block} {ids ids' : QueryIds} {answer : Answer}
    (idle : c.state = .idle) (called : c.call (.insert table block) ids = (answer, c', ids')) :
    (c.Announced ids table ∧ ∃ (schema : Block) (c₁ c₂ : Connection ρ) (before : List Packet)
        (last : Except ClientError Packet),
      Packet.Heads c.revision c.registry (.data schema) c.unread c₁.unread ∧
      Handed c.transport (c.announcement ids table) c₁.transport ∧
      c₁.exchange (Request.insertRows block) .result = ((before, last), c₂) ∧
      c' = c₂.settle last.isOk ∧ answer.result = (outcome true last).map fun _ => none) ∨
    ((¬∃ schema rest, c.Announced ids table ∧
        Packet.Heads c.revision c.registry (.data schema) c.unread rest) ∧
      Within c.transport (c.announcement ids table) c'.transport ∧
      ((c.Announced ids table ∧ ∃ e,
          Packet.Heads c.revision c.registry (.exception e) c.unread c'.unread ∧
          answer.result = .error (.server e) ∧ c'.state = .idle) ∨
        (¬∃ e rest, c.Announced ids table ∧
            Packet.Heads c.revision c.registry (.exception e) c.unread rest) ∧
          ((∃ e, answer.result = .error (.transport e)) ∨
            ∃ e, answer.result = .error (.protocol e)) ∧
          c'.state = .disconnected)) := by
  -- What has come to an end of the wait is all that can have come there.
  have only {found : Except ClientError Packet} {before : List Packet} {c₁ : Connection ρ}
      (exchanged : c.busy.exchange (c.opening ids (insertQuery table)) .readiness =
        ((before, found), c₁)) {p : Packet} {rest : Feed} (announced : c.Announced ids table)
      (heads : p.Heads c.revision c.registry c.unread rest)
      (ends : Phase.readiness.endsWith p.kind = true) : found = .ok p := by
    obtain ⟨_, _, exchanged'⟩ := exchange_of_heads (c := c.busy) announced heads ends
    cases exchanged.symm.trans exchanged'
    rfl
  cases performed_of_call idle called with
  | @undescribed _ _ before e c₁ exchanged =>
    refine .inr ⟨?_, ?_, .inr ⟨?_, ?_, rfl⟩⟩
    · rintro ⟨schema, rest, announced, heads⟩
      cases only exchanged announced heads rfl
    · obtain ⟨within, _⟩ := handed_of_exchange exchanged
      exact ⟨within.accepted, within.staged⟩
    · rintro ⟨x, rest, announced, heads⟩
      cases only exchanged announced heads rfl
    · cases ofStream_of_exchange exchanged with
      | @transport e _ => exact .inl ⟨e, rfl⟩
      | protocol e => exact .inr ⟨e, rfl⟩
  | @refused _ _ before e c₁ exchanged =>
    obtain ⟨announced, heads, _⟩ := heads_of_exchange exchanged
    refine .inr ⟨?_, ?_, .inl ⟨announced, e, heads, rfl, rfl⟩⟩
    · rintro ⟨schema, rest, _, described⟩
      cases only exchanged announced described rfl
    · obtain ⟨within, _⟩ := handed_of_exchange exchanged
      exact ⟨within.accepted, within.staged⟩
  | @inserted _ _ before before' p last c₁ c₂ exchanged ready answered =>
    obtain ⟨announced, heads, ends⟩ := heads_of_exchange exchanged
    obtain ⟨schema, rfl⟩ : ∃ schema, p = .data schema := by
      cases p with
      | data schema => exact ⟨schema, rfl⟩
      | exception e => exact absurd rfl (ready e)
      | _ => cases ends
    obtain ⟨_, whole⟩ := handed_of_exchange exchanged
    have handed := whole announced
    exact .inl ⟨announced, schema, c₁, c₂, before', last, heads,
      ⟨handed.accepted, handed.staged⟩, answered, rfl, rfl⟩

/-- A connection on which an insert is taken. -/
def taking : Connection Feed where
  transport := .ofStream (.ofBytes (Turn.takenInsert.encode elder.agreed)) {}
  options := { queryIds := ⟨0⟩ }
  registry := .builtin
  server := elder.info
  revision := elder.agreed
  state := .idle

/-- The rows of the twins are written once their table has been described. -/
theorem rows_wait_taking : ∃ (answer : Answer) (c₁ c₂ c' : Connection Feed) (ids' : QueryIds)
    (schema : Block) (before : List Packet) (last : Except ClientError Packet),
    taking.call (.insert "twins" .twins) {} = (answer, c', ids') ∧
    Packet.Heads elder.agreed .builtin (.data schema) taking.unread c₁.unread ∧
    Handed taking.transport (taking.announcement {} "twins") c₁.transport ∧
    c₁.exchange (Request.insertRows .twins) .result = ((before, last), c₂) ∧
    answer.result = .ok none := by
  have knows : taking.registry.KnowsBuiltin := Registry.knowsBuiltin_builtin
  have obliging : taking.transport.Obliging := ⟨rfl, nofun, nofun⟩
  obtain ⟨t, ids', called, _⟩ := call_of_phased (c := taking) rfl knows obliging
    Turn.takenInsert.phased (unread_ofBytes _) {}
  rcases rows_wait (c := taking) rfl called with
    ⟨_, schema, c₁, c₂, before, last, heads, handed, answered, _, _⟩ |
      ⟨_, _, ⟨_, e, _, raised, _⟩ | ⟨_, ⟨e, failed⟩ | ⟨e, failed⟩, _⟩⟩
  · exact ⟨_, c₁, c₂, _, ids', schema, before, last, called, heads, handed, answered, rfl⟩
  · cases raised
  · cases failed
  · cases failed

end Connection

end Columnar
