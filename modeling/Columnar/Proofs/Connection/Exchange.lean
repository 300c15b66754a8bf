import Columnar.Proofs.ByteStream.Obliging
import Columnar.Proofs.Connection.Response

/-!
# Exchanges

An exchange sends packets and then receives (`exchange_inv`). Over a transport that refuses no write
the packets are sent whole, and the replies are taken as far as the stream has them: `exchange_whole`
is about replies that are all there, and `exchange_short` about a stream that ends within one of them.
-/

namespace Columnar

open ByteStream

variable {ρ : Type}

/-- Flushing changes the writing side of the transport only. -/
lemma Transport.flush_inv {t t' : Transport ρ} {result : Except Failure Unit}
    (h : t.flush = (result, t')) : ∃ staged sink, t' = { t with staged, sink } := by
  rw [flush] at h
  split at h <;> cases h
  · exact ⟨_, _, rfl⟩
  · exact ⟨_, _, rfl⟩

namespace Connection

/-- The packets have been written, after what was staged before them, and nothing else has. -/
structure Sent (before : Transport ρ) (bs : Bytes) (after : Transport ρ) : Prop where
  obliging : after.Obliging
  staged : after.staged = []
  accepted : after.sink.accepted = before.sink.accepted ++ (before.staged ++ bs)

/-- Packets that are sent to an obliging stream all arrive, and nothing is read. -/
lemma send_obliging {c : Connection ρ} (obliging : c.transport.Obliging) (packets : List Request) :
    ∃ t, c.send packets = (.ok (), { c with transport := t }) ∧ t.input = c.transport.input ∧
      Sent c.transport (Request.encodeAll c.revision packets) t := by
  obtain ⟨sink, flushed, accepted, obliges⟩ :=
    (obliging.stage (Request.encodeAll c.revision packets)).flush
  have sent : Transport.Obliging { c.transport with sink, staged := [] } :=
    ⟨obliging.opened, obliges⟩
  refine ⟨{ c.transport with sink, staged := [] }, ?_, rfl, sent, rfl, accepted⟩
  rw [send, flushed]
  rfl

/-- Sending changes no more than what is staged and the sink. -/
lemma send_inv {c c' : Connection ρ} {packets : List Request} {result : Except ClientError Unit}
    (h : c.send packets = (result, c')) :
    ∃ staged sink, c' = { c with transport := { c.transport with staged, sink } } := by
  obtain ⟨flushed, t, run⟩ : ∃ flushed t,
      (c.transport.stage (Request.encodeAll c.revision packets)).flush = (flushed, t) :=
    ⟨_, _, rfl⟩
  rw [send, run] at h
  cases h
  obtain ⟨staged, sink, rfl⟩ := Transport.flush_inv run
  exact ⟨staged, sink, rfl⟩

/-- What was sent is not undone by reading. -/
lemma Sent.receive {t t' : Transport ρ} {bs : Bytes} (sent : Sent t bs t') (input : Buffered ρ) :
    Sent t bs { t' with input } :=
  ⟨⟨sent.obliging.opened, sent.obliging.sink⟩, sent.staged, sent.accepted⟩

variable [Reader ρ]

/-- What a phase reads from the input is what the connection receives. -/
lemma receive_of_run {phase : Phase} {c : Connection ρ} {input : Buffered ρ}
    {response : List Packet × Except ClientError Packet}
    (h : (phase.receive c.revision c.registry : Wire.Decoder _ Empty _).run c.transport.input =
      (.ok response, input)) :
    c.receive phase = (response, { c with transport := { c.transport with input } }) := by
  have received : c.transport.receive
      (phase.receive c.revision c.registry : Wire.Decoder _ Empty _) =
        (.ok response, { c.transport with input }) := by
    rw [Transport.receive, h]
  rw [Connection.receive, received]

/-- Receiving changes no more than the input, as the phase reads it. -/
lemma receive_inv {phase : Phase} {c c' : Connection ρ}
    {response : List Packet × Except ClientError Packet} (h : c.receive phase = (response, c')) :
    ∃ input, c' = { c with transport := { c.transport with input } } ∧
      (phase.receive c.revision c.registry : Wire.Decoder _ Empty _).run c.transport.input =
        (.ok response, input) := by
  obtain ⟨result, input, run⟩ : ∃ result input,
      (phase.receive c.revision c.registry : Wire.Decoder _ Empty _).run c.transport.input =
        (result, input) := ⟨_, _, rfl⟩
  cases result with
  | error never => exact never.elim
  | ok response =>
    rw [receive_of_run run] at h
    cases h
    exact ⟨input, rfl, run⟩

section

variable {c c' c₁ : Connection ρ} {packets : List Request} {phase : Phase}

/-- An exchange whose packets cannot be sent receives nothing. -/
lemma exchange_of_unsent {e : ClientError} (h : c.send packets = (.error e, c')) :
    c.exchange packets phase = (([], .error e), c') := by
  rw [exchange, h]

/-- An exchange whose packets have been sent receives the response. -/
lemma exchange_of_sent (h : c.send packets = (.ok (), c₁)) :
    c.exchange packets phase = c₁.receive phase := by
  rw [exchange, h]

/-- An exchange ends when the packets cannot be sent, or with what is received. -/
lemma exchange_inv {before : List Packet} {last : Except ClientError Packet}
    (h : c.exchange packets phase = ((before, last), c')) :
    (∃ e, before = [] ∧ last = .error e ∧ c.send packets = (.error e, c')) ∨
      ∃ c₁, c.send packets = (.ok (), c₁) ∧ c₁.receive phase = ((before, last), c') := by
  obtain ⟨result, c₁, sent⟩ : ∃ result c₁, c.send packets = (result, c₁) := ⟨_, _, rfl⟩
  cases result with
  | error e =>
    rw [exchange_of_unsent sent] at h
    cases h
    exact .inl ⟨e, rfl, rfl, sent⟩
  | ok u =>
    rw [exchange_of_sent sent] at h
    exact .inr ⟨c₁, sent, h⟩

/-- An exchange changes the transport and nothing else. -/
lemma frame_of_exchange {response : List Packet × Except ClientError Packet}
    (h : c.exchange packets phase = (response, c')) : ∃ t, c' = { c with transport := t } := by
  rcases exchange_inv h with ⟨_, _, _, sent⟩ | ⟨c₁, sent, received⟩
  · obtain ⟨staged, sink, rfl⟩ := send_inv sent
    exact ⟨_, rfl⟩
  · obtain ⟨staged, sink, rfl⟩ := send_inv sent
    obtain ⟨input, rfl, _⟩ := receive_inv received
    exact ⟨_, rfl⟩

end

variable [Observable ρ]

/-- What is still unread of the connection's stream. -/
def unread (c : Connection ρ) : Feed := ByteStream.unread c.transport.input

/-- Sending reads nothing. -/
lemma unread_of_send {c c' : Connection ρ} {packets : List Request}
    {result : Except ClientError Unit} (h : c.send packets = (result, c')) :
    c'.unread = c.unread := by
  obtain ⟨staged, sink, rfl⟩ := send_inv h
  rfl

/-- A whole response is received packet by packet and no further. -/
lemma exchange_whole {c : Connection ρ} (knows : c.registry.KnowsBuiltin)
    (obliging : c.transport.Obliging) (packets : List Request) (phase : Phase)
    {before : List Reply} {last : Reply} (midway : ∀ q ∈ before, phase.Takes false q)
    (closing : phase.Takes true last) {rest : Feed}
    (here : c.unread =
      .ofBytes ((before ++ [last]).flatMap (Reply.encode c.revision)) ++ rest) :
    ∃ t, c.exchange packets phase =
        ((before.map (Reply.packet c.revision), .ok (last.packet c.revision)),
          { c with transport := t }) ∧
      ByteStream.unread t.input = rest ∧
      Sent c.transport (Request.encodeAll c.revision packets) t := by
  obtain ⟨t, sends, same, sent⟩ := send_obliging obliging packets
  rw [unread, ← same] at here
  obtain ⟨input, received, left⟩ := phase.receive_whole (ε := Empty) knows midway closing here
  refine ⟨{ t with input }, ?_, left, sent.receive input⟩
  exact (exchange_of_sent sends).trans (receive_of_run received)

/-- A response that ends within a packet yields the whole packets before it, and then fails. -/
lemma exchange_short {c : Connection ρ} (knows : c.registry.KnowsBuiltin)
    (obliging : c.transport.Obliging) (packets : List Request) (phase : Phase)
    {before : List Reply} {next : Reply} {ends : Bool}
    (midway : ∀ q ∈ before, phase.Takes false q) (taken : phase.Takes ends next) {p : Bytes}
    (cut : CutShort p (next.encode c.revision))
    (here : c.unread = .ofBytes (before.flatMap (Reply.encode c.revision) ++ p)) :
    ∃ t, c.exchange packets phase =
        ((before.map (Reply.packet c.revision), .error (.transport .truncated)),
          { c with transport := t }) ∧
      Sent c.transport (Request.encodeAll c.revision packets) t := by
  obtain ⟨t, sends, same, sent⟩ := send_obliging obliging packets
  rw [unread, ← same] at here
  obtain ⟨input, received⟩ := phase.receive_short (ε := Empty) knows midway taken cut here
  refine ⟨{ t with input }, ?_, sent.receive input⟩
  exact (exchange_of_sent sends).trans (receive_of_run received)

end Connection

end Columnar
