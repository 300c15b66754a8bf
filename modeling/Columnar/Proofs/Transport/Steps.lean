import Columnar.Proofs.Wire.Sequence
import Columnar.Transport

/-!
# Steps of a transport

A transport is used in steps: values are read, bytes are written, and what has been written is
flushed. Each kind of step has its own part of the transport. A read changes what is still to be read
and nothing else, a write changes what waits and nothing else, and only a flush changes the sink.
-/

namespace Columnar.Transport

open ByteStream Wire

/-- Something that is done with a transport. -/
inductive Step where
  /-- A value of this kind is read. -/
  | read (k : Kind)
  /-- Bytes are written, to be flushed later. -/
  | write (bs : Bytes)
  | flush
  deriving DecidableEq

namespace Step

/-- What the step reads, if it is a read. -/
def kind? : Step → Option Kind
  | .read k => some k
  | .write _ | .flush => none

/-- What the step writes. -/
def bytes : Step → Bytes
  | .write bs => bs
  | .read _ | .flush => []

end Step

/-- All that is written in these steps. -/
def written (steps : List Step) : Bytes := steps.flatMap Step.bytes

/-- What is written in some steps is written before what later steps write. -/
lemma written_append (steps steps' : List Step) :
    written (steps ++ steps') = written steps ++ written steps' :=
  List.flatMap_append

variable {ρ : Type}

/-- A flush leaves the input as it is. -/
lemma input_flush (t : Transport ρ) : t.flush.2.input = t.input := by
  rw [flush]
  split <;> rfl

variable [Reader ρ]

/-- Reads a value. -/
def read (k : Kind) (t : Transport ρ) : Except Error Value × Transport ρ := t.receive (decodeValue k)

/-- The transport after one step. -/
def step (t : Transport ρ) : Step → Transport ρ
  | .read k => (t.read k).2
  | .write bs => t.stage bs
  | .flush => t.flush.2

/-- The transport after steps, none of which hinders the next, also if it fails. -/
def after (t : Transport ρ) (steps : List Step) : Transport ρ := steps.foldl step t

/-- Steps are taken before later steps. -/
lemma after_append (t : Transport ρ) (steps steps' : List Step) :
    t.after (steps ++ steps') = (t.after steps).after steps' :=
  List.foldl_append

/-- Only a flush touches the sink. -/
lemma sink_step (t : Transport ρ) {s : Step} (other : s ≠ .flush) : (t.step s).sink = t.sink := by
  cases s with
  | read k => rfl
  | write bs => rfl
  | flush => exact absurd rfl other

/-- What waits after a step that is no flush. -/
lemma staged_step (t : Transport ρ) {s : Step} (other : s ≠ .flush) :
    (t.step s).staged = t.staged ++ s.bytes := by
  cases s with
  | read k => exact (List.append_nil _).symm
  | write bs => rfl
  | flush => exact absurd rfl other

end Columnar.Transport
