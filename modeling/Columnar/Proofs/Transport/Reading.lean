import Columnar.Proofs.Packet.Agrees
import Columnar.Proofs.Transport.Steps

/-!
# Reading through a transport

A transport reads ahead into a buffer and is written to in between, and neither can be seen in what
is read: every value and every error is the one that the bare stream would have given, and as much of
the stream is used for it (`readings_of_unread`). Main statement: `readings_undisturbed`.
-/

namespace Columnar

open ByteStream Wire

/-- What can be seen of a read: what it found, and what it left of the stream. -/
structure Reading where
  found : Except Error Value
  left : Feed

variable {ρ σ : Type} [Reader ρ] [Observable ρ] [Reader σ] [Observable σ]

/-- What can be seen of reads of these kinds that are done on a reader and nothing else. -/
def Reading.alone : List Kind → ρ → List Reading
  | [], _ => []
  | k :: ks, r =>
    match (decodeValue k).run r with
    | (found, r') => ⟨found, unread r'⟩ :: alone ks r'

/-- What can be seen of the reads among the steps. -/
def Transport.readings : List Step → Transport ρ → List Reading
  | [], _ => []
  | .read k :: steps, t =>
    match t.read k with
    | (found, t') => ⟨found, unread t'.input⟩ :: readings steps t'
  | s :: steps, t => readings steps (t.step s)

/-- Of decoders that agree the one finds what the other has found where the same is unread. -/
lemma Wire.Decoder.Agrees.run {ε α : Type} [Truncation ε] {d : Decoder ρ ε α} {d' : Decoder σ ε α}
    (agrees : d.Agrees d') {r s : ρ} {r' : σ} (same : unread r' = unread r)
    {found : Except ε α} (run : d.run r = (found, s)) :
    ∃ s', d'.run r' = (found, s') ∧ unread s' = unread s := by
  cases found with
  | ok a =>
    obtain ⟨bs, here, reads⟩ := agrees.ok run
    exact reads.whole (same.trans here)
  | error e =>
    obtain ⟨used, here, refuses⟩ := agrees.error run
    exact refuses (same.trans here) (.inl rfl)

/-- A value is read alike from any reader. -/
lemma Wire.agrees_decodeValue (k : Kind) :
    (decodeValue k : Decoder ρ Error Value).Agrees (decodeValue k : Decoder σ Error Value) :=
  k.agrees_decode.map _

namespace Transport

/-- One read finds and leaves the same through the buffer and without it. -/
lemma read_of_unread {t : Transport ρ} {r r' : σ} (same : unread t.input = unread r) {k : Kind}
    {found : Except Error Value} (run : (decodeValue k).run r = (found, r')) :
    ∃ t', t.read k = (found, t') ∧ unread t'.input = unread r' := by
  obtain ⟨input, goes, left⟩ := (agrees_decodeValue k).run same run
  refine ⟨{ t with input }, ?_, left⟩
  rw [read, receive, goes]

/-- The steps between the reads leave what is unread as it is. -/
lemma readings_of_unread {t : Transport ρ} {r : σ} (same : unread t.input = unread r)
    (steps : List Step) : t.readings steps = Reading.alone (steps.filterMap Step.kind?) r := by
  induction steps generalizing t r with
  | nil => rfl
  | cons s steps ih =>
    cases s with
    | write bs => exact ih same
    | flush => exact ih ((congrArg unread t.input_flush).trans same)
    | read k =>
      obtain ⟨found, r', run⟩ : ∃ found r', (decodeValue k).run r = (found, r') := ⟨_, _, rfl⟩
      obtain ⟨t', goes, left⟩ := read_of_unread same run
      have kinds : (Step.read k :: steps).filterMap Step.kind? =
          k :: steps.filterMap Step.kind? := rfl
      rw [kinds, readings, Reading.alone, goes, run]
      exact congrArg₂ (Reading.mk found · :: ·) left (ih left)

/-- Whatever is written and flushed in between, and however the stream takes it, the reads of a fresh
transport find what they would find on the bare stream, and use as much of it; and a step that is no
flush hands nothing to the stream. -/
theorem readings_undisturbed (stream : ρ) (sink : Sink) (steps : List Step) :
    (ofStream stream sink).readings steps = Reading.alone (steps.filterMap Step.kind?) stream ∧
      ∀ s, s = .flush ∨
        ((ofStream stream sink).after (steps ++ [s])).sink =
          ((ofStream stream sink).after steps).sink := by
  have nothing_held : unread (ofStream stream sink).input = unread stream := rfl
  refine ⟨readings_of_unread nothing_held steps, fun s => ?_⟩
  rcases eq_or_ne s .flush with flushes | other
  · exact .inl flushes
  · rw [after_append]
    exact .inr (sink_step _ other)

end Transport

end Columnar
