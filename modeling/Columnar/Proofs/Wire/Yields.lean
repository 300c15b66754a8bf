import Columnar.Proofs.Wire.Fails
import Columnar.Proofs.Wire.Reads

/-!
# Values of decoders

`d.Yields P` says that all values of the decoder `d` are of the sort `P`, whatever it reads. It is
the companion of `Fails` for the values: what a decoder goes on with is of the sort that the decoder
before it yields.
-/

namespace Columnar.Wire.Decoder

open ByteStream

variable {ρ : Type} [Reader ρ] {ε ε' α β : Type} {P : α → Prop} {Q : β → Prop}

/-- Whatever the decoder reads, a value of it is of this sort. -/
def Yields (d : Decoder ρ ε α) (P : α → Prop) : Prop := ∀ r a r', d.run r = (.ok a, r') → P a

namespace Yields

/-- A decoder yields something. -/
lemma any (d : Decoder ρ ε α) : d.Yields fun _ => True := by
  intro r a r' _
  trivial

/-- A decoder yields what it returns. -/
lemma pure {a : α} (h : P a) : (Pure.pure a : Decoder ρ ε α).Yields P := by
  intro r a' r' run
  cases run
  exact h

/-- A decoder that fails yields nothing. -/
lemma fail (e : ε) : (fail e : Decoder ρ ε α).Yields P := by
  intro r a r' run
  cases run

/-- What the first part yields may be used by the second. -/
lemma bind {d : Decoder ρ ε α} {f : α → Decoder ρ ε β} (first : d.Yields P)
    (next : ∀ a, P a → (f a).Yields Q) : (d >>= f).Yields Q := by
  intro r b r' run
  rcases run_bind_inv run with ⟨a, r₁, ran, goes⟩ | ⟨e, _, eq⟩
  · exact next a (first r a r₁ ran) r₁ b r' goes
  · cases eq

/-- A change of the value changes what is yielded. -/
lemma map {d : Decoder ρ ε α} {f : α → β} (h : d.Yields P) (sorts : ∀ a, P a → Q (f a)) :
    (f <$> d).Yields Q :=
  h.bind fun a sort => .pure (sorts a sort)

/-- A change of the errors changes nothing of what is yielded. -/
lemma mapError {d : Decoder ρ ε α} (h : d.Yields P) (f : ε → ε') : (d.mapError f).Yields P := by
  intro r a r' run
  obtain ⟨result, ran, eq⟩ := run_mapError_inv run
  cases result with
  | ok a' =>
    cases eq
    exact h r a r' ran
  | error e => cases eq

/-- What comes after a value has to deal with values of its sort only. -/
lemma fails_bind {d : Decoder ρ ε α} {f : α → Decoder ρ ε β} {S : ε → Prop} (first : d.Yields P)
    (here : d.Fails S) (next : ∀ a, P a → (f a).Fails S) : (d >>= f).Fails S := by
  intro r e r' run
  rcases run_bind_inv run with ⟨a, r₁, ran, goes⟩ | ⟨e', ran, eq⟩
  · exact next a (first r a r₁ ran) r₁ e r' goes
  · cases eq
    exact here r e r' ran

/-- What every round keeps holds at the end. -/
lemma iterate {step : α → Decoder ρ ε α} (h : ∀ a, P a → (step a).Yields P) (n : Nat) {a : α}
    (start : P a) : (iterate step n a).Yields P := by
  induction n generalizing a with
  | zero => exact .pure start
  | succ n ih => exact bind (h a start) fun a' kept => ih kept

/-- A round has to deal only with what every round keeps. -/
lemma fails_iterate {step : α → Decoder ρ ε α} {S : ε → Prop} (h : ∀ a, P a → (step a).Yields P)
    (fails : ∀ a, P a → (step a).Fails S) (n : Nat) {a : α} (start : P a) :
    (Decoder.iterate step n a).Fails S := by
  induction n generalizing a with
  | zero => exact .pure a
  | succ n ih => exact fails_bind (h a start) (fails a start) fun a' kept => ih kept

/-- A loop gathers and ends with what its step yields. -/
lemma gatherOnto {d : Decoder ρ ε (α ⊕ β)} {c : d.Consumes} (h : d.Yields (Sum.elim P Q))
    {got : Array α} (sorts : ∀ a ∈ got.toList, P a) {r r' : ρ} {as : List α} {last : Except ε β}
    (run : gatherOnto d c got r = ((as, last), r')) : (∀ a ∈ as, P a) ∧ ∀ b, last = .ok b → Q b := by
  fun_induction Decoder.gatherOnto d c got r with
  | case1 got r a r₁ ran ih =>
    refine ih ?_ run
    rw [Array.toList_push, List.forall_mem_append, List.forall_mem_singleton]
    exact ⟨sorts, h r (.inl a) r₁ ran⟩
  | case2 got r b r₁ ran =>
    cases run
    refine ⟨sorts, ?_⟩
    rintro b' ⟨⟩
    exact h r _ _ ran
  | case3 got r e r₁ ran =>
    cases run
    refine ⟨sorts, fun b eq => ?_⟩
    cases eq

/-- What is gathered is of the one sort, and what ends the repetition is of the other. -/
lemma gather {d : Decoder ρ ε (α ⊕ β)} {c : d.Consumes} (h : d.Yields (Sum.elim P Q)) :
    (gather d c : Decoder ρ ε' (List α × Except ε β)).Yields fun found =>
      (∀ a ∈ found.1, P a) ∧ ∀ b, found.2 = .ok b → Q b := by
  intro r found r' run
  obtain ⟨gathered, rfl⟩ := Prod.mk.inj run
  exact gatherOnto h (List.forall_mem_nil _) (Prod.ext (Except.ok.inj gathered) rfl)

end Yields

end Columnar.Wire.Decoder
