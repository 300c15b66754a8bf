import Columnar.Wire.Decoder
import Mathlib.Tactic.Lemma

/-!
# Errors of decoders

`d.Fails P` says that all errors of the decoder `d` are of the sort `P`, whatever it reads. A
decoder that is made of others has no errors but theirs (`Fails.bind`, `Fails.iterate`,
`Fails.gather_bind`) and those it reports itself (`Fails.fail`).
-/

namespace Columnar.Wire.Decoder

open ByteStream

variable {ρ : Type} [Reader ρ] {ε ε' α β ζ : Type} {P : ε → Prop}

/-- Whatever the decoder reads, an error of it is of this sort. -/
def Fails (d : Decoder ρ ε α) (P : ε → Prop) : Prop := ∀ r e r', d.run r = (.error e, r') → P e

namespace Fails

/-- A decoder that reads nothing does not fail. -/
lemma pure (a : α) : (Pure.pure a : Decoder ρ ε α).Fails P := by
  intro r e r' run
  cases run

/-- A decoder fails with its error. -/
lemma fail {e : ε} (h : P e) : (fail e : Decoder ρ ε α).Fails P := by
  intro r e' r' run
  cases run
  exact h

/-- Parts that fail in one sort only make a whole that does. -/
lemma bind {d : Decoder ρ ε α} {f : α → Decoder ρ ε β} (first : d.Fails P)
    (next : ∀ a, (f a).Fails P) : (d >>= f).Fails P := by
  intro r e r' run
  obtain ⟨result, r₁, ran⟩ : ∃ result r₁, d.run r = (result, r₁) := ⟨_, _, rfl⟩
  change (d.bind f).run r = _ at run
  simp only [Decoder.bind, ran] at run
  cases result with
  | ok a => exact next a r₁ e r' run
  | error e' =>
    cases run
    exact first r e r' ran

/-- A change of what is read changes no failure. -/
lemma map {d : Decoder ρ ε α} (h : d.Fails P) (f : α → β) : (f <$> d).Fails P :=
  h.bind fun a => .pure (f a)

/-- A change of the errors changes the sort of the failures. -/
lemma mapError {d : Decoder ρ ε' α} {f : ε' → ε} {Q : ε' → Prop} (h : d.Fails Q)
    (sorts : ∀ e, Q e → P (f e)) : (d.mapError f).Fails P := by
  intro r e r' run
  obtain ⟨result, r₁, ran⟩ : ∃ result r₁, d.run r = (result, r₁) := ⟨_, _, rfl⟩
  simp only [Decoder.mapError, ran] at run
  cases result with
  | ok a => cases run
  | error e' =>
    cases run
    exact sorts e' (h r e' r' ran)

/-- Where all errors are renamed, only their new names matter. -/
lemma renamed {f : ε' → ε} (sorts : ∀ e, P (f e)) (d : Decoder ρ ε' α) : (d.mapError f).Fails P :=
  mapError (Q := fun _ => True) (fun _ _ _ _ => trivial) fun e _ => sorts e

/-- A known result fails as it says. -/
lemma ofExcept {result : Except ε α} (h : ∀ e, result = .error e → P e) :
    (ofExcept result : Decoder ρ ε α).Fails P := by
  cases result with
  | ok a => exact .pure a
  | error e => exact .fail (h e rfl)

/-- A repetition fails as one of its steps does, from any of them on. -/
lemma iterateFrom {σ : Type} {step : σ → Decoder ρ ε σ} (h : ∀ s, (step s).Fails P) {n : Nat}
    {s : σ} {r r' : ρ} {e : ε} (run : iterateFrom step n s r = (.error e, r')) : P e := by
  induction n generalizing s r with
  | zero => cases run
  | succ n ih =>
    rw [Decoder.iterateFrom] at run
    obtain ⟨result, r₁, ran⟩ : ∃ result r₁, (step s).run r = (result, r₁) := ⟨_, _, rfl⟩
    rw [ran] at run
    cases result with
    | ok s' => exact ih run
    | error e' =>
      cases run
      exact h s r e r' ran

/-- A repetition fails as one of its steps does. -/
lemma iterate {σ : Type} {step : σ → Decoder ρ ε σ} (h : ∀ s, (step s).Fails P) (n : Nat) (s : σ) :
    (iterate step n s).Fails P :=
  fun _ _ _ run => iterateFrom h run

variable {d : Decoder ρ ε (α ⊕ β)} {c : d.Consumes}

/-- A loop ends with an error of its step, whatever it has gathered so far. -/
lemma gatherOnto (h : d.Fails P) {got : Array α} {r : ρ} {as : List α} {e : ε}
    (run : (gatherOnto d c got r).1 = (as, .error e)) : P e := by
  fun_induction Decoder.gatherOnto d c got r with
  | case1 got r a r' ran ih => exact ih run
  | case2 got r b r' ran => cases run
  | case3 got r e' r' ran =>
    cases run
    exact h r e r' ran

/-- What follows a loop fails in its own sorts, after a good end and after a bad one. -/
lemma gather_bind {P' : ε' → Prop} {k : List α × Except ε β → Decoder ρ ε' ζ} (h : d.Fails P)
    (good : ∀ as b, (k (as, .ok b)).Fails P') (bad : ∀ as e, P e → (k (as, .error e)).Fails P') :
    (gather d c >>= k).Fails P' := by
  intro r e r' run
  change (k (Decoder.gatherOnto d c #[] r).1).run (Decoder.gatherOnto d c #[] r).2 = _ at run
  obtain ⟨as, result, gathered⟩ : ∃ as result, (Decoder.gatherOnto d c #[] r).1 = (as, result) :=
    ⟨_, _, rfl⟩
  rw [gathered] at run
  cases result with
  | ok b => exact good as b _ e r' run
  | error e' => exact bad as e' (h.gatherOnto gathered) _ e r' run

end Fails

end Columnar.Wire.Decoder
