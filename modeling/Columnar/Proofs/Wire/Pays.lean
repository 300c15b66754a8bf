import Columnar.Proofs.Wire.Rounds
import Columnar.Proofs.Wire.Spells
import Columnar.Proofs.Wire.Yields

/-!
# Paying for what is held

`d.Pays held worth lost` says that the decoder `d` takes a byte for every unit by which what it ends
with is worth more than what was held before, whether it has found something or holds something
that is lost with an error. What one decoder hands on is what the next one starts with
(`Pays.bind`), and so a loop pays if its step does (`Pays.iterate`).
-/

namespace Columnar.Wire.Decoder

open ByteStream

variable {ρ σ : Type} [Reader ρ] [Observable ρ] [Reader σ] [Observable σ] {ε ε' α β : Type}
  {held : Nat} {worth : α → Nat} {lost : ε → Nat}

/-- What is held in the end is not worth more than what was held and the bytes that were taken. -/
structure Pays (d : Decoder ρ ε α) (held : Nat) (worth : α → Nat) (lost : ε → Nat) : Prop where
  ok : ∀ {r s a}, d.run r = (.ok a, s) → worth a + (unread s).bytes ≤ held + (unread r).bytes
  error : ∀ {r s e}, d.run r = (.error e, s) → lost e + (unread s).bytes ≤ held + (unread r).bytes

namespace Pays

/-- To hold more in the beginning does no harm. -/
lemma mono {held' : Nat} {d : Decoder ρ ε α} (h : d.Pays held worth lost) (le : held ≤ held') :
    d.Pays held' worth lost where
  ok run := Nat.le_trans (h.ok run) (Nat.add_le_add_right le _)
  error run := Nat.le_trans (h.error run) (Nat.add_le_add_right le _)

/-- A decoder that reads nothing may be worth what is held. -/
lemma pure {a : α} (le : worth a ≤ held) : (Pure.pure a : Decoder ρ ε α).Pays held worth lost where
  ok run := by
    cases run
    exact Nat.add_le_add_right le _
  error run := nomatch run

/-- A decoder that fails may lose what is held. -/
lemma fail {e : ε} (le : lost e ≤ held) : (fail e : Decoder ρ ε α).Pays held worth lost where
  ok run := nomatch run
  error run := by
    cases run
    exact Nat.add_le_add_right le _

/-- What comes after a value has to deal with values of its sort only. -/
lemma bind_of_yields {d : Decoder ρ ε α} {f : α → Decoder ρ ε β} {P : α → Prop} {worth' : β → Nat}
    (first : d.Pays held worth lost) (sorts : d.Yields P)
    (next : ∀ a, P a → (f a).Pays (worth a) worth' lost) : (d >>= f).Pays held worth' lost where
  ok run := by
    rcases run_bind_inv run with ⟨a, r₁, ran, goes⟩ | ⟨e, _, eq⟩
    · exact Nat.le_trans ((next a (sorts _ a r₁ ran)).ok goes) (first.ok ran)
    · cases eq
  error run := by
    rcases run_bind_inv run with ⟨a, r₁, ran, goes⟩ | ⟨e, ran, eq⟩
    · exact Nat.le_trans ((next a (sorts _ a r₁ ran)).error goes) (first.ok ran)
    · cases eq
      exact first.error ran

/-- What the first part is worth is held by the second. -/
lemma bind {d : Decoder ρ ε α} {f : α → Decoder ρ ε β} {worth' : β → Nat}
    (first : d.Pays held worth lost) (next : ∀ a, (f a).Pays (worth a) worth' lost) :
    (d >>= f).Pays held worth' lost :=
  first.bind_of_yields (.any d) fun a _ => next a

/-- Errors that lose no more are paid for, too. -/
lemma mapError {d : Decoder ρ ε α} {f : ε → ε'} {lost' : ε' → Nat} (h : d.Pays held worth lost)
    (le : ∀ e, lost' (f e) ≤ lost e) : (d.mapError f).Pays held worth lost' where
  ok run := by
    obtain ⟨result, ran, eq⟩ := run_mapError_inv run
    cases result with
    | ok a =>
      cases eq
      exact h.ok ran
    | error e => cases eq
  error run := by
    obtain ⟨result, ran, eq⟩ := run_mapError_inv run
    cases result with
    | ok a => cases eq
    | error e =>
      cases eq
      exact Nat.le_trans (Nat.add_le_add_right (le e) _) (h.error ran)

/-- A loop pays if every step does that starts in a state which the steps keep to. -/
lemma iterate {step : α → Decoder ρ ε α} {P : α → Prop} (kept : ∀ a, P a → (step a).Yields P)
    (each : ∀ a, P a → (step a).Pays (worth a) worth lost) (n : Nat) {a : α} (start : P a) :
    (iterate step n a).Pays (worth a) worth lost := by
  induction n generalizing a with
  | zero => exact .pure (Nat.le_refl _)
  | succ n ih =>
    have same : Decoder.iterate step (n + 1) a = step a >>= Decoder.iterate step n := rfl
    rw [same]
    exact (each a start).bind_of_yields (kept a start) fun a' sort => ih sort

section

variable [Truncation ε] {d : Decoder ρ ε α} {d' : Decoder σ ε α}

/-- No decoder gives bytes back. -/
lemma of_agrees (same : d.Agrees d') : d.Pays held (fun _ => held) fun _ => held where
  ok run := Nat.add_le_add_left (Feed.bytes_le (same.suffix run)) held
  error run := Nat.add_le_add_left (Feed.bytes_le (same.suffix run)) held

/-- What a decoder finds is worth no more than the bytes that spell it. -/
lemma of_spells {G : Bytes → α → Prop} (spells : d.Spells G) (same : d.Agrees d')
    (least : ∀ {bs a}, G bs a → worth a ≤ held + bs.length) :
    d.Pays held worth fun _ => held where
  ok run := by
    obtain ⟨bs, here, spelt⟩ := spells.sound run
    have le := least spelt
    rw [here, Feed.bytes_append, Feed.bytes_ofBytes]
    omega
  error run := (of_agrees same).error run

end

end Pays

end Columnar.Wire.Decoder
