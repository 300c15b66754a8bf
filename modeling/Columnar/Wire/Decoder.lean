import Columnar.ByteStream.Reader
import Columnar.Wire.Error

/-!
# Decoders

A decoder reads a value from a reader or fails; either way it says where the reader then stands, and
never gives back what it has read. All reading goes through `Decoder.take`, which calls the reader
until it has the bytes it needs. `Decoder.many` repeats a decoder a given number of times,
`Decoder.iterate` does so with a state that each round hands to the next, and `Decoder.gather`
repeats one that reads at least one byte until a value of it ends the repetition; it ends on every
stream because each round leaves less to read (`Decoder.Consumes`).
-/

namespace Columnar.Wire

open ByteStream

/-- A way to read a value of type `α` from a reader, or to fail with an error of type `ε`. -/
structure Decoder (ρ : Type) [Reader ρ] (ε α : Type) where
  run : ρ → Except ε α × ρ
  shrinks : ∀ r, Reader.remaining (run r).2 ≤ Reader.remaining r

namespace Decoder

variable {ρ : Type} [Reader ρ] {ε ε' α β : Type}

/-- Reads nothing and succeeds. -/
protected def pure (a : α) : Decoder ρ ε α where
  run r := (.ok a, r)
  shrinks _ := Nat.le_refl _

/-- Reads with one decoder and goes on with the one that its value asks for. -/
protected def bind (d : Decoder ρ ε α) (f : α → Decoder ρ ε β) : Decoder ρ ε β where
  run r :=
    match d.run r with
    | (.ok a, r') => (f a).run r'
    | (.error e, r') => (.error e, r')
  shrinks r := by
    have first := d.shrinks r
    split
    · rename_i a r' h
      exact Nat.le_trans ((f a).shrinks r') (by simpa [h] using first)
    · rename_i e r' h
      simpa [h] using first

instance : Monad (Decoder ρ ε) where
  pure := Decoder.pure
  bind := Decoder.bind

/-- Reads nothing and fails. -/
def fail (e : ε) : Decoder ρ ε α where
  run r := (.error e, r)
  shrinks _ := Nat.le_refl _

/-- Succeeds or fails as already decided. -/
def ofExcept : Except ε α → Decoder ρ ε α
  | .ok a => .pure a
  | .error e => .fail e

/-- Reads with a decoder and hands on the way in which it ended. -/
def attempt (d : Decoder ρ ε α) : Decoder ρ ε' (Except ε α) where
  run r :=
    match d.run r with
    | (result, r') => (.ok result, r')
  shrinks := d.shrinks

/-- Reads with a decoder and renames its errors. -/
def mapError (f : ε → ε') (d : Decoder ρ ε α) : Decoder ρ ε' α where
  run r :=
    match d.run r with
    | (result, r') => (result.mapError f, r')
  shrinks := d.shrinks

/-- The decoder reads something whenever it succeeds. -/
def Consumes (d : Decoder ρ ε α) : Prop :=
  ∀ r a, (d.run r).1 = .ok a → Reader.remaining (d.run r).2 < Reader.remaining r

/-- What follows a decoder that reads something cannot take it back. -/
theorem Consumes.bind {d : Decoder ρ ε α} (h : d.Consumes) (f : α → Decoder ρ ε β) :
    (d >>= f).Consumes := by
  intro r b ok
  have first := h r
  change ((d.bind f).run r).1 = _ at ok
  change Reader.remaining ((d.bind f).run r).2 < _
  unfold Decoder.bind at *
  revert ok
  dsimp only
  split
  · rename_i a r' run
    intro _
    exact Nat.lt_of_le_of_lt ((f a).shrinks r') (by simpa [run] using first a (by simp [run]))
  · intro ok
    cases ok

/-- A decoder consumes bytes whatever is made of its value. -/
theorem Consumes.map {d : Decoder ρ ε α} (h : d.Consumes) (f : α → β) : (f <$> d).Consumes :=
  Consumes.bind h fun a => .pure (f a)

/-- A decoder consumes bytes however its errors are called. -/
theorem Consumes.mapError {d : Decoder ρ ε α} (h : d.Consumes) (f : ε → ε') :
    (d.mapError f).Consumes := by
  intro r a ok
  change (d.run r).1.mapError f = .ok a at ok
  change Reader.remaining (d.run r).2 < _
  cases run : (d.run r).1 with
  | ok a' => exact h r a' run
  | error e =>
    rw [run] at ok
    cases ok

/-- Calls the reader until `n` more bytes have come; `got` holds those already here, in reverse. -/
def takeOnto (got : Bytes) (n : Nat) (r : ρ) : Except Error Bytes × ρ :=
  if n = 0 then (.ok got.reverse, r)
  else
    match _call : Reader.read n r with
    | (.ok [], r') => (.error .truncated, r')
    | (.ok (b :: bs), r') => takeOnto ((b :: bs).reverse ++ got) (n - (b :: bs).length) r'
    | (.error e, r') =>
      if e.kind = .interrupted then takeOnto got n r' else (.error (.ofFailure e), r')
termination_by Reader.remaining r
decreasing_by
  all_goals
    have cost := Reader.cost_read n r
    simp only [_call, Paid, List.length_cons] at cost
    omega

/-- Taking bytes leaves no more of the stream than there was. -/
theorem shrinks_takeOnto (got : Bytes) (n : Nat) (r : ρ) :
    Reader.remaining (takeOnto got n r).2 ≤ Reader.remaining r := by
  fun_induction takeOnto got n r with
  | case1 => exact Nat.le_refl _
  | case2 got n r _ r' call =>
    have cost := Reader.cost_read n r
    simpa [call, Paid] using cost
  | case3 got n r _ b bs r' call ih =>
    have cost := Reader.cost_read n r
    simp only [call, Paid, List.length_cons] at cost
    omega
  | case4 got n r _ e r' call _ ih =>
    have cost := Reader.cost_read n r
    simp only [call, Paid] at cost
    omega
  | case5 got n r _ e r' call _ =>
    have cost := Reader.cost_read n r
    simp only [call, Paid] at cost
    exact Nat.le_of_lt cost

/-- Reads exactly `n` bytes. -/
def take (n : Nat) : Decoder ρ Error Bytes where
  run := takeOnto [] n
  shrinks := shrinks_takeOnto [] n

/-- Whoever gets a byte has read something. -/
theorem consumes_take {n : Nat} (pos : 0 < n) : (take n : Decoder ρ Error Bytes).Consumes := by
  suffices ∀ got n (r : ρ) a, 0 < n → (takeOnto got n r).1 = .ok a →
      Reader.remaining (takeOnto got n r).2 < Reader.remaining r from fun r a => this [] n r a pos
  intro got n r a
  fun_induction takeOnto got n r with
  | case1 => omega
  | case2 => simp
  | case3 got n r _ b bs r' call ih =>
    intro _ _
    have cost := Reader.cost_read n r
    simp only [call, Paid, List.length_cons] at cost
    have rest := shrinks_takeOnto ((b :: bs).reverse ++ got) (n - (b :: bs).length) r'
    omega
  | case4 got n r _ e r' call _ ih =>
    intro pos ok
    have cost := Reader.cost_read n r
    simp only [call, Paid] at cost
    have rest := ih pos ok
    omega
  | case5 => simp

/-- Reads one byte. -/
def byte : Decoder ρ Error UInt8 := do
  return (← take 1).headD 0

/-- A byte takes a byte. -/
theorem consumes_byte : (byte : Decoder ρ Error UInt8).Consumes :=
  (consumes_take Nat.one_pos).bind _

/-- Reads `n` more values onto those in `got`. -/
def manyOnto (d : Decoder ρ ε α) : (n : Nat) → (got : Array α) → ρ → Except (ε × Array α) (Array α) × ρ
  | 0, got, r => (.ok got, r)
  | n + 1, got, r =>
    match d.run r with
    | (.ok a, r') => manyOnto d n (got.push a) r'
    | (.error e, r') => (.error (e, got), r')

/-- Reading many values leaves no more of the stream than there was. -/
theorem shrinks_manyOnto (d : Decoder ρ ε α) (n : Nat) (got : Array α) (r : ρ) :
    Reader.remaining (manyOnto d n got r).2 ≤ Reader.remaining r := by
  induction n generalizing got r with
  | zero => exact Nat.le_refl _
  | succ n ih =>
    have first := d.shrinks r
    unfold manyOnto
    split
    · rename_i a r' run
      exact Nat.le_trans (ih _ _) (by simpa [run] using first)
    · rename_i e r' run
      simpa [run] using first

/-- Reads `n` values one after the other; an error comes with the values read before it. -/
def many (d : Decoder ρ ε α) (n : Nat) : Decoder ρ (ε × Array α) (Array α) where
  run := manyOnto d n #[]
  shrinks := shrinks_manyOnto d n #[]

/-- Goes on `n` times from a state to the next one. -/
def iterateFrom {σ : Type} (step : σ → Decoder ρ ε σ) : (n : Nat) → σ → ρ → Except ε σ × ρ
  | 0, s, r => (.ok s, r)
  | n + 1, s, r =>
    match (step s).run r with
    | (.ok s', r') => iterateFrom step n s' r'
    | (.error e, r') => (.error e, r')

/-- Repeating a step leaves no more of the stream than there was. -/
theorem shrinks_iterateFrom {σ : Type} (step : σ → Decoder ρ ε σ) (n : Nat) (s : σ) (r : ρ) :
    Reader.remaining (iterateFrom step n s r).2 ≤ Reader.remaining r := by
  induction n generalizing s r with
  | zero => exact Nat.le_refl _
  | succ n ih =>
    have first := (step s).shrinks r
    unfold iterateFrom
    split
    · rename_i s' r' run
      exact Nat.le_trans (ih _ _) (by simpa [run] using first)
    · rename_i e r' run
      simpa [run] using first

/-- Reads on from a state `n` times, each time as the state then asks for. -/
def iterate {σ : Type} (step : σ → Decoder ρ ε σ) (n : Nat) (s : σ) : Decoder ρ ε σ where
  run := iterateFrom step n s
  shrinks := shrinks_iterateFrom step n s

/-- Reads values onto those in `got` until one ends the repetition. -/
def gatherOnto (d : Decoder ρ ε (α ⊕ β)) (h : d.Consumes) (got : Array α) (r : ρ) :
    (List α × Except ε β) × ρ :=
  match _run : d.run r with
  | (.ok (.inl a), r') => gatherOnto d h (got.push a) r'
  | (.ok (.inr b), r') => ((got.toList, .ok b), r')
  | (.error e, r') => ((got.toList, .error e), r')
termination_by Reader.remaining r
decreasing_by simpa [_run] using h r (.inl a) (by simp [_run])

/-- Gathering values leaves no more of the stream than there was. -/
theorem shrinks_gatherOnto (d : Decoder ρ ε (α ⊕ β)) (h : d.Consumes) (got : Array α) (r : ρ) :
    Reader.remaining (gatherOnto d h got r).2 ≤ Reader.remaining r := by
  fun_induction gatherOnto d h got r with
  | case1 got r a r' run ih =>
    exact Nat.le_trans ih (by simpa [run] using d.shrinks r)
  | case2 got r b r' run => simpa [run] using d.shrinks r
  | case3 got r e r' run => simpa [run] using d.shrinks r

/-- Reads values until one ends the repetition: the values before, and how the repetition ended. -/
def gather (d : Decoder ρ ε (α ⊕ β)) (h : d.Consumes) : Decoder ρ ε' (List α × Except ε β) where
  run r :=
    match gatherOnto d h #[] r with
    | (result, r') => (.ok result, r')
  shrinks := shrinks_gatherOnto d h #[]

end Decoder

end Columnar.Wire
