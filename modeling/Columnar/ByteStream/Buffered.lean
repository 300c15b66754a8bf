import Columnar.ByteStream.Reader

/-!
# Buffered readers

A buffered reader asks the reader below it for many bytes at a time and hands them out as they are
asked for. A call that asks for at least a whole buffer goes straight to the reader below when
nothing is held.
-/

namespace Columnar.ByteStream

/-- A reader together with bytes that were read from it ahead of time. -/
structure Buffered (ρ : Type) where
  inner : ρ
  held : Bytes := []

namespace Buffered

/-- How many bytes a buffer is filled with in one call. -/
def capacity : Nat := 8192

variable {ρ : Type} [Reader ρ]

/-- One read call. -/
def read (n : Nat) (r : Buffered ρ) : Except Failure Bytes × Buffered ρ :=
  if r.held ≠ [] then
    (.ok (r.held.take n), { r with held := r.held.drop n })
  else if capacity ≤ n then
    match Reader.read n r.inner with
    | (result, inner) => (result, { inner })
  else
    match Reader.read capacity r.inner with
    | (.ok bs, inner) => (.ok (bs.take n), { inner, held := bs.drop n })
    | (.error e, inner) => (.error e, { inner })

/-- How much can still be delivered: what is held and what the reader below still has. -/
def remaining (r : Buffered ρ) : Nat := r.held.length + Reader.remaining r.inner

/-- What is handed out of the buffer has been paid for, too. -/
theorem cost_read (n : Nat) (r : Buffered ρ) :
    Paid (remaining r) (read n r).1 (remaining (read n r).2) := by
  unfold read
  split
  · simp only [Paid, remaining, List.length_take, List.length_drop]
    omega
  · rename_i none_held
    have none_held : r.held.length = 0 := by simpa using none_held
    split
    · have cost := Reader.cost_read n r.inner
      cases call : (Reader.read n r.inner).1 <;> rw [call] at cost <;>
        simp only [Paid, remaining, List.length_nil] at cost ⊢ <;> omega
    · have cost := Reader.cost_read capacity r.inner
      split <;> rename_i call <;> rw [call] at cost <;>
        simp only [Paid, remaining, List.length_take, List.length_drop, List.length_nil] at cost ⊢ <;>
        omega

instance : Reader (Buffered ρ) where
  read := read
  remaining := remaining
  cost_read := cost_read

end Buffered

end Columnar.ByteStream
