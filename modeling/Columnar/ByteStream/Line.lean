import Columnar.ByteStream.Reader

/-!
# Lines

A line is read up to and with its line feed, or to the end of the stream. If a call fails before
that, what has been read of the line is lost.
-/

namespace Columnar.ByteStream

variable {ρ : Type} [Reader ρ]

/-- Reads the rest of a line of which `got`, in reverse, has been read. -/
def readLineOnto (got : Bytes) (r : ρ) : Except Failure Bytes × ρ :=
  match _call : Reader.read 1 r with
  | (.ok [], r') => (.ok got.reverse, r')
  | (.ok (b :: _), r') => if b = 0x0A then (.ok (b :: got).reverse, r') else readLineOnto (b :: got) r'
  | (.error e, r') => if e.kind = .interrupted then readLineOnto got r' else (.error e, r')
termination_by Reader.remaining r
decreasing_by
  all_goals
    have cost := Reader.cost_read 1 r
    simp only [_call, Paid, List.length_cons] at cost
    omega

/-- Reads a line; it is empty only at the end of the stream. -/
def readLine (r : ρ) : Except Failure Bytes × ρ := readLineOnto [] r

/-- Reading a line leaves no more than there was. -/
theorem remaining_readLineOnto (got : Bytes) (r : ρ) :
    Reader.remaining (readLineOnto got r).2 ≤ Reader.remaining r := by
  fun_induction readLineOnto got r with
  | case1 got r r' call =>
    have cost := Reader.cost_read 1 r
    simpa [call, Paid] using cost
  | case2 got r _ r' call =>
    have cost := Reader.cost_read 1 r
    simp only [call, Paid, List.length_cons] at cost
    dsimp only
    omega
  | case3 got r b bs r' call _ ih =>
    have cost := Reader.cost_read 1 r
    simp only [call, Paid, List.length_cons] at cost
    omega
  | case4 got r e r' call _ ih =>
    have cost := Reader.cost_read 1 r
    simp only [call, Paid] at cost
    omega
  | case5 got r e r' call _ =>
    have cost := Reader.cost_read 1 r
    simp only [call, Paid] at cost
    exact Nat.le_of_lt cost

/-- Whoever reads a line, or fails to, has used something up unless the stream had ended. -/
theorem remaining_readLine (r : ρ) (h : (readLine r).1 ≠ .ok []) :
    Reader.remaining (readLine r).2 < Reader.remaining r := by
  unfold readLine at *
  rw [readLineOnto] at *
  have cost := Reader.cost_read 1 r
  split at h <;> rename_i call <;> simp only [call, Paid, List.length_cons] at cost ⊢
  · simp at h
  · split
    · dsimp only; omega
    · have rest := remaining_readLineOnto (ρ := ρ)
      exact Nat.lt_of_le_of_lt (rest _ _) (by omega)
  · split
    · exact Nat.lt_of_le_of_lt (remaining_readLineOnto _ _) cost
    · exact cost

end Columnar.ByteStream
