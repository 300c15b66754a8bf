import Columnar.Text.Utf8
import Columnar.Wire.Scalar
import Mathlib.Tactic.Lemma
import Mathlib.Tactic.SplitIfs

/-!
# Ends of lines

How many lines end in a text, and in bytes. No byte of any other character is that of an end of a
line, so the bytes of a text end as many lines as the text does (`lineCount_encode`). The text of a
number ends none (`breaks_text`).
-/

namespace Columnar

open ByteStream

/-- How many lines end in the text. -/
def breaks (text : String) : Nat := text.toList.count '\n'

/-- How many lines end in the bytes. -/
def lineCount (bs : Bytes) : Nat := bs.count 0x0A

/-- Two texts have the breaks of both. -/
lemma breaks_append (s t : String) : breaks (s ++ t) = breaks s + breaks t := by
  rw [breaks, String.toList_append, List.count_append]
  rfl

/-- Only the number of the line feed becomes its byte. -/
lemma newline_eq_ofNat_iff {n : Nat} (small : n < 256) : 0x0A = UInt8.ofNat n ↔ n = 10 := by
  rw [← UInt8.toNat_inj, UInt8.toNat_ofNat', Nat.mod_eq_of_lt small]
  exact eq_comm

/-- No byte of a longer character is the line feed. -/
lemma newline_ne_ofNat {n : Nat} (large : 128 ≤ n) (small : n < 256) : ¬0x0A = UInt8.ofNat n := by
  rw [newline_eq_ofNat_iff small]
  omega

/-- No byte of another character is that of an end of a line. -/
lemma eq_newline_of_mem {c : Char} (mem : 0x0A ∈ String.utf8EncodeChar c) : c = '\n' := by
  have number : c.val.toNat = 10 → c = '\n' := fun same => Char.ext (UInt32.toNat_inj.1 same)
  apply number
  unfold String.utf8EncodeChar at mem
  generalize c.val.toNat = v at mem
  dsimp only at mem
  split at mem
  · exact (newline_eq_ofNat_iff (by omega)).1 (List.mem_singleton.1 mem)
  · -- All bytes of a longer character have the highest bit set.
    split_ifs at mem <;>
      simp (disch := omega) only [List.mem_cons, newline_ne_ofNat, List.not_mem_nil, or_self] at mem

/-- Among the bytes of a character is a line feed just when it is one. -/
lemma lineCount_encodeChar (c : Char) :
    lineCount (String.utf8EncodeChar c) = if c = '\n' then 1 else 0 := by
  split_ifs with newline
  · rw [newline]
    rfl
  · exact List.count_eq_zero_of_not_mem (mt eq_newline_of_mem newline)

/-- The lines of an encoded text are counted by its breaks. -/
lemma lineCount_encode (text : String) : lineCount (Utf8.encode text) = breaks text := by
  rw [Utf8.encode, breaks]
  induction text.toList with
  | nil => rfl
  | cons c cs ih =>
    have first := lineCount_encodeChar c
    rw [lineCount] at first ih
    rw [List.flatMap_cons, lineCount, List.count_append, first, ih, List.count_cons]
    simp [Nat.add_comm]

namespace Decimal

/-- No digits break a line. -/
lemma newline_not_mem_digitChars (n : Nat) : '\n' ∉ digitChars n := by
  intro mem
  rw [digitChars, Nat.toList_repr] at mem
  exact absurd (Nat.isDigit_of_mem_toDigits (by decide) (by decide) mem) (by decide)

/-- No positional number breaks a line. -/
lemma newline_not_mem_positional (d : Digits) : '\n' ∉ d.positional.toList := by
  have zeros (n : Nat) : '\n' ∉ List.replicate n '0' := fun mem =>
    absurd (List.eq_of_mem_replicate mem) (by decide)
  have digits := newline_not_mem_digitChars d.digits
  have padded (n : Nat) : '\n' ∉ List.replicate n '0' ++ digitChars d.digits := fun mem =>
    (List.mem_append.1 mem).elim (zeros n) digits
  rw [Digits.positional]
  split
  · rw [String.toList_ofList, List.mem_append]
    exact not_or.2 ⟨digits, zeros _⟩
  · dsimp only
    rw [String.toList_ofList, List.mem_append, List.mem_cons]
    rintro (mem | point | mem)
    · exact padded _ (List.mem_of_mem_take mem)
    · exact absurd point (by decide)
    · exact padded _ (List.mem_of_mem_drop mem)

end Decimal

namespace Wire

/-- A minus sign breaks no line. -/
lemma newline_not_mem_minus {text : String} (none : '\n' ∉ text.toList) :
    '\n' ∉ ("-" ++ text).toList := by
  rw [String.toList_append, List.mem_append]
  exact not_or.2 ⟨by decide, none⟩

/-- No sign breaks a line. -/
lemma newline_not_mem_signed {negative : Bool} {text : String} (none : '\n' ∉ text.toList) :
    '\n' ∉ (signed negative text).toList := by
  cases negative with
  | false => exact none
  | true => exact newline_not_mem_minus none

/-- No floating-point number breaks a line. -/
lemma newline_not_mem_floatText (v : FloatValue) : '\n' ∉ v.text.toList := by
  cases v with
  | nan => decide
  | infinite negative => exact newline_not_mem_signed (by decide)
  | zero negative => exact newline_not_mem_signed (by decide)
  | finite negative magnitude =>
    exact newline_not_mem_signed (Decimal.newline_not_mem_positional _)

/-- No integer breaks a line. -/
lemma newline_not_mem_intText (n : Int) : '\n' ∉ (toString n).toList := by
  cases n with
  | ofNat n => exact Decimal.newline_not_mem_digitChars n
  | negSucc n => exact newline_not_mem_minus (Decimal.newline_not_mem_digitChars (n + 1))

/-- No line ends in the text of a number. -/
lemma Scalar.breaks_text (s : Scalar) (v : s.Value) : breaks (s.text v) = 0 := by
  refine List.count_eq_zero_of_not_mem ?_
  cases s with
  | float32 => exact newline_not_mem_floatText _
  | float64 => exact newline_not_mem_floatText _
  | uint8 => exact Decimal.newline_not_mem_digitChars _
  | uint16 => exact Decimal.newline_not_mem_digitChars _
  | uint32 => exact Decimal.newline_not_mem_digitChars _
  | uint64 => exact Decimal.newline_not_mem_digitChars _
  | int8 => exact newline_not_mem_intText _
  | int16 => exact newline_not_mem_intText _
  | int32 => exact newline_not_mem_intText _
  | int64 => exact newline_not_mem_intText _

end Wire

end Columnar
