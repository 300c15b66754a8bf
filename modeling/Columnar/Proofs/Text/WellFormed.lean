import Columnar.Proofs.Text.Utf8
import Mathlib.Tactic.SplitIfs

/-!
# Encoding what was decoded

Where decoding goes through, every sequence is the one and only form of its character
(`encodeChar_of_followed`), so the bytes are those that encode the text (`encode_of_decode`): there
are no other bytes for a text.
-/

namespace Columnar.Utf8

/-- The bytes of a character, from its number. -/
lemma utf8EncodeChar_ofNat {n : Nat} (valid : n.isValidChar) :
    String.utf8EncodeChar (Char.ofNat n) =
      if n ≤ 0x7F then [UInt8.ofNat n]
      else if n ≤ 0x7FF then [UInt8.ofNat (n / 64 % 32 + 0xC0), UInt8.ofNat (n % 64 + 0x80)]
      else if n ≤ 0xFFFF then
        [UInt8.ofNat (n / 4096 % 16 + 0xE0), UInt8.ofNat (n / 64 % 64 + 0x80),
          UInt8.ofNat (n % 64 + 0x80)]
      else
        [UInt8.ofNat (n / 262144 % 8 + 0xF0), UInt8.ofNat (n / 4096 % 64 + 0x80),
          UInt8.ofNat (n / 64 % 64 + 0x80), UInt8.ofNat (n % 64 + 0x80)] := by
  have number : (Char.ofNat n).val.toNat = n := by
    rw [Char.ofNat, dif_pos valid]
    rfl
  rw [String.utf8EncodeChar]
  simp only [number]

/-- A byte is found again from its number. -/
lemma ofNat_eq {n : Nat} {b : UInt8} (h : n = b.toNat) : UInt8.ofNat n = b := by
  rw [h]
  exact UInt8.ofNat_toNat

variable {b c d e : UInt8}

/-- A single byte encodes its number. -/
lemma encodeChar_one (h : b.toNat < 0x80) : String.utf8EncodeChar (Char.ofNat b.toNat) = [b] := by
  rw [utf8EncodeChar_ofNat (.inl (by omega)), if_pos (by omega), ofNat_eq rfl]

/-- Two bytes in their ranges encode the number that they make. -/
lemma encodeChar_two (low : 0xC2 ≤ b.toNat) (high : b.toNat < 0xE0)
    (second : 0x80 ≤ c.toNat ∧ c.toNat ≤ 0xBF) :
    String.utf8EncodeChar (Char.ofNat ((b.toNat - 0xC0) * 64 + c.toNat % 64)) = [b, c] := by
  generalize number : (b.toNat - 0xC0) * 64 + c.toNat % 64 = n
  rw [utf8EncodeChar_ofNat (.inl (by omega)), if_neg (by omega), if_pos (by omega),
    ofNat_eq (b := b) (by omega), ofNat_eq (b := c) (by omega)]

/-- Three bytes in their ranges encode the number that they make. -/
lemma encodeChar_three (low : 0xE0 ≤ b.toNat) (high : b.toNat < 0xF0)
    (second : 0x80 ≤ c.toNat ∧ c.toNat ≤ 0xBF) (third : 0x80 ≤ d.toNat ∧ d.toNat ≤ 0xBF)
    (long : b.toNat = 0xE0 → 0xA0 ≤ c.toNat) (scalar : b.toNat = 0xED → c.toNat ≤ 0x9F) :
    String.utf8EncodeChar
      (Char.ofNat (((b.toNat - 0xE0) * 64 + c.toNat % 64) * 64 + d.toNat % 64)) = [b, c, d] := by
  generalize number : ((b.toNat - 0xE0) * 64 + c.toNat % 64) * 64 + d.toNat % 64 = n
  have valid : n.isValidChar := by
    rw [Nat.isValidChar]
    omega
  rw [utf8EncodeChar_ofNat valid, if_neg (by omega), if_neg (by omega), if_pos (by omega),
    ofNat_eq (b := b) (by omega), ofNat_eq (b := c) (by omega), ofNat_eq (b := d) (by omega)]

/-- Four bytes in their ranges encode the number that they make. -/
lemma encodeChar_four (low : 0xF0 ≤ b.toNat) (high : b.toNat ≤ 0xF4)
    (second : 0x80 ≤ c.toNat ∧ c.toNat ≤ 0xBF) (third : 0x80 ≤ d.toNat ∧ d.toNat ≤ 0xBF)
    (fourth : 0x80 ≤ e.toNat ∧ e.toNat ≤ 0xBF) (long : b.toNat = 0xF0 → 0x90 ≤ c.toNat)
    (scalar : b.toNat = 0xF4 → c.toNat ≤ 0x8F) :
    String.utf8EncodeChar (Char.ofNat
        ((((b.toNat - 0xF0) * 64 + c.toNat % 64) * 64 + d.toNat % 64) * 64 + e.toNat % 64)) =
      [b, c, d, e] := by
  generalize number :
    (((b.toNat - 0xF0) * 64 + c.toNat % 64) * 64 + d.toNat % 64) * 64 + e.toNat % 64 = n
  have valid : n.isValidChar := by
    rw [Nat.isValidChar]
    omega
  rw [utf8EncodeChar_ofNat valid, if_neg (by omega), if_neg (by omega), if_neg (by omega),
    ofNat_eq (b := b) (by omega), ofNat_eq (b := c) (by omega), ofNat_eq (b := d) (by omega),
    ofNat_eq (b := e) (by omega)]

/-- A byte that was followed lies in its range and the others follow it. -/
lemma follow_cons_inv {length number n : Nat} {range : ByteRange} {ranges : List ByteRange}
    {bs rest : Bytes} (h : follow length number (range :: ranges) bs = .complete n rest) :
    ∃ b bs', bs = b :: bs' ∧ (range.low.toNat ≤ b.toNat ∧ b.toNat ≤ range.high.toNat) ∧
      follow (length + 1) (number * 64 + b.toNat % 64) ranges bs' = .complete n rest := by
  cases bs with
  | nil => cases h
  | cons b bs =>
    rw [follow] at h
    split at h
    · rename_i inside
      rw [ByteRange.contains, Bool.and_eq_true, decide_eq_true_eq, decide_eq_true_eq] at inside
      exact ⟨b, bs, rfl, inside, h⟩
    · cases h

section

variable {number : Nat} {range : ByteRange} {bs rest : Bytes}

/-- The second byte may come from a narrower range than the third. -/
lemma encodeChar_three_followed (low : 0xE0 ≤ b.toNat) (high : b.toNat < 0xF0)
    (within : 0x80 ≤ range.low.toNat ∧ range.high.toNat ≤ 0xBF)
    (long : b.toNat = 0xE0 → 0xA0 ≤ range.low.toNat)
    (scalar : b.toNat = 0xED → range.high.toNat ≤ 0x9F)
    (followed : follow 1 (b.toNat - 0xE0) [range, continuation] bs = .complete number rest) :
    String.utf8EncodeChar (Char.ofNat number) ++ rest = b :: bs := by
  obtain ⟨c, _, rfl, second, followed⟩ := follow_cons_inv followed
  obtain ⟨d, _, rfl, third, followed⟩ := follow_cons_inv followed
  cases followed
  rw [encodeChar_three low high (by omega) third (by omega) (by omega)]
  rfl

/-- Four bytes that were followed encode the number that was found. -/
lemma encodeChar_four_followed (low : 0xF0 ≤ b.toNat) (high : b.toNat ≤ 0xF4)
    (within : 0x80 ≤ range.low.toNat ∧ range.high.toNat ≤ 0xBF)
    (long : b.toNat = 0xF0 → 0x90 ≤ range.low.toNat)
    (scalar : b.toNat = 0xF4 → range.high.toNat ≤ 0x8F)
    (followed : follow 1 (b.toNat - 0xF0) [range, continuation, continuation] bs =
      .complete number rest) :
    String.utf8EncodeChar (Char.ofNat number) ++ rest = b :: bs := by
  obtain ⟨c, _, rfl, second, followed⟩ := follow_cons_inv followed
  obtain ⟨d, _, rfl, third, followed⟩ := follow_cons_inv followed
  obtain ⟨e, _, rfl, fourth, followed⟩ := follow_cons_inv followed
  cases followed
  rw [encodeChar_four low high (by omega) third fourth (by omega) (by omega)]
  rfl

/-- What has been followed to its end are the bytes of a character, and then the rest. -/
lemma encodeChar_of_followed {first : Lead} (known : lead b = some first)
    (followed : follow 1 first.bits first.followers bs = .complete number rest) :
    String.utf8EncodeChar (Char.ofNat number) ++ rest = b :: bs := by
  have whole : 0x80 ≤ continuation.low.toNat ∧ continuation.high.toNat ≤ 0xBF := by decide
  rw [lead] at known
  -- One case for each row of the table of well-formed sequences.
  split_ifs at known with one under two narrowLow narrowHigh three fourLow four fourHigh <;>
    obtain rfl := Option.some.inj known
  · cases followed
    rw [encodeChar_one one]
    rfl
  · obtain ⟨c, _, rfl, second, followed⟩ := follow_cons_inv followed
    cases followed
    rw [encodeChar_two (UInt8.not_lt.1 under) two second]
    rfl
  · subst narrowLow
    exact encodeChar_three_followed (by decide) (by decide) (by decide) (fun _ => by decide)
      (fun high => absurd high (by decide)) followed
  · subst narrowHigh
    exact encodeChar_three_followed (by decide) (by decide) (by decide)
      (fun low => absurd low (by decide)) (fun _ => by decide) followed
  · exact encodeChar_three_followed (UInt8.not_lt.1 two) three whole
      (fun low => absurd (UInt8.toNat_inj.1 low) narrowLow)
      (fun high => absurd (UInt8.toNat_inj.1 high) narrowHigh) followed
  · subst fourLow
    exact encodeChar_four_followed (by decide) (by decide) (by decide) (fun _ => by decide)
      (fun high => absurd high (by decide)) followed
  · have below : b.toNat < 0xF4 := four
    exact encodeChar_four_followed (UInt8.not_lt.1 three) below.le whole
      (fun low => absurd (UInt8.toNat_inj.1 low) fourLow)
      (fun high => absurd high below.ne) followed
  · subst fourHigh
    exact encodeChar_four_followed (by decide) (by decide) (by decide)
      (fun low => absurd low (by decide)) (fun _ => by decide) followed

end

/-- Decoding on puts what has been decoded behind the characters that were there. -/
lemma encode_of_decodeOnto {got cs : List Char} {index : Nat} {bs : Bytes}
    (h : decodeOnto got index bs = .ok cs) :
    ∃ more, cs = got.reverse ++ more ∧ more.flatMap String.utf8EncodeChar = bs := by
  fun_induction decodeOnto got index bs with
  | case1 got index =>
    cases h
    exact ⟨[], (List.append_nil _).symm, rfl⟩
  | case2 => cases h
  | case3 => cases h
  | case4 => cases h
  | case5 got index b bs first known number rest followed ih =>
    obtain ⟨more, rfl, rfl⟩ := ih h
    refine ⟨Char.ofNat number :: more, ?_, ?_⟩
    · rw [List.reverse_cons, List.append_assoc]
      rfl
    · exact encodeChar_of_followed known followed

/-- Bytes that can be decoded are those that encode the text. -/
lemma encode_of_decode {bs : Bytes} {s : String} (h : decode bs = .ok s) : encode s = bs := by
  rw [decode] at h
  cases decoded : decodeOnto [] 0 bs with
  | error fault =>
    rw [decoded] at h
    cases h
  | ok cs =>
    rw [decoded] at h
    cases h
    obtain ⟨more, rfl, same⟩ := encode_of_decodeOnto decoded
    rw [encode, String.toList_ofList]
    exact same

/-- Bytes are decoded to a text just when they are its encoding. -/
lemma decode_eq_ok_iff {bs : Bytes} {s : String} : decode bs = .ok s ↔ bs = encode s := by
  constructor
  · exact fun h => (encode_of_decode h).symm
  · rintro rfl
    exact decode_encode s

end Columnar.Utf8
