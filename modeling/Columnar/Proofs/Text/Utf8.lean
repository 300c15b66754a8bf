import Columnar.Text.Utf8
import Mathlib.Tactic.IntervalCases
import Mathlib.Tactic.Lemma

/-!
# Decoding what was encoded

The bytes of a character are decoded to that character and nothing after them is looked at
(`decodeOnto_encodeChar`), so the bytes of a text are decoded to that text (`decode_encode`). The
lead byte of a character of two, three or four bytes is known by its range (`lead_two`,
`lead_three`, `lead_four`); the ranges of the bytes after it are those that exclude the shorter
forms, the surrogates and the numbers beyond the last character, none of which a character has.
-/

namespace Columnar.Utf8

/-- A number between its bounds lies in a range of bytes. -/
lemma ByteRange.contains_ofNat {range : ByteRange} {n : Nat} (small : n < 256)
    (low : range.low.toNat ≤ n) (high : n ≤ range.high.toNat) :
    range.contains (UInt8.ofNat n) = true := by
  have same : (UInt8.ofNat n).toNat = n := by simpa using Nat.mod_eq_of_lt small
  simp only [contains, UInt8.le_iff_toNat_le, same, Bool.and_eq_true, decide_eq_true_eq]
  exact ⟨low, high⟩

/-- A byte in the range contributes its lowest six bits. -/
lemma follow_cons {length number n ranges rest} {range : ByteRange}
    (low : range.low.toNat ≤ n % 64 + 128) (high : n % 64 + 128 ≤ range.high.toNat) :
    follow length number (range :: ranges) (UInt8.ofNat (n % 64 + 128) :: rest) =
      follow (length + 1) (number * 64 + n % 64) ranges rest := by
  have bits : (UInt8.ofNat (n % 64 + 128)).toNat % 64 = n % 64 := by
    simp only [UInt8.toNat_ofNat']
    omega
  rw [follow, if_pos (ByteRange.contains_ofNat (by omega) low high), bits]

/-- A byte that continues a sequence whose lead byte asks for nothing narrower. -/
lemma follow_continuation {length number n ranges rest} :
    follow length number (continuation :: ranges) (UInt8.ofNat (n % 64 + 128) :: rest) =
      follow (length + 1) (number * 64 + n % 64) ranges rest := by
  apply follow_cons
  · show 128 ≤ n % 64 + 128
    omega
  · show n % 64 + 128 ≤ 191
    omega

/-- A small byte stands for itself. -/
lemma lead_one {n : Nat} (h : n < 128) : lead (UInt8.ofNat n) = some ⟨n, []⟩ := by
  have same : (UInt8.ofNat n).toNat = n := by
    simp only [UInt8.toNat_ofNat']
    omega
  have below : UInt8.ofNat n < 0x80 := by
    rw [UInt8.lt_iff_toNat_lt, same]
    exact h
  rw [lead, if_pos below, same]

/-- A byte of this range leads a character of two. -/
lemma lead_two {n : Nat} (low : 2 ≤ n) (high : n < 32) :
    lead (UInt8.ofNat (n + 0xC0)) = some ⟨n, [continuation]⟩ := by
  interval_cases n <;> rfl

/-- A byte of this range leads a character of three; what may follow it excludes the surrogates. -/
lemma lead_three {n : Nat} (h : n < 16) :
    lead (UInt8.ofNat (n + 0xE0)) =
      some ⟨n, [⟨if n = 0 then 0xA0 else 0x80, if n = 13 then 0x9F else 0xBF⟩, continuation]⟩ := by
  interval_cases n <;> rfl

/-- A byte of this range leads a character of four; what may follow it stays below the last code
point. -/
lemma lead_four {n : Nat} (h : n < 5) :
    lead (UInt8.ofNat (n + 0xF0)) =
      some ⟨n, [⟨if n = 0 then 0x90 else 0x80, if n = 4 then 0x8F else 0xBF⟩, continuation,
        continuation]⟩ := by
  interval_cases n <;> rfl

/-- Where a lead byte and the bytes after it are known, decoding goes on behind them. -/
lemma decodeOnto_cons {got index b bs rest number} {first : Lead} (known : lead b = some first)
    (followed : follow 1 first.bits first.followers bs = .complete number rest) :
    decodeOnto got index (b :: bs) =
      decodeOnto (Char.ofNat number :: got) (index + first.followers.length + 1) rest := by
  rw [decodeOnto]
  simp only [known]
  split <;> rename_i eq <;> rw [followed] at eq <;> cases eq
  rfl

/-- The second byte of a character of three bytes excludes shorter forms and surrogates. -/
lemma follow_three (rest : Bytes) {v : Nat} (long : 0x7FF < v) (short : v ≤ 0xFFFF)
    (scalar : v < 0xD800 ∨ 0xDFFF < v) :
    follow 1 (v / 4096 % 16)
        [⟨if v / 4096 % 16 = 0 then 0xA0 else 0x80, if v / 4096 % 16 = 13 then 0x9F else 0xBF⟩,
          continuation]
        (UInt8.ofNat (v / 64 % 64 + 128) :: UInt8.ofNat (v % 64 + 128) :: rest) =
      .complete v rest := by
  have number : (v / 4096 % 16 * 64 + v / 64 % 64) * 64 + v % 64 = v := by omega
  rw [follow_cons]
  · exact follow_continuation.trans (congrArg (Followed.complete · rest) number)
  · dsimp only
    split <;> simp only [UInt8.reduceToNat] <;> omega
  · dsimp only
    split <;> simp only [UInt8.reduceToNat] <;> omega

/-- The second byte of a character of four bytes excludes shorter forms and larger numbers. -/
lemma follow_four (rest : Bytes) {v : Nat} (long : 0xFFFF < v) (scalar : v < 0x110000) :
    follow 1 (v / 262144 % 8)
        [⟨if v / 262144 % 8 = 0 then 0x90 else 0x80, if v / 262144 % 8 = 4 then 0x8F else 0xBF⟩,
          continuation, continuation]
        (UInt8.ofNat (v / 4096 % 64 + 128) :: UInt8.ofNat (v / 64 % 64 + 128) ::
          UInt8.ofNat (v % 64 + 128) :: rest) =
      .complete v rest := by
  have number : ((v / 262144 % 8 * 64 + v / 4096 % 64) * 64 + v / 64 % 64) * 64 + v % 64 = v := by
    omega
  rw [follow_cons]
  · rw [follow_continuation]
    exact follow_continuation.trans (congrArg (Followed.complete · rest) number)
  · dsimp only
    split <;> simp only [UInt8.reduceToNat] <;> omega
  · dsimp only
    split <;> simp only [UInt8.reduceToNat] <;> omega

/-- The first byte of a character announces the others, and these complete the character. -/
lemma lead_encodeChar (c : Char) :
    ∃ b bs first, String.utf8EncodeChar c = b :: bs ∧ lead b = some first ∧
      first.followers.length = bs.length ∧
      ∀ rest, follow 1 first.bits first.followers (bs ++ rest) = .complete c.val.toNat rest := by
  -- The number of a character is no surrogate and at most 0x10FFFF.
  have scalar : c.val.toNat < 0xD800 ∨ 0xDFFF < c.val.toNat ∧ c.val.toNat < 0x110000 := c.valid
  unfold String.utf8EncodeChar
  generalize c.val.toNat = v at scalar ⊢
  dsimp only
  split
  · exact ⟨_, [], _, rfl, lead_one (by omega), rfl, fun rest => rfl⟩
  · split
    · refine ⟨_, _, _, rfl, lead_two (n := v / 64 % 32) (by omega) (by omega), rfl, fun rest => ?_⟩
      have number : v / 64 % 32 * 64 + v % 64 = v := by omega
      exact follow_continuation.trans (congrArg (Followed.complete · rest) number)
    · split
      · refine ⟨_, _, _, rfl, lead_three (n := v / 4096 % 16) (by omega), rfl, fun rest => ?_⟩
        exact follow_three rest (by omega) (by omega) (by omega)
      · refine ⟨_, _, _, rfl, lead_four (n := v / 262144 % 8) (by omega), rfl, fun rest => ?_⟩
        exact follow_four rest (by omega) (by omega)

/-- The bytes of a character are decoded to it, and those after it are left. -/
lemma decodeOnto_encodeChar (got : List Char) (index : Nat) (c : Char) (rest : Bytes) :
    decodeOnto got index (String.utf8EncodeChar c ++ rest) =
      decodeOnto (c :: got) (index + (String.utf8EncodeChar c).length) rest := by
  obtain ⟨b, bs, first, same, known, len, followed⟩ := lead_encodeChar c
  have self : Char.ofNat c.val.toNat = c := Char.ofNat_toNat c
  rw [same, List.cons_append, decodeOnto_cons known (followed rest), self, len]
  rfl

/-- The bytes of characters are decoded to them, and decoding goes on behind them. -/
lemma decodeOnto_flatMap (got : List Char) (index : Nat) (cs : List Char) (rest : Bytes) :
    decodeOnto got index (cs.flatMap String.utf8EncodeChar ++ rest) =
      decodeOnto (cs.reverse ++ got) (index + (cs.flatMap String.utf8EncodeChar).length) rest := by
  induction cs generalizing got index with
  | nil => rfl
  | cons c cs ih =>
    rw [List.flatMap_cons, List.append_assoc, decodeOnto_encodeChar, ih, List.reverse_cons,
      List.append_assoc, List.length_append, Nat.add_assoc]
    rfl

/-- A text is what its bytes are decoded to. -/
lemma decode_encode (s : String) : decode (encode s) = .ok s := by
  have decoded := decodeOnto_flatMap [] 0 s.toList []
  rw [List.append_nil, List.append_nil] at decoded
  rw [decode, encode, decoded, decodeOnto, List.reverse_reverse]
  exact congrArg Except.ok String.ofList_toList

end Columnar.Utf8
