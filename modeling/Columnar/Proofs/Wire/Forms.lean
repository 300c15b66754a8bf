import Columnar.Proofs.Text.WellFormed
import Columnar.Proofs.Wire.Spells
import Columnar.Proofs.Wire.Values

/-!
# Forms of wire values

The bytes that stand for a value on the wire. A number has several forms, because groups without
bits may be added at its end, and so has a text, whose length is such a number; of all other values
there is one form each. The decoder of every kind of value reads exactly the forms.
-/

namespace Columnar.Wire

open ByteStream Decoder

variable {ρ : Type} [Reader ρ] [Observable ρ]

namespace Varint

/-- Groups of seven bits, the lowest first; all bytes but the last one have the highest bit set. -/
inductive Groups : Bytes → Nat → Prop where
  | last {b : UInt8} :
    b.toNat < 128 →
    Groups [b] b.toNat
  | more {b : UInt8} {bs : Bytes} {n : Nat} :
    128 ≤ b.toNat →
    Groups bs n →
    Groups (b :: bs) (b.toNat % 128 + 128 * n)

/-- At most ten groups that make up a number of 64 bits. -/
def Form (bs : Bytes) (v : UInt64) : Prop := Groups bs v.toNat ∧ bs.length ≤ 10

/-- A group is the last or others follow it. -/
lemma groups_cons {b : UInt8} {bs : Bytes} {n : Nat} :
    Groups (b :: bs) n ↔ b.toNat < 128 ∧ bs = [] ∧ n = b.toNat ∨
      128 ≤ b.toNat ∧ ∃ high, Groups bs high ∧ n = b.toNat % 128 + 128 * high := by
  constructor
  · intro groups
    cases groups with
    | last low => exact .inl ⟨low, rfl, rfl⟩
    | more more groups => exact .inr ⟨more, _, groups, rfl⟩
  · rintro (⟨low, rfl, rfl⟩ | ⟨more, high, groups, rfl⟩)
    · exact .last low
    · exact .more more groups

/-- No number is spelt by no bytes. -/
lemma not_groups_nil {n : Nat} : ¬Groups [] n := nofun

/-- Of `left` groups that may come the last one has room for a single bit. -/
def Limited (left : Nat) (bs : Bytes) (n : Nat) : Prop :=
  Groups bs n ∧ bs.length ≤ left ∧ n < 2 * 128 ^ (left - 1)

/-- The first byte decides whether it is the last one, and no number has bits beyond those for which
there is room. -/
lemma limited_cons {left : Nat} {b : UInt8} {bs : Bytes} {n : Nat} :
    Limited (left + 1) (b :: bs) n ↔ ¬(left = 0 ∧ 1 < b.toNat % 128) ∧
      (b.toNat < 128 ∧ bs = [] ∧ n = b.toNat % 128 ∨
        128 ≤ b.toNat ∧ ∃ high, Limited left bs high ∧ n = b.toNat % 128 + 128 * high) := by
  rw [Limited, groups_cons, List.length_cons]
  -- The last byte of ten has room for one bit, any other for seven, hence the two cases.
  cases left with
  | zero =>
    constructor
    · rintro ⟨⟨low, rfl, rfl⟩ | ⟨_, high, groups, rfl⟩, len, below⟩
      · exact ⟨by omega, .inl ⟨low, rfl, (Nat.mod_eq_of_lt low).symm⟩⟩
      · obtain rfl := List.eq_nil_of_length_eq_zero (by omega : bs.length = 0)
        exact (not_groups_nil groups).elim
    · rintro ⟨single, ⟨low, rfl, rfl⟩ | ⟨_, high, ⟨groups, len, _⟩, _⟩⟩
      · exact ⟨.inl ⟨low, rfl, Nat.mod_eq_of_lt low⟩, Nat.le_refl 1, by omega⟩
      · obtain rfl := List.eq_nil_of_length_eq_zero (Nat.le_zero.1 len)
        exact (not_groups_nil groups).elim
  | succ left =>
    have room : 2 * 128 ^ (left + 1 + 1 - 1) = 128 * (2 * 128 ^ left) := by
      rw [Nat.add_sub_cancel, Nat.pow_succ]
      omega
    have some : 0 < 128 ^ left := Nat.pow_pos (by decide)
    have others (bs : Bytes) (high : Nat) : Limited (left + 1) bs high ↔
      Groups bs high ∧ bs.length ≤ left + 1 ∧ high < 2 * 128 ^ left := Iff.rfl
    simp only [room, others]
    constructor
    · rintro ⟨⟨low, rfl, rfl⟩ | ⟨more, high, groups, rfl⟩, len, below⟩
      · exact ⟨by omega, .inl ⟨low, rfl, (Nat.mod_eq_of_lt low).symm⟩⟩
      · exact ⟨by omega, .inr ⟨more, high, ⟨groups, by omega, by omega⟩, rfl⟩⟩
    · rintro ⟨_, ⟨low, rfl, rfl⟩ | ⟨more, high, ⟨groups, len, below⟩, rfl⟩⟩
      · exact ⟨.inl ⟨low, rfl, Nat.mod_eq_of_lt low⟩, by simp, by omega⟩
      · exact ⟨.inr ⟨more, high, groups, rfl⟩, by omega, by omega⟩

section

variable {left : Nat} {b : UInt8} {bs : Bytes} {n : Nat}

/-- A last group that fits is the whole of the number. -/
lemma limited_last (fits : ¬(left = 0 ∧ 1 < b.toNat % 128)) (low : b.toNat < 128) :
    Limited (left + 1) (b :: bs) n ↔ bs = [] ∧ n = b.toNat % 128 := by
  rw [limited_cons]
  constructor
  · rintro ⟨_, ⟨_, rfl, rfl⟩ | ⟨more, _⟩⟩
    · exact ⟨rfl, rfl⟩
    · exact absurd low (Nat.not_lt.2 more)
  · rintro ⟨rfl, rfl⟩
    exact ⟨fits, .inl ⟨low, rfl, rfl⟩⟩

/-- A group that is not the last gives the low digits of the number. -/
lemma limited_more (fits : ¬(left = 0 ∧ 1 < b.toNat % 128)) (more : ¬b.toNat < 128) :
    Limited (left + 1) (b :: bs) n ↔
      ∃ high, Limited left bs high ∧ n = b.toNat % 128 + 128 * high := by
  rw [limited_cons]
  constructor
  · rintro ⟨_, ⟨low, _⟩ | ⟨_, higher⟩⟩
    · exact absurd low more
    · exact higher
  · intro higher
    exact ⟨fits, .inr ⟨Nat.not_lt.1 more, higher⟩⟩

end

/-- The groups that are read are those that are few enough and fit. -/
lemma spells_decodeGroups (left : Nat) :
    (decodeGroups left : Decoder ρ Error Nat).Spells (Limited left) := by
  -- On the room that is left, because it and the byte decide which branch is taken.
  induction left with
  | zero =>
    refine .of_iff (.fail _) fun bs n => ⟨False.elim, fun ⟨groups, len, _⟩ => ?_⟩
    obtain rfl := List.eq_nil_of_length_eq_zero (Nat.le_zero.1 len)
    exact not_groups_nil groups
  | succ left ih =>
    refine .of_iff (.bind (H := fun b bs n => Limited (left + 1) (b :: bs) n) .byte fun b => ?_)
      fun bs n => ?_
    · dsimp only
      split
      · rename_i large
        refine .of_iff (.fail _) fun bs n => ⟨False.elim, fun limited => ?_⟩
        exact (limited_cons.1 limited).1 large
      · rename_i fits
        split
        · rename_i low
          exact .of_iff (.pure _) fun bs n => (limited_last fits low).symm
        · rename_i more
          refine .of_iff (.bind ih fun high => .pure _) fun bs n => ?_
          rw [limited_more fits more]
          constructor
          · rintro ⟨bs, high, _, rfl, limited, rfl, rfl⟩
            rw [List.append_nil]
            exact ⟨high, limited, rfl⟩
          · rintro ⟨high, limited, rfl⟩
            exact ⟨bs, high, [], (List.append_nil bs).symm, limited, rfl, rfl⟩
    · constructor
      · rintro ⟨_, b, bs, rfl, rfl, limited⟩
        exact limited
      · intro limited
        cases bs with
        | nil => exact (not_groups_nil limited.1).elim
        | cons b bs => exact ⟨[b], b, bs, rfl, rfl, limited⟩

/-- A number is spelt by its groups. -/
lemma spells_decode : (decode : Decoder ρ Error UInt64).Spells Form := by
  refine .of_iff (.map (spells_decodeGroups maxLength) UInt64.ofNat) fun bs v => ?_
  constructor
  · rintro ⟨n, ⟨groups, len, below⟩, rfl⟩
    have same : (UInt64.ofNat n).toNat = n := Nat.mod_eq_of_lt below
    rw [Form, same]
    exact ⟨groups, len⟩
  · rintro ⟨groups, len⟩
    exact ⟨v.toNat, ⟨groups, len, v.toNat_lt⟩, UInt64.ofNat_toNat.symm⟩

end Varint

/-- A word in little-endian order has the bytes that make it. -/
lemma littleEndian_ofLittleEndian (bs : Bytes) :
    littleEndian bs.length (ofLittleEndian bs) = bs := by
  induction bs with
  | nil => rfl
  | cons b bs ih =>
    have lowest : UInt8.ofNat (b.toNat + 256 * ofLittleEndian bs) = b := by
      apply UInt8.toNat_inj.1
      rw [UInt8.toNat_ofNat']
      have := b.toNat_lt
      omega
    have others : (b.toNat + 256 * ofLittleEndian bs) / 256 = ofLittleEndian bs := by
      have := b.toNat_lt
      omega
    rw [List.length_cons, ofLittleEndian, littleEndian, lowest, others, ih]

/-- Bytes make a number that fits into their length. -/
lemma ofLittleEndian_lt (bs : Bytes) : ofLittleEndian bs < 2 ^ (8 * bs.length) := by
  have whole := ofLittleEndian_littleEndian bs.length (ofLittleEndian bs)
  rw [littleEndian_ofLittleEndian] at whole
  rw [whole, Nat.pow_mul]
  exact Nat.mod_lt _ (Nat.pow_pos (by decide))

/-- A word is spelt by its bytes alone. -/
lemma spells_decodeWord (width : Nat) :
    (decodeWord width : Decoder ρ Error _).Spells fun bs w => bs = encodeWord w := by
  refine .of_iff (.bind (.take width) fun bs => .pure _) fun bs w => ?_
  constructor
  · rintro ⟨bs, got, _, rfl, ⟨len, same⟩, rfl, rfl⟩
    subst same
    subst len
    rw [List.append_nil, encodeWord, BitVec.toNat_ofNat, Nat.mod_eq_of_lt (ofLittleEndian_lt _),
      littleEndian_ofLittleEndian]
  · rintro rfl
    refine ⟨encodeWord w, _, [], (List.append_nil _).symm, ⟨length_littleEndian _ _, rfl⟩, rfl, ?_⟩
    apply BitVec.eq_of_toNat_eq
    have fits : w.toNat < 256 ^ width := by
      have := w.isLt
      rwa [Nat.pow_mul] at this
    rw [encodeWord, ofLittleEndian_littleEndian, BitVec.toNat_ofNat, Nat.mod_eq_of_lt fits,
      Nat.mod_eq_of_lt w.isLt]

/-- A signed word is spelt by its bytes alone. -/
lemma spells_decodeInt32 :
    (decodeInt32 : Decoder ρ Error Int32).Spells fun bs n => bs = encodeInt32 n := by
  refine .of_iff (.map (spells_decodeWord 4) Int32.ofBitVec) fun bs n => ?_
  constructor
  · rintro ⟨w, rfl, rfl⟩
    rfl
  · rintro rfl
    exact ⟨n.toBitVec, rfl, rfl⟩

/-- A truth value is spelt by its byte alone. -/
lemma spells_decodeBool :
    (decodeBool : Decoder ρ Error Bool).Spells fun bs b => bs = encodeBool b := by
  refine .of_iff (.bind (H := fun b rest v => rest = [] ∧ [b] = encodeBool v) .byte fun b => ?_)
    fun bs v => ?_
  · split
    · rename_i zero
      refine .of_iff (.pure false) fun bs v => and_congr_right fun _ => ?_
      subst zero
      cases v <;> simp [encodeBool]
    · rename_i other
      split
      · rename_i one
        refine .of_iff (.pure true) fun bs v => and_congr_right fun _ => ?_
        subst one
        cases v <;> simp [encodeBool]
      · rename_i neither
        refine .of_iff (.fail _) fun bs v => ⟨False.elim, fun ⟨_, same⟩ => ?_⟩
        cases v with
        | false => exact other (List.singleton_inj.1 same)
        | true => exact neither (List.singleton_inj.1 same)
  · constructor
    · rintro ⟨_, b, _, rfl, rfl, rfl, same⟩
      exact same
    · rintro rfl
      exact ⟨encodeBool v, _, [], rfl, rfl, rfl, rfl⟩

/-- The length in any form, and the bytes. -/
def BytesForm (bs got : Bytes) : Prop :=
  ∃ count length, bs = count ++ got ∧ Varint.Form count length ∧ got.length = length.toNat

/-- The length in any form, and the bytes that encode the text. -/
def TextForm (bs : Bytes) (s : String) : Prop := BytesForm bs (Utf8.encode s)

/-- Bytes whose length is announced are fewer than a length can be. -/
lemma BytesForm.fits {bs got : Bytes} (form : BytesForm bs got) : got.length < 2 ^ 64 := by
  obtain ⟨_, length, _, _, len⟩ := form
  rw [len]
  exact length.toNat_lt

/-- Bytes are spelt by their length and themselves. -/
lemma spells_decodeBytes : (decodeBytes : Decoder ρ Error Bytes).Spells BytesForm := by
  refine .of_iff (.bind Varint.spells_decode fun length => .take length.toNat) fun bs got => ?_
  constructor
  · rintro ⟨count, length, _, rfl, form, len, rfl⟩
    exact ⟨count, length, rfl, form, len⟩
  · rintro ⟨count, length, rfl, form, len⟩
    exact ⟨count, length, got, rfl, form, len, rfl⟩

/-- A text is spelt by its length and its encoding. -/
lemma spells_decodeText : (decodeText : Decoder ρ Error String).Spells TextForm := by
  refine .of_iff (.bind (H := fun bs rest s => rest = [] ∧ Utf8.decode bs = .ok s)
    spells_decodeBytes fun bs => ?_) fun bs s => ?_
  · refine .of_result (fun s decoded => ?_) fun fault decoded =>
      ⟨.malformed (.notUtf8 fault), ?_⟩ <;> rw [decoded]
  · constructor
    · rintro ⟨bs, got, _, rfl, form, rfl, decoded⟩
      rw [Utf8.decode_eq_ok_iff] at decoded
      rw [List.append_nil, TextForm, ← decoded]
      exact form
    · intro form
      exact ⟨bs, _, [], (List.append_nil _).symm, form, rfl, Utf8.decode_encode s⟩

namespace Kind

/-- The bytes that stand for a value of the kind. -/
def Form : (k : Kind) → Bytes → k.Value → Prop
  | .varint, bs, v => Varint.Form bs v
  | .length, bs, v => Varint.Form bs v
  | .bytes, bs, got => BytesForm bs got
  | .text, bs, s => TextForm bs s
  | .bool, bs, b => bs = encodeBool b
  | .scalar _, bs, w => bs = encodeWord w

/-- A cell is spelt by the form of its kind. -/
lemma spells_decode (k : Kind) : (k.decode : Decoder ρ Error k.Value).Spells k.Form := by
  cases k with
  | varint => exact Varint.spells_decode
  | length => exact Varint.spells_decode
  | bytes => exact spells_decodeBytes
  | text => exact spells_decodeText
  | bool => exact spells_decodeBool
  | scalar s => exact spells_decodeWord s.width

/-- Whatever has been spelt fits. -/
lemma Form.fits {k : Kind} {bs : Bytes} {v : k.Value} (form : k.Form bs v) : k.Fits v := by
  cases k with
  | bytes => exact BytesForm.fits form
  | text => exact BytesForm.fits form
  | _ => trivial

end Kind

end Columnar.Wire
