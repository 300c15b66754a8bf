import Columnar.Proofs.Text.Utf8
import Columnar.Proofs.Wire.Reads
import Columnar.Wire.Kind

/-!
# Wire values are read back

The bytes that encode a varint, a word, a truth value, a byte string or a text are a value for the
decoder of its kind (`Kind.reads_decode`). A byte string is preceded by its length, a number of 64
bits, so only one that is short enough for this has an encoding (`Kind.Fits`).
-/

namespace Columnar.Wire

open ByteStream

variable {ρ : Type} [Reader ρ] [Observable ρ]

namespace Varint

/-- A number takes bytes. -/
lemma encodeNat_ne_nil (n : Nat) : encodeNat n ≠ [] := by
  rw [encodeNat]
  split <;> exact nofun

/-- Of `k + 1` groups the last one holds a single bit. -/
lemma reads_decodeGroups {n k : Nat} (h : n < 2 * 128 ^ k) :
    (decodeGroups (k + 1) : Decoder ρ Error Nat).Reads (encodeNat n) n := by
  -- The last group that may come has room for the top bit alone, those before it for seven bits.
  induction k generalizing n with
  | zero =>
    have bits : (UInt8.ofNat n).toNat = n := by
      simp only [UInt8.toNat_ofNat']
      omega
    rw [encodeNat, if_pos (by omega), decodeGroups]
    apply (Decoder.Reads.byte _).bind_pure
    rw [bits, if_neg (by omega), if_pos (by omega), Nat.mod_eq_of_lt (by omega)]
    exact .pure n
  | succ k ih =>
    rw [encodeNat, decodeGroups]
    by_cases last : n < 128
    · have bits : (UInt8.ofNat n).toNat = n := by
        simp only [UInt8.toNat_ofNat']
        omega
      rw [if_pos last]
      apply (Decoder.Reads.byte _).bind_pure
      rw [bits, if_neg (by omega), if_pos last, Nat.mod_eq_of_lt last]
      exact .pure n
    · have bits : (UInt8.ofNat (n % 128 + 128)).toNat = n % 128 + 128 := by
        simp only [UInt8.toNat_ofNat']
        omega
      have more : n / 128 < 2 * 128 ^ k := by
        rw [Nat.pow_succ] at h
        omega
      have value : n % 128 + 128 * (n / 128) = n := Nat.mod_add_div n 128
      rw [if_neg last]
      apply (Decoder.Reads.byte _).bind
      rw [bits, if_neg (by omega), if_neg (by omega)]
      apply (ih more).bind_pure
      rw [Nat.add_mod_right, Nat.mod_mod, value]
      exact .pure n

/-- A number that fits is read as it was written. -/
lemma reads_decode_ofNat {n : Nat} (h : n < 2 ^ 64) :
    (decode : Decoder ρ Error UInt64).Reads (encodeNat n) (.ofNat n) :=
  (reads_decodeGroups (k := 9) h).map UInt64.ofNat

/-- A word is read as it was written. -/
lemma reads_decode (v : UInt64) : (decode : Decoder ρ Error UInt64).Reads (encode v) v := by
  have read := reads_decode_ofNat (ρ := ρ) v.toNat_lt
  rwa [UInt64.ofNat_toNat] at read

end Varint

/-- As many bytes are written as were asked for. -/
lemma length_littleEndian (width n : Nat) : (littleEndian width n).length = width := by
  induction width generalizing n with
  | zero => rfl
  | succ width ih => rw [littleEndian, List.length_cons, ih]

/-- What is read back is what fits of a number. -/
lemma ofLittleEndian_littleEndian (width n : Nat) :
    ofLittleEndian (littleEndian width n) = n % 256 ^ width := by
  induction width generalizing n with
  | zero => rw [Nat.pow_zero, Nat.mod_one]; rfl
  | succ width ih =>
    rw [littleEndian, ofLittleEndian, ih, Nat.pow_succ', Nat.mod_mul]
    rfl

/-- What fits of a number is read from its bytes. -/
lemma reads_decodeWord (width n : Nat) :
    (decodeWord width : Decoder ρ Error _).Reads (littleEndian width n) (.ofNat _ n) := by
  apply (Decoder.Reads.take (length_littleEndian width n)).bind_pure
  have same : BitVec.ofNat (8 * width) (ofLittleEndian (littleEndian width n)) = .ofNat _ n := by
    apply BitVec.eq_of_toNat_eq
    rw [BitVec.toNat_ofNat, BitVec.toNat_ofNat, ofLittleEndian_littleEndian, Nat.pow_mul]
    exact Nat.mod_mod _ _
  rw [same]
  exact .pure _

/-- A word of any width is read as it was written. -/
lemma reads_decodeWord_encodeWord {width : Nat} (w : BitVec (8 * width)) :
    (decodeWord width : Decoder ρ Error _).Reads (encodeWord w) w := by
  have read := reads_decodeWord (ρ := ρ) width w.toNat
  rwa [BitVec.ofNat_toNat, BitVec.setWidth_eq] at read

/-- A truth value is read as it was written. -/
lemma reads_decodeBool (b : Bool) : (decodeBool : Decoder ρ Error Bool).Reads (encodeBool b) b :=
  (Decoder.Reads.byte _).bind_pure (by cases b <;> exact .pure _)

/-- A signed word is read as it was written. -/
lemma reads_decodeInt32 (n : Int32) :
    (decodeInt32 : Decoder ρ Error Int32).Reads (encodeInt32 n) n :=
  (reads_decodeWord_encodeWord (show BitVec (8 * 4) from n.toBitVec)).map Int32.ofBitVec

/-- Bytes that fit are read as they were written. -/
lemma reads_decodeBytes {bs : Bytes} (h : bs.length < 2 ^ 64) :
    (decodeBytes : Decoder ρ Error Bytes).Reads (encodeBytes bs) bs := by
  refine (Varint.reads_decode_ofNat h).bind (.take ?_)
  exact (Nat.mod_eq_of_lt h).symm

/-- A text whose bytes can be counted in 64 bits. -/
def FitsText (s : String) : Prop := (Utf8.encode s).length < 2 ^ 64

instance (s : String) : Decidable (FitsText s) := inferInstanceAs (Decidable (_ < _))

/-- A text that fits is read as it was written. -/
lemma reads_decodeText {s : String} (h : FitsText s) :
    (decodeText : Decoder ρ Error String).Reads (encodeText s) s := by
  apply (reads_decodeBytes h).bind_pure
  rw [Utf8.decode_encode]
  exact .pure s

namespace Kind

/-- A value that has an encoding: what is preceded by its length is not too long for that. -/
def Fits : (k : Kind) → k.Value → Prop
  | .bytes, bs => bs.length < 2 ^ 64
  | .text, s => FitsText s
  | _, _ => True

instance : (k : Kind) → (v : k.Value) → Decidable (k.Fits v)
  | .bytes, _ => inferInstanceAs (Decidable (_ < _))
  | .text, s => inferInstanceAs (Decidable (FitsText s))
  | .varint, _ | .length, _ | .bool, _ | .scalar _, _ => .isTrue trivial

/-- A cell that fits is read as it was written. -/
lemma reads_decode {k : Kind} {v : k.Value} (h : k.Fits v) :
    (k.decode : Decoder ρ Error k.Value).Reads (k.encode v) v := by
  cases k with
  | varint => exact Varint.reads_decode v
  | length => exact Varint.reads_decode v
  | bytes => exact reads_decodeBytes h
  | text => exact reads_decodeText h
  | bool => exact reads_decodeBool v
  | scalar s => exact reads_decodeWord_encodeWord v

end Kind

end Columnar.Wire
