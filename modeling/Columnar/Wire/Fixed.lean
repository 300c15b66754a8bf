import Columnar.Wire.Decoder

/-!
# Values of fixed width

Words are stored in as many bytes as their width says, lowest byte first, and a truth value in one
byte that is 0 or 1.
-/

namespace Columnar.Wire

/-- The lowest `width` bytes of a number, lowest first. -/
def littleEndian : (width : Nat) → (n : Nat) → Bytes
  | 0, _ => []
  | width + 1, n => UInt8.ofNat n :: littleEndian width (n / 256)

/-- The number whose bytes, lowest first, are given. -/
def ofLittleEndian : Bytes → Nat
  | [] => 0
  | b :: bs => b.toNat + 256 * ofLittleEndian bs

/-- The stored form of a word. -/
def encodeWord {width : Nat} (w : BitVec (8 * width)) : Bytes := littleEndian width w.toNat

/-- The stored form of a truth value. -/
def encodeBool (b : Bool) : Bytes := [if b then 1 else 0]

variable {ρ : Type} [ByteStream.Reader ρ]

/-- Reads a word of `width` bytes. -/
def decodeWord (width : Nat) : Decoder ρ Error (BitVec (8 * width)) := do
  return BitVec.ofNat _ (ofLittleEndian (← Decoder.take width))

/-- Reads a truth value; a byte other than 0 and 1 is none. -/
def decodeBool : Decoder ρ Error Bool := do
  let b ← Decoder.byte
  if b = 0 then return false
  else if b = 1 then return true
  else .fail (.malformed (.notABool b))

/-- A truth value takes a byte. -/
theorem consumes_decodeBool : (decodeBool : Decoder ρ Error Bool).Consumes :=
  Decoder.consumes_byte.bind _

/-- The stored form of a signed word of four bytes. -/
def encodeInt32 (n : Int32) : Bytes := littleEndian 4 n.toBitVec.toNat

/-- Reads a signed word of four bytes. -/
def decodeInt32 : Decoder ρ Error Int32 := do
  return Int32.ofBitVec (← decodeWord 4)

/-- A number of 32 bits takes bytes. -/
theorem consumes_decodeInt32 : (decodeInt32 : Decoder ρ Error Int32).Consumes :=
  ((Decoder.consumes_take (by decide)).bind _).bind _

end Columnar.Wire
