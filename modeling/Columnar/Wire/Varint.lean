import Columnar.Wire.Decoder

/-!
# Varints

Unsigned numbers of 64 bits in groups of seven bits, lowest group first; every byte but the last has
its highest bit set. Ten bytes are the longest form, and of the tenth only the lowest bit can count.
-/

namespace Columnar.Wire.Varint

/-- The shortest form of a number. -/
def encodeNat (n : Nat) : Bytes :=
  if n < 128 then [UInt8.ofNat n] else UInt8.ofNat (n % 128 + 128) :: encodeNat (n / 128)

/-- The shortest form of a 64-bit number. -/
def encode (v : UInt64) : Bytes := encodeNat v.toNat

/-- The most bytes that a varint has. -/
def maxLength : Nat := 10

variable {ρ : Type} [ByteStream.Reader ρ]

/-- Reads the number that at most `left` more groups make up. -/
def decodeGroups : (left : Nat) → Decoder ρ Error Nat
  | 0 => .fail (.malformed .varintTooLarge)
  | left + 1 => do
    let b ← Decoder.byte
    let bits := b.toNat % 128
    if left = 0 ∧ 1 < bits then
      .fail (.malformed .varintTooLarge)
    else if b.toNat < 128 then
      return bits
    else
      return bits + 128 * (← decodeGroups left)

/-- Reads a varint. -/
def decode : Decoder ρ Error UInt64 := UInt64.ofNat <$> decodeGroups maxLength

/-- A varint takes at least a byte. -/
theorem consumes_decode : (decode : Decoder ρ Error UInt64).Consumes :=
  (Decoder.consumes_byte.bind _).map _

end Columnar.Wire.Varint
