import Columnar.Wire.Varint

/-!
# Byte strings and texts

A byte string is stored as its length, a varint, and its bytes; a text as the byte string that
encodes it in UTF-8. All the bytes of a text are read before they are decoded, so an early end of
the stream is reported in preference to a fault in the bytes that came.
-/

namespace Columnar.Wire

/-- The stored form of a byte string. -/
def encodeBytes (bs : Bytes) : Bytes := Varint.encodeNat bs.length ++ bs

/-- The stored form of a text. -/
def encodeText (s : String) : Bytes := encodeBytes (Utf8.encode s)

variable {ρ : Type} [ByteStream.Reader ρ]

/-- Reads a byte string. -/
def decodeBytes : Decoder ρ Error Bytes := do
  Decoder.take (← Varint.decode).toNat

/-- A byte string takes at least its length. -/
theorem consumes_decodeBytes : (decodeBytes : Decoder ρ Error Bytes).Consumes :=
  Varint.consumes_decode.bind _

/-- Reads a text. -/
def decodeText : Decoder ρ Error String := do
  match Utf8.decode (← decodeBytes) with
  | .ok s => return s
  | .error fault => .fail (.malformed (.notUtf8 fault))

/-- A text takes at least its length. -/
theorem consumes_decodeText : (decodeText : Decoder ρ Error String).Consumes :=
  consumes_decodeBytes.bind _

end Columnar.Wire
