import Columnar.ByteStream.Sink
import Columnar.Wire.Scalar
import Columnar.Wire.Text

/-!
# Wire values

The kinds of value that packets are made of, with one way of writing and one way of reading each.
Values follow each other without separators: what a value needs in order to be read back is in its
own bytes.
-/

namespace Columnar.Wire

/-- A kind of value. -/
inductive Kind where
  | varint
  /-- A varint that counts something. -/
  | length
  | bytes
  | text
  | bool
  | scalar (s : Scalar)
  deriving DecidableEq, Repr

namespace Kind

/-- The values of a kind. -/
abbrev Value : Kind → Type
  | .varint => UInt64
  | .length => UInt64
  | .bytes => Bytes
  | .text => String
  | .bool => Bool
  | .scalar s => s.Value

/-- The bytes of a value. -/
def encode : (k : Kind) → k.Value → Bytes
  | .varint, v => Varint.encode v
  | .length, v => Varint.encode v
  | .bytes, bs => encodeBytes bs
  | .text, s => encodeText s
  | .bool, b => encodeBool b
  | .scalar _, w => encodeWord w

/-- Reads a value. -/
def decode {ρ : Type} [ByteStream.Reader ρ] : (k : Kind) → Decoder ρ Error k.Value
  | .varint => Varint.decode
  | .length => Varint.decode
  | .bytes => decodeBytes
  | .text => decodeText
  | .bool => decodeBool
  | .scalar s => decodeWord s.width

/-- Every value has at least one byte. -/
theorem consumes_decode {ρ : Type} [ByteStream.Reader ρ] (k : Kind) :
    (k.decode : Decoder ρ Error k.Value).Consumes := by
  cases k with
  | varint => exact Varint.consumes_decode
  | length => exact Varint.consumes_decode
  | bytes => exact consumes_decodeBytes
  | text => exact consumes_decodeText
  | bool => exact consumes_decodeBool
  | scalar s =>
    have pos : 0 < s.width := by cases s <;> decide
    exact (Decoder.consumes_take pos).bind _

/-- What is reported when a value cannot be written: of a value of fixed width, only that. -/
def writeError : Kind → ByteStream.Failure → Error
  | .bool, _ | .scalar _, _ => .unwritten
  | .varint, e | .length, e | .bytes, e | .text, e => .ofFailure e

end Kind

/-- A value together with its kind. -/
structure Value where
  kind : Kind
  value : kind.Value

/-- The bytes of a value. -/
def Value.encode (v : Value) : Bytes := v.kind.encode v.value

/-- Writes a value onto a sink. -/
def Value.write (v : Value) (s : ByteStream.Sink) : Except Error Unit × ByteStream.Sink :=
  match s.writeAll v.encode with
  | (result, s') => (result.mapError v.kind.writeError, s')

end Columnar.Wire
