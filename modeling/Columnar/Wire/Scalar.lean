import Columnar.Decimal.Shortest
import Columnar.Wire.Fixed

/-!
# Scalars

The ten kinds of number of fixed width. A value is its bit pattern, so nothing is lost on the way
through, not even the payload of a NaN; the kind says how the bits read as a number.
-/

namespace Columnar.Wire

/-- A kind of number of fixed width. -/
inductive Scalar where
  | uint8
  | uint16
  | uint32
  | uint64
  | int8
  | int16
  | int32
  | int64
  | float32
  | float64
  deriving DecidableEq, Repr, Inhabited

/-- How the bits of a binary floating-point number are shared out. -/
structure FloatLayout where
  fractionBits : Nat
  exponentBits : Nat

/-- Numbers of 32 bits hold 23 bits of fraction and 8 of exponent. -/
def FloatLayout.single : FloatLayout := ⟨23, 8⟩

/-- Numbers of 64 bits hold 52 bits of fraction and 11 of exponent. -/
def FloatLayout.double : FloatLayout := ⟨52, 11⟩

/-- What a bit pattern stands for. -/
inductive FloatValue where
  | nan
  | infinite (negative : Bool)
  | zero (negative : Bool)
  | finite (negative : Bool) (magnitude : Decimal.Binary)
  deriving DecidableEq, Repr

/-- Reads a bit pattern: below the sign stand the biased exponent and, lowest, the fraction. -/
def FloatLayout.value (layout : FloatLayout) (bits : Nat) : FloatValue :=
  let fraction := bits % Nat.pow 2 layout.fractionBits
  let exponent := bits / Nat.pow 2 layout.fractionBits % Nat.pow 2 layout.exponentBits
  let negative := bits / Nat.pow 2 (layout.fractionBits + layout.exponentBits) % 2 == 1
  let largest := Nat.pow 2 layout.exponentBits - 1
  let least : Int := 2 - Nat.pow 2 (layout.exponentBits - 1) - layout.fractionBits
  if exponent = largest then
    if fraction = 0 then .infinite negative else .nan
  else if exponent = 0 then
    if fraction = 0 then .zero negative else .finite negative ⟨fraction, least, false⟩
  else
    .finite negative
      ⟨Nat.pow 2 layout.fractionBits + fraction, least + (exponent - 1), fraction == 0 && 1 < exponent⟩

/-- A minus sign stands before what is negative. -/
def signed (negative : Bool) (s : String) : String := if negative then "-" ++ s else s

/-- The text of a floating-point number: its shortest decimal, written out without an exponent. -/
def FloatValue.text : FloatValue → String
  | .nan => "NaN"
  | .infinite negative => signed negative "inf"
  | .zero negative => signed negative "0"
  | .finite negative magnitude => signed negative magnitude.shortest.positional

namespace Scalar

/-- How many bytes a value takes. -/
def width : Scalar → Nat
  | .uint8 | .int8 => 1
  | .uint16 | .int16 => 2
  | .uint32 | .int32 | .float32 => 4
  | .uint64 | .int64 | .float64 => 8

/-- A value of the kind, as its bits. -/
abbrev Value (s : Scalar) : Type := BitVec (8 * s.width)

/-- The text of a value. -/
def text : (s : Scalar) → s.Value → String
  | .uint8, v | .uint16, v | .uint32, v | .uint64, v => toString v.toNat
  | .int8, v | .int16, v | .int32, v | .int64, v => toString v.toInt
  | .float32, v => (FloatLayout.single.value v.toNat).text
  | .float64, v => (FloatLayout.double.value v.toNat).text

end Scalar

end Columnar.Wire
