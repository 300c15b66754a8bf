/-!
# Shortest decimals

The decimal with the fewest digits that reads back as a given binary floating-point value. The
numbers that round to a value form an interval around it, so the question is which decimals lie in
it: the search tries the two multiples of a power of ten next to the value, from a coarse power to a
fine one, and the first power with a multiple in the interval decides. All comparisons are between
naturals.
-/

namespace Columnar.Decimal

/-- A positive binary value `m * 2 ^ q` and whether its lower neighbour is half as far as its upper. -/
structure Binary where
  m : Nat
  q : Int
  narrowBelow : Bool
  deriving DecidableEq, Repr

/-- A decimal `digits * 10 ^ exponent`. -/
structure Digits where
  digits : Nat
  exponent : Int
  deriving DecidableEq, Repr

/-- A power of a base, or 1 if the exponent is negative. -/
def power (base : Nat) (exponent : Int) : Nat := base.pow exponent.toNat

namespace Binary

/-- The distance stays within a bound, which itself counts if the value is even. -/
def within (x : Binary) (distance bound : Nat) : Bool :=
  distance < bound || x.m % 2 == 0 && distance == bound

/--
The multiple of `10 ^ g` that rounds to the value, the nearer one of two and the upper one of a tie.
Lengths are measured in parts of which `whole` make `10 ^ g` and `unit` make the value's step `2 ^ q`;
a number rounds to the value if it is no further away than half a step, or below a power of two a
quarter.
-/
def multipleAt? (x : Binary) (g : Int) : Option Digits :=
  let unit := power 2 x.q * power 10 (-g)
  let whole := power 2 (-x.q) * power 10 g
  let count := x.m * unit / whole
  let down := x.m * unit % whole
  let up := whole - down
  let readsBackBelow := x.within ((if x.narrowBelow then 4 else 2) * down) unit
  let readsBackAbove := x.within (2 * up) unit
  if readsBackBelow && (down < up || !readsBackAbove) then some ⟨count, g⟩
  else if readsBackAbove then some ⟨count + 1, g⟩
  else none

/-- The value itself as a decimal. -/
def exact (x : Binary) : Digits := ⟨x.m * power 2 x.q * power 5 (-x.q), min x.q 0⟩

/-- The first decimal that reads back among the multiples of `10 ^ g`, `10 ^ (g - 1)` and so on. -/
def search (x : Binary) : (steps : Nat) → (g : Int) → Digits
  | 0, _ => x.exact
  | steps + 1, g =>
    match x.multipleAt? g with
    | some d => d
    | none => x.search steps (g - 1)

/-- The exponent of a power of ten that is larger than the value, and by no more than a few digits. -/
def powerAbove (x : Binary) : Int := (x.m.log2 + x.q + 1) * 30103 / 100000 + 1

/-- The decimal with the fewest digits that reads back as the value, and the nearest such one. -/
def shortest (x : Binary) : Digits := x.search 24 x.powerAbove

end Binary

/-- The digits of a natural number. -/
def digitChars (n : Nat) : List Char := (Nat.repr n).toList

/-- A decimal written out in full: no exponent, no point in whole numbers, no idle zeros. -/
def Digits.positional (d : Digits) : String :=
  let cs := digitChars d.digits
  match d.exponent with
  | .ofNat n => String.ofList (cs ++ List.replicate n '0')
  | .negSucc n =>
    let places := n + 1
    let cs := List.replicate (places + 1 - cs.length) '0' ++ cs
    String.ofList (cs.take (cs.length - places) ++ '.' :: cs.drop (cs.length - places))

end Columnar.Decimal
