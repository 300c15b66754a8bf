/-!
# Blanks

The characters with the Unicode property White_Space, and the trimming of them from both ends of a
text.
-/

namespace Columnar.Text

/-- The ranges of code points that have the property White_Space. -/
def blankRanges : List (Nat × Nat) :=
  [(0x09, 0x0D), (0x20, 0x20), (0x85, 0x85), (0xA0, 0xA0), (0x1680, 0x1680), (0x2000, 0x200A),
    (0x2028, 0x2029), (0x202F, 0x202F), (0x205F, 0x205F), (0x3000, 0x3000)]

/-- The character has the property White_Space. -/
def isBlank (c : Char) : Bool := blankRanges.any fun (low, high) => low ≤ c.toNat && c.toNat ≤ high

/-- There are twenty-five such characters. -/
example : blankRanges.foldl (fun n (low, high) => n + (high + 1 - low)) 0 = 25 := rfl

/-- What is left of a text without the characters of a class at its end. -/
def dropTrailing (p : Char → Bool) (cs : List Char) : List Char := (cs.reverse.dropWhile p).reverse

/-- What is left of a text without the blanks at both ends. -/
def trim (cs : List Char) : List Char := dropTrailing isBlank (cs.dropWhile isBlank)

end Columnar.Text
