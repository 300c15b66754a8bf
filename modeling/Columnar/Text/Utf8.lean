import Columnar.ByteStream.Basic

/-!
# UTF-8

Decoding of UTF-8 with the place and the kind of the first fault. The lead byte of a sequence fixes
how many bytes follow it and from which ranges they are (table 3-7 of the Unicode standard), so a
sequence is checked one byte after the other and the fault is where this first fails.
-/

namespace Columnar.Utf8

/-- The bytes from `low` to `high`. -/
structure ByteRange where
  low : UInt8
  high : UInt8

/-- The byte lies in the range. -/
def ByteRange.contains (range : ByteRange) (b : UInt8) : Bool :=
  decide (range.low ≤ b) && decide (b ≤ range.high)

/-- The bytes that continue a sequence where the lead byte asks for nothing narrower. -/
def continuation : ByteRange := ⟨0x80, 0xBF⟩

/-- What a lead byte announces: the bits it contributes and the bytes that have to follow it. -/
structure Lead where
  bits : Nat
  followers : List ByteRange

/-- The sequences that a byte can begin; no sequence begins with a byte that is left out. -/
def lead (b : UInt8) : Option Lead :=
  if b < 0x80 then some ⟨b.toNat, []⟩
  else if b < 0xC2 then none
  else if b < 0xE0 then some ⟨b.toNat - 0xC0, [continuation]⟩
  else if b = 0xE0 then some ⟨b.toNat - 0xE0, [⟨0xA0, 0xBF⟩, continuation]⟩
  else if b = 0xED then some ⟨b.toNat - 0xE0, [⟨0x80, 0x9F⟩, continuation]⟩
  else if b < 0xF0 then some ⟨b.toNat - 0xE0, [continuation, continuation]⟩
  else if b = 0xF0 then some ⟨b.toNat - 0xF0, [⟨0x90, 0xBF⟩, continuation, continuation]⟩
  else if b < 0xF4 then some ⟨b.toNat - 0xF0, [continuation, continuation, continuation]⟩
  else if b = 0xF4 then some ⟨b.toNat - 0xF0, [⟨0x80, 0x8F⟩, continuation, continuation]⟩
  else none

/-- Where and how a byte string first fails to be UTF-8. -/
inductive Fault where
  /-- After `index` bytes, `length` bytes begin a sequence that the next byte does not continue. -/
  | invalid (length index : Nat)
  /-- The bytes end within the sequence that begins after `index` bytes. -/
  | incomplete (index : Nat)
  deriving DecidableEq, Repr

/-- The fault in words. -/
def Fault.message : Fault → String
  | .invalid length index =>
    "invalid utf-8 sequence of " ++ toString length ++ " bytes from index " ++ toString index
  | .incomplete index => "incomplete utf-8 byte sequence from index " ++ toString index

/-- How the bytes after a lead byte end its sequence. -/
inductive Followed where
  /-- The sequence is complete: its number, and the bytes after it. -/
  | complete (number : Nat) (rest : Bytes)
  /-- The bytes end before the sequence does. -/
  | unfinished
  /-- After `length` good bytes comes one that the sequence does not allow. -/
  | broken (length : Nat)

/-- Follows a sequence of which `length` bytes, holding the bits of `number`, have been seen. -/
def follow (length number : Nat) : List ByteRange → Bytes → Followed
  | [], rest => .complete number rest
  | _ :: _, [] => .unfinished
  | range :: ranges, b :: rest =>
    if range.contains b then follow (length + 1) (number * 64 + b.toNat % 64) ranges rest
    else .broken length

/-- What follows a sequence is part of what followed its lead byte. -/
theorem length_of_follow {length number n ranges bs rest}
    (h : follow length number ranges bs = .complete n rest) : rest.length ≤ bs.length := by
  fun_induction follow length number ranges bs with
  | case1 => cases h; omega
  | case2 => cases h
  | case3 length number range ranges b bs _ ih => have := ih h; simp; omega
  | case4 => cases h

/-- Decodes on after the characters in `got`, which stand in reverse, from the byte at `index`. -/
def decodeOnto (got : List Char) (index : Nat) : Bytes → Except Fault (List Char)
  | [] => .ok got.reverse
  | b :: bs =>
    match lead b with
    | none => .error (.invalid 1 index)
    | some first =>
      match h : follow 1 first.bits first.followers bs with
      | .unfinished => .error (.incomplete index)
      | .broken length => .error (.invalid length index)
      | .complete number rest =>
        decodeOnto (Char.ofNat number :: got) (index + first.followers.length + 1) rest
termination_by bs => bs.length
decreasing_by have := length_of_follow h; simp; omega

/-- The text that the bytes encode, or the first fault. -/
def decode (bs : Bytes) : Except Fault String := (decodeOnto [] 0 bs).map String.ofList

/-- The bytes that encode a text. -/
def encode (s : String) : Bytes := s.toList.flatMap String.utf8EncodeChar

end Columnar.Utf8
