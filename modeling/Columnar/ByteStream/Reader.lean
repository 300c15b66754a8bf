import Columnar.ByteStream.Basic

/-!
# Readers

A reader answers single read calls, each of which may deliver fewer bytes than were asked for, fail
once, or report the end of the stream by delivering nothing. `Reader.cost_read` says that every call
pays for what it delivers, which is why a program that keeps reading comes to an end.

`Feed` is the plainest reader, and what a program can observe of any other however the bytes are cut
into calls: the bytes and the failing calls in the order in which they arrive.
-/

namespace Columnar.ByteStream

/-- One thing that a stream still has to deliver: a byte, or a call that fails once. -/
inductive Item where
  | byte (b : UInt8)
  | failure (e : Failure)
  deriving DecidableEq, Repr

/-- All that a stream still has to deliver before it ends. -/
abbrev Feed := List Item

/-- The feed of a stream that delivers these bytes and then ends. -/
def Feed.ofBytes (bs : Bytes) : Feed := bs.map .byte

/-- What one read call delivered costs the reader at least as much as it gave. -/
def Paid (before : Nat) : Except Failure Bytes → Nat → Prop
  | .ok bs, after => bs.length + after ≤ before
  | .error _, after => after < before

/-- Things that can be read from, one call at a time. -/
class Reader (ρ : Type) where
  /-- One call that asks for at most `n` bytes; no bytes at all mean that the stream has ended. -/
  read : (n : Nat) → ρ → Except Failure Bytes × ρ
  /-- How much the reader can still deliver. -/
  remaining : ρ → Nat
  /-- Every call pays for what it delivers, and a failing call pays for the failure. -/
  cost_read : ∀ n r, Paid (remaining r) (read n r).1 (remaining (read n r).2)

namespace Feed

/-- The bytes that stand in front of the first failure, at most `n` of them. -/
def front : Nat → Feed → Bytes
  | n + 1, .byte b :: rest => b :: front n rest
  | _, _ => []

/-- The bytes in front of a feed are no more than its items. -/
theorem length_front_le (n : Nat) (feed : Feed) : (front n feed).length ≤ feed.length := by
  fun_induction front n feed with
  | case1 n b rest ih => simpa using ih
  | case2 => simp

/-- One call on a feed: the failure that stands in front, or the bytes before the next one. -/
def read (n : Nat) : Feed → Except Failure Bytes × Feed
  | .failure e :: rest => (.error e, rest)
  | feed => (.ok (front n feed), feed.drop (front n feed).length)

/-- Every call of a feed is paid for by items of it. -/
theorem cost_read (n : Nat) (feed : Feed) :
    Paid feed.length (read n feed).1 (read n feed).2.length := by
  have bound := length_front_le n feed
  fun_cases read n feed with
  | case1 e rest => simp [Paid]
  | case2 => simp only [Paid, List.length_drop]; omega

instance : Reader Feed where
  read := read
  remaining := List.length
  cost_read := cost_read

end Feed

end Columnar.ByteStream
