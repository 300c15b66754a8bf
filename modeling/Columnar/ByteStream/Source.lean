import Columnar.ByteStream.Reader

/-!
# Sources

A source delivers its segments in order, each of them bytes or one failing call, and then ends. A
call never delivers bytes of two segments, and no more than the source's limit.
-/

namespace Columnar.ByteStream

/-- A part of what a source delivers. -/
inductive Segment where
  | bytes (bs : Bytes)
  | failure (e : Failure)
  deriving DecidableEq, Repr

/-- The part of a feed that one segment stands for. -/
def Segment.feed : Segment → Feed
  | .bytes bs => .ofBytes bs
  | .failure e => [.failure e]

/-- A stream that delivers segments, at most `limit` bytes in one call if there is a limit. -/
structure Source where
  segments : List Segment
  limit : Option Nat := none
  deriving DecidableEq, Repr, Inhabited

namespace Source

/-- All that the segments hold. -/
def contents (s : Source) : Feed := s.segments.flatMap Segment.feed

/-- A source that delivers these bytes and ends. -/
def ofBytes (bs : Bytes) : Source := ⟨[.bytes bs], none⟩

/-- One call for at most `n` bytes on a list of segments; segments without bytes are passed over. -/
def readSegments (n : Nat) : List Segment → Except Failure Bytes × List Segment
  | [] => (.ok [], [])
  | .failure e :: rest => (.error e, rest)
  | .bytes [] :: rest => readSegments n rest
  | .bytes (b :: bs) :: rest => (.ok ((b :: bs).take n), .bytes ((b :: bs).drop n) :: rest)

/-- The most bytes that one call for `n` bytes can deliver. -/
def capped (s : Source) (n : Nat) : Nat := (s.limit.map (min n)).getD n

/-- One read call. -/
def read (n : Nat) (s : Source) : Except Failure Bytes × Source :=
  match readSegments (s.capped n) s.segments with
  | (result, segments) => (result, { s with segments })

/-- Every call of a segmented source is paid for by items of its segments. -/
theorem cost_readSegments (n : Nat) (segments : List Segment) :
    Paid (segments.flatMap Segment.feed).length (readSegments n segments).1
      ((readSegments n segments).2.flatMap Segment.feed).length := by
  fun_induction readSegments n segments with
  | case1 => simp [Paid]
  | case2 e rest => simp [Paid, Segment.feed]
  | case3 rest ih => simpa [Segment.feed, Feed.ofBytes] using ih
  | case4 b bs rest =>
    simp only [Paid, Segment.feed, Feed.ofBytes, List.flatMap_cons, List.length_append,
      List.length_map, List.length_take, List.length_drop]
    omega

instance : Reader Source where
  read := read
  remaining s := s.contents.length
  cost_read n s := cost_readSegments (s.capped n) s.segments

end Source

end Columnar.ByteStream
