import Columnar.ByteStream.Reader

/-!
# Inboxes

An inbox holds the bytes that have arrived of a stream which may still be open. A read that finds
none leaves a mark: what was computed from the inbox then only holds if nothing more arrives, and is
otherwise to be computed again once more has arrived.
-/

namespace Columnar.ByteStream

/-- Bytes that have arrived and are still to be read. -/
structure Inbox where
  arrived : Bytes := []
  /-- The failure with which the stream will end. -/
  failure : Option Failure := none
  /-- A read has found nothing. -/
  starved : Bool := false
  deriving DecidableEq, Repr, Inhabited

namespace Inbox

/-- One read call. -/
def read (n : Nat) (r : Inbox) : Except Failure Bytes × Inbox :=
  match r.arrived, r.failure with
  | [], some e => (.error e, { r with failure := none, starved := true })
  | [], none => (.ok [], { r with starved := true })
  | b :: bs, _ => (.ok ((b :: bs).take n), { r with arrived := (b :: bs).drop n })

/-- How much can still be delivered. -/
def remaining (r : Inbox) : Nat := r.arrived.length + r.failure.toList.length

/-- What is handed out of the inbox has been paid for. -/
theorem cost_read (n : Nat) (r : Inbox) : Paid (remaining r) (read n r).1 (remaining (read n r).2) := by
  unfold read
  split <;> rename_i arrived _ <;>
    simp_all only [Paid, remaining, List.length_take, List.length_drop, Option.toList,
      List.length_nil, List.length_cons] <;> omega

instance : Reader Inbox where
  read := read
  remaining := remaining
  cost_read := cost_read

/-- The inbox after more bytes have arrived. -/
def add (bs : Bytes) (r : Inbox) : Inbox := { r with arrived := r.arrived ++ bs }

end Inbox

end Columnar.ByteStream
