import Columnar.ByteStream.Basic

/-!
# Sinks

A sink takes bytes by single write calls, each of which may accept only a beginning of what it is
given, nothing at all, or fail. What happens to the calls is laid down in advance: entries are used
up in order, and after the last one every call accepts all it is given. `Sink.writeAll` repeats
calls until everything is accepted or one of them fails, and `Sink.put` adds bytes that cannot be
refused; no operation lengthens what is laid down.
-/

namespace Columnar.ByteStream

/-- What happens to write calls: some bytes are accepted, or one call accepts nothing or fails. -/
inductive WriteEntry where
  | accept (n : Nat)
  | nothing
  | failure (e : Failure)
  deriving DecidableEq, Repr

/-- A writer whose calls end as laid down, with the pieces accepted so far, the latest first. -/
structure Sink where
  writes : List WriteEntry := []
  flushes : List (Option Failure) := []
  pieces : List Bytes := []
  deriving DecidableEq, Repr, Inhabited

namespace Sink

/-- All the bytes that the sink has accepted. -/
def accepted (s : Sink) : Bytes := s.pieces.reverse.flatten

/-- The sink after accepting these bytes. -/
def accept (s : Sink) (bs : Bytes) : Sink := { s with pieces := bs :: s.pieces }

/-- The sink without the bytes that it has accepted so far. -/
def forget (s : Sink) : Sink := { s with pieces := [] }

/-- How much is laid down. -/
def scripted (s : Sink) : Nat := s.writes.length + s.flushes.length

/-- Writes all the bytes, call after call, where the entries say how the calls end. -/
def writeUnder (bs : Bytes) (s : Sink) : List WriteEntry → Except Failure Unit × Sink
  | [] => (.ok (), { s with writes := [] }.accept bs)
  | .accept n :: rest =>
    match bs.drop n with
    | [] => (.ok (), { s with writes := .accept (n - bs.length) :: rest }.accept bs)
    | b :: left => writeUnder (b :: left) (s.accept (bs.take n)) rest
  | .nothing :: rest => (.error .writeZero, { s with writes := rest })
  | .failure e :: rest =>
    if e.kind = .interrupted then writeUnder bs s rest
    else (.error e, { s with writes := rest })

/-- Writes all the bytes; no call is made when there are none. -/
def writeAll (bs : Bytes) (s : Sink) : Except Failure Unit × Sink :=
  if bs = [] then (.ok (), s) else writeUnder bs s s.writes

/-- The entries that are left after `n` bytes that cannot be refused; no entry that refuses is used. -/
def spend : (n : Nat) → List WriteEntry → List WriteEntry
  | n, .accept m :: rest => if n ≤ m then .accept (m - n) :: rest else spend (n - m) rest
  | n, .failure e :: rest => if e.kind = .interrupted then spend n rest else .failure e :: rest
  | _, .nothing :: rest => .nothing :: rest
  | _, [] => []

/-- Adds bytes that cannot be refused; they count among those that the entries accept. -/
def put (bs : Bytes) (s : Sink) : Sink :=
  if bs = [] then s else { s.accept bs with writes := spend bs.length s.writes }

/-- One flush call. -/
def flush (s : Sink) : Except Failure Unit × Sink :=
  match s.flushes with
  | [] => (.ok (), s)
  | none :: rest => (.ok (), { s with flushes := rest })
  | some e :: rest => (.error e, { s with flushes := rest })

/-- Accepted bytes come behind those accepted before. -/
@[simp] theorem accepted_accept (s : Sink) (bs : Bytes) :
    (s.accept bs).accepted = s.accepted ++ bs := by
  simp [accepted, accept]

/-- Writing under some entries leaves no more than these. -/
theorem scripted_writeUnder (bs : Bytes) (s : Sink) (entries : List WriteEntry) :
    (writeUnder bs s entries).2.scripted ≤ entries.length + s.flushes.length := by
  induction entries generalizing bs s with
  | nil => simp [writeUnder, scripted, accept]
  | cons entry rest ih =>
    cases entry with
    | accept n =>
      unfold writeUnder
      split
      · simp [scripted, accept]
      · rename_i b left _
        have := ih (b :: left) (s.accept (bs.take n))
        simp only [accept, List.length_cons] at *
        omega
    | nothing => simp [writeUnder, scripted]
    | failure e =>
      have := ih bs s
      unfold writeUnder
      split
      · simp only [List.length_cons]; omega
      · simp [scripted]

/-- Writing uses up entries and adds none. -/
theorem scripted_writeAll (bs : Bytes) (s : Sink) : (s.writeAll bs).2.scripted ≤ s.scripted := by
  unfold writeAll
  split
  · exact Nat.le_refl _
  · exact scripted_writeUnder bs s s.writes

/-- Spending entries leaves no more than there were. -/
theorem length_spend_le (n : Nat) (entries : List WriteEntry) :
    (spend n entries).length ≤ entries.length := by
  fun_induction spend n entries with
  | case1 => simp
  | case2 n m rest _ ih => exact Nat.le_trans ih (Nat.le_succ _)
  | case3 n e rest _ ih => exact Nat.le_trans ih (Nat.le_succ _)
  | case4 | case5 | case6 => exact Nat.le_refl _

/-- Putting bytes uses up entries and adds none. -/
theorem scripted_put (bs : Bytes) (s : Sink) : (s.put bs).scripted ≤ s.scripted := by
  unfold put
  split
  · exact Nat.le_refl _
  · exact Nat.add_le_add_right (length_spend_le bs.length s.writes) s.flushes.length

/-- Flushing uses up entries and adds none. -/
theorem scripted_flush (s : Sink) : s.flush.2.scripted ≤ s.scripted := by
  unfold flush
  split <;> simp_all [scripted]

/-- A write that fails has used up an entry. -/
theorem scripted_writeAll_of_error {bs : Bytes} {s s' : Sink} {e : Failure}
    (h : s.writeAll bs = (.error e, s')) : s'.scripted < s.scripted := by
  suffices ∀ entries bs (t : Sink), writeUnder bs t entries = (.error e, s') →
      s'.scripted < entries.length + t.flushes.length by
    unfold writeAll at h
    split at h
    · cases h
    · exact this _ _ _ h
  intro entries
  induction entries with
  | nil => intro bs t h; cases h
  | cons entry rest ih =>
    intro bs t h
    unfold writeUnder at h
    split at h
    · cases h
    · rename_i n rest' eq
      cases eq
      split at h
      · cases h
      · have := ih _ _ h
        simp only [accept, List.length_cons] at *
        omega
    · rename_i rest' eq
      cases eq
      cases h
      simp [scripted]
    · rename_i e' rest' eq
      cases eq
      split at h
      · have := ih _ _ h
        simp only [List.length_cons]
        omega
      · cases h
        simp [scripted]

/-- A flush that fails has used up an entry. -/
theorem scripted_flush_of_error {s s' : Sink} {e : Failure} (h : s.flush = (.error e, s')) :
    s'.scripted < s.scripted := by
  unfold flush at h
  split at h
  · cases h
  · cases h
  · rename_i e' rest eq
    cases h
    simp [scripted, eq]

end Sink

end Columnar.ByteStream
