import Columnar.ByteStream.Sink
import Columnar.Event

/-!
# Printing results

Blocks are printed as lines of texts with tabs between them: the names of the columns once, before
the first block that has columns, and then a line for each row. Exceptions go to a sink of their own.
A write that fails stops the printing of its block or exception; the first failure is remembered.
-/

namespace Columnar.Shell

open ByteStream

/-- Texts with tabs between them, as one line. -/
def tabbedLine (texts : List String) : String := "\t".intercalate texts ++ "\n"

/-- The line of the columns' names. -/
def headerLine (b : Block) : String := tabbedLine (b.columns.map NamedColumn.name)

/-- The line of a row's values. -/
def rowLine (b : Block) (row : Nat) : String :=
  tabbedLine (b.columns.map fun c => (c.column.text? row).getD "")

/-- The line of a record, indented by two blanks for each record that it is a cause of. -/
def exceptionLine (e : ExceptionRecord) (depth : Nat) : String :=
  String.ofList (List.replicate (2 * depth) ' ') ++ "Code: " ++ toString e.code.toInt ++ ". " ++
    e.message ++ "\n"

/-- The line above the lines of an exception's records. -/
def exceptionHeader : String := "Received exception from server:\n"

/--
Prints the rows from `row` on, of which `left` are left, up to the first line that is refused. A
block may have more rows than could be listed, so that only a refusal ends the printing.
-/
def printRows (b : Block) : (left row : Nat) → Sink → Except Failure Unit × Sink
  | 0, _, s => (.ok (), s)
  | left + 1, row, s =>
    match s.writeAll (Utf8.encode (rowLine b row)) with
    | (.ok (), s) => printRows b left (row + 1) s
    | (.error e, s) => (.error e, s)

/-- Prints the records of which the first has this depth, up to the first line that is refused. -/
def printRecords : List ExceptionRecord → (depth : Nat) → Sink → Except Failure Unit × Sink
  | [], _, s => (.ok (), s)
  | record :: causes, depth, s =>
    match s.writeAll (Utf8.encode (exceptionLine record depth)) with
    | (.ok (), s) => printRecords causes (depth + 1) s
    | (.error e, s) => (.error e, s)

/-- The sinks for results and exceptions, and what has been printed of the present result. -/
structure Printer where
  out : Sink
  err : Sink
  /-- How many rows have been printed, as far as 64 bits can tell. -/
  rows : UInt64 := 0
  headerPrinted : Bool := false
  failure : Option Failure := none

namespace Printer

/-- The printer at the beginning of a new result. -/
def reset (p : Printer) : Printer := { p with rows := 0, headerPrinted := false }

/-- The printer without what it has printed so far. -/
def forget (p : Printer) : Printer := { p with out := p.out.forget, err := p.err.forget }

/-- Remembers a failure unless one is remembered already. -/
def record (result : Except Failure Unit) (p : Printer) : Printer :=
  match result with
  | .ok () => p
  | .error e => { p with failure := p.failure.or (some e) }

/-- The failure that is remembered, which is then forgotten. -/
def takeFailure (p : Printer) : Option Failure × Printer := (p.failure, { p with failure := none })

/-- Prints the names of a block's columns if they are still to be printed. -/
def printHeader (b : Block) (p : Printer) : Except Failure Unit × Printer :=
  if p.headerPrinted || b.columns.isEmpty then (.ok (), p)
  else
    match p.out.writeAll (Utf8.encode (headerLine b)) with
    | (.ok (), out) => (.ok (), { p with out, headerPrinted := true })
    | (.error e, out) => (.error e, { p with out })

/-- Prints a block. -/
def printBlock (b : Block) (p : Printer) : Except Failure Unit × Printer :=
  match p.printHeader b with
  | (.error e, p) => (.error e, p)
  | (.ok (), p) =>
    match printRows b b.rowCount 0 p.out with
    | (.ok (), out) => (.ok (), { p with out, rows := p.rows + UInt64.ofNat b.rowCount })
    | (.error e, out) => (.error e, { p with out })

/-- Prints an exception: a line above, and a line for each record under it. -/
def printException (e : ServerException) (p : Printer) : Except Failure Unit × Printer :=
  match p.err.writeAll (Utf8.encode exceptionHeader) with
  | (.error e, err) => (.error e, { p with err })
  | (.ok (), err) =>
    match printRecords e.chain 0 err with
    | (result, err) => (result, { p with err })

/-- Flushes the results. -/
def flush (p : Printer) : Except Failure Unit × Printer :=
  match p.out.flush with
  | (result, out) => (result, { p with out })

/-- Prints what an event brings, and remembers a failure to do so. -/
def handle (p : Printer) : Event → Printer
  | .data block => let (result, p) := p.printBlock block; p.record result
  | .exception e => let (result, p) := p.printException e; p.record result
  | .finish => let (result, p) := p.flush; p.record result
  | .progress _ => p
  | .profile _ => p

/-- Prints what a list of events brings. -/
def handleAll (p : Printer) (events : List Event) : Printer := events.foldl handle p

/-- Puts a text among the results; unlike a result it cannot be refused. -/
def say (text : String) (p : Printer) : Printer := { p with out := p.out.put (Utf8.encode text) }

/-- Puts a text among the exceptions; unlike an exception it cannot be refused. -/
def complain (text : String) (p : Printer) : Printer :=
  { p with err := p.err.put (Utf8.encode text) }

/-- Saying something uses up entries of the output and adds none. -/
theorem scripted_say (text : String) (p : Printer) :
    (p.say text).out.scripted ≤ p.out.scripted := p.out.scripted_put _

/-- A complaint leaves the output alone. -/
@[simp] theorem out_complain (text : String) (p : Printer) : (p.complain text).out = p.out := rfl

/-- Printing rows uses up entries of the output and adds none. -/
theorem scripted_printRows (b : Block) (left row : Nat) (s : Sink) :
    (printRows b left row s).2.scripted ≤ s.scripted := by
  induction left generalizing row s with
  | zero => exact Nat.le_refl _
  | succ left ih =>
    have first := s.scripted_writeAll (Utf8.encode (rowLine b row))
    unfold printRows
    split
    · rename_i s' write
      exact Nat.le_trans (ih _ _) (by simpa [write] using first)
    · rename_i e s' write
      simpa [write] using first

/-- An exception is printed beside the output. -/
@[simp] theorem out_printException (e : ServerException) (p : Printer) :
    (p.printException e).2.out = p.out := by
  unfold printException
  split <;> rfl

/-- Taking note of a failure leaves the output alone. -/
@[simp] theorem out_record (result : Except Failure Unit) (p : Printer) :
    (p.record result).out = p.out := by
  unfold record
  split <;> rfl

/-- Printing the header uses up entries of the output and adds none. -/
theorem scripted_printHeader (b : Block) (p : Printer) :
    (p.printHeader b).2.out.scripted ≤ p.out.scripted := by
  have first := p.out.scripted_writeAll (Utf8.encode (headerLine b))
  unfold printHeader
  split
  · exact Nat.le_refl _
  · split <;> rename_i write <;> simpa [write] using first

/-- Printing a block uses up entries of the output and adds none. -/
theorem scripted_printBlock (b : Block) (p : Printer) :
    (p.printBlock b).2.out.scripted ≤ p.out.scripted := by
  have first := p.scripted_printHeader b
  unfold printBlock
  split
  · rename_i e p' header
    simpa [header] using first
  · rename_i p' header
    have rows := scripted_printRows b b.rowCount 0 p'.out
    rw [header] at first
    split <;> rename_i print <;> simp only [print] at rows <;> exact Nat.le_trans rows first

/-- Handling an event uses up entries of the output and adds none. -/
theorem scripted_handle (p : Printer) (event : Event) :
    (p.handle event).out.scripted ≤ p.out.scripted := by
  cases event with
  | data b => simpa [handle] using p.scripted_printBlock b
  | exception e => simp [handle]
  | finish => simpa [handle, flush] using p.out.scripted_flush
  | progress => exact Nat.le_refl _
  | profile => exact Nat.le_refl _

/-- Handling events uses up entries of the output and adds none. -/
theorem scripted_handleAll (p : Printer) (events : List Event) :
    (p.handleAll events).out.scripted ≤ p.out.scripted := by
  induction events generalizing p with
  | nil => exact Nat.le_refl _
  | cons event events ih => exact Nat.le_trans (ih _) (p.scripted_handle event)

end Printer

end Columnar.Shell
