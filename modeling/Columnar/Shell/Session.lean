import Columnar.Connection
import Columnar.Shell.Printer
import Columnar.Shell.Prompt

/-!
# Shell sessions

A session reads commands and carries them out over one connection, until it is told to exit, its
input ends, or the connection is lost. What it cannot understand it complains about and goes on.
Every round uses up some of the input or some of what is laid down for the output, so a session ends.
-/

namespace Columnar.Shell

open ByteStream

/-- A shell with its connection, the state of the query ids, and its output. -/
structure Session (ρ : Type) where
  connection : Connection ρ
  ids : QueryIds
  printer : Printer

namespace Session

variable {ρ σ : Type}

/-- The session after it has printed something. -/
def print (f : Printer → Printer) (s : Session ρ) : Session ρ := { s with printer := f s.printer }

/-- Printing leaves the connection alone. -/
@[simp] theorem connection_print (f : Printer → Printer) (s : Session ρ) :
    (s.print f).connection = s.connection := rfl

/-- Printing leaves the ids alone. -/
@[simp] theorem ids_print (f : Printer → Printer) (s : Session ρ) : (s.print f).ids = s.ids := rfl

variable [Reader ρ] [Reader σ]

/-- A line that says how a query ended; an exception has been printed already. -/
def report (result : Except ClientError Outcome) (p : Printer) : Printer :=
  match result with
  | .ok .finished => p.say ("\n" ++ toString p.rows.toNat ++ " rows in set.\n")
  | .ok .serverException => p
  | .error (.server _) => p
  | .error e => p.complain ("query error: " ++ e.message ++ "\n")

/-- A line that says why printing failed, if it did. -/
def reportFailure (p : Printer) : Printer :=
  match p.takeFailure with
  | (none, p) => p
  | (some e, p) => p.complain ("failed to print results: " ++ e.text ++ "\n")

/-- A line about the server. -/
def serverLine (info : ServerInfo) : String :=
  info.name ++ " " ++ toString info.versionMajor.toNat ++ "." ++ toString info.versionMinor.toNat ++
    " revision " ++ toString info.revision.toNat ++ " timezone " ++ info.timezone.getD "-" ++ "\n"

/-- Runs a query and prints its results. -/
def query (text : String) (s : Session ρ) : Session ρ :=
  match s.connection.execute { text } s.ids with
  | ((events, result), connection, ids) =>
    { connection, ids,
      printer := reportFailure (report result (s.printer.reset.handleAll events)) }

/-- Asks the server for a sign of life. -/
def ping (s : Session ρ) : Session ρ :=
  match s.connection.ping with
  | (.ok (), connection) => { s with connection }.print (Printer.say "pong\n")
  | (.error e, connection) =>
    { s with connection }.print (Printer.complain ("ping failed: " ++ e.message ++ "\n"))

/-- Carries out a command that does not end the session. -/
def obey (s : Session ρ) : Command → Session ρ
  | .exit => s
  | .ping => s.ping
  | .serverInfo => s.print (Printer.say (serverLine s.connection.server))
  | .query text => s.query text

/-- Deals with what was read, and tells whether the session goes on. -/
def turn (s : Session ρ) : Except CommandError Command → Bool × Session ρ
  | .error .empty => (true, s)
  | .error e => (true, s.print (Printer.complain (e.message ++ "\n")))
  | .ok .exit => (false, s)
  | .ok command =>
    let s := s.obey command
    if s.connection.isUsable then (true, s)
    else (false, s.print (Printer.complain "connection lost\n"))

/-- The session after it has been interrupted; its connection has been shut down. -/
def interrupt (s : Session ρ) : Session ρ :=
  { s with connection := s.connection.shutDown }.print
    (Printer.complain "interrupted, closing connection\n")

/-- How much is laid down for the output of results. -/
def scripted (s : Session ρ) : Nat := s.printer.out.scripted

/-- A report uses up entries of the output and adds none. -/
theorem scripted_report (result : Except ClientError Outcome) (p : Printer) :
    (report result p).out.scripted ≤ p.out.scripted := by
  unfold report
  split
  · exact p.scripted_say _
  · exact Nat.le_refl _
  · exact Nat.le_refl _
  · exact Nat.le_of_eq (congrArg Sink.scripted (Printer.out_complain _ _))

/-- The report of a failure leaves the output alone. -/
theorem out_reportFailure (p : Printer) : (reportFailure p).out = p.out := by
  have same : p.takeFailure.2.out = p.out := rfl
  unfold reportFailure
  split <;> rename_i taken <;> rw [taken] at same
  · exact same
  · exact (Printer.out_complain _ _).trans same

/-- Carrying out a command uses up entries of the output and adds none. -/
theorem scripted_obey (s : Session ρ) (command : Command) :
    (s.obey command).scripted ≤ s.scripted := by
  cases command with
  | exit => exact Nat.le_refl _
  | ping =>
    simp only [obey, ping]
    split <;> simp only [scripted, print]
    · exact Printer.scripted_say _ _
    · exact Nat.le_of_eq (congrArg Sink.scripted (Printer.out_complain _ _))
  | serverInfo =>
    simp only [obey, scripted, print]
    exact Printer.scripted_say _ _
  | query text =>
    simp only [obey, query, scripted, out_reportFailure]
    exact Nat.le_trans (scripted_report _ _) (Printer.scripted_handleAll _ _)

/-- A turn uses up entries of the output and adds none. -/
theorem scripted_turn (s : Session ρ) (read : Except CommandError Command) :
    (s.turn read).2.scripted ≤ s.scripted := by
  unfold turn
  split
  · exact Nat.le_refl _
  · exact Nat.le_of_eq (congrArg Sink.scripted (Printer.out_complain _ _))
  · exact Nat.le_refl _
  · dsimp only
    split
    · exact s.scripted_obey _
    · simpa only [scripted, print, Printer.out_complain] using s.scripted_obey _

/-- A prompt that fails has used up an entry of the output. -/
theorem scripted_of_announce {out out' : Sink} {e : Failure}
    (h : announce out = (.error e, out')) : out'.scripted < out.scripted := by
  unfold announce at h
  split at h
  · rename_i s write
    have bound := out.scripted_writeAll (Utf8.encode promptText)
    rw [write] at bound
    exact Nat.lt_of_lt_of_le (Sink.scripted_flush_of_error h) bound
  · rename_i write
    cases h
    exact Sink.scripted_writeAll_of_error write

/-- A prompt uses up entries of the output and adds none. -/
theorem scripted_announce (out : Sink) : (announce out).2.scripted ≤ out.scripted := by
  have bound := out.scripted_writeAll (Utf8.encode promptText)
  unfold announce
  split
  · rename_i s write
    rw [write] at bound
    exact Nat.le_trans s.scripted_flush bound
  · rename_i e s write
    rw [write] at bound
    exact bound

/-- A command that does not end the session has taken some of the input. -/
theorem remaining_readCommand {input : σ} (h : (readCommand input).1 ≠ .ok .exit) :
    Reader.remaining (readCommand input).2 < Reader.remaining input := by
  have cost := remaining_readLine input
  unfold readCommand at *
  split at h
  · rename_i line input' read
    rw [read] at cost
    refine cost ?_
    rintro ⟨⟩
    simp [Command.ofLine] at h
  · rename_i e input' read
    rw [read] at cost
    exact cost (by simp)

/--
Runs the session to its end. It is interrupted right after the prompts whose numbers are in
`interrupts`; `shown` prompts have been shown before.
-/
def run (interrupts : List Nat) (shown : Nat) (input : σ) (s : Session ρ) : Session ρ :=
  match _shows : announce s.printer.out with
  | (.error e, out) =>
    run interrupts shown input
      ({ s with printer := { s.printer with out } }.turn (.error (.failed e))).2
  | (.ok (), out) =>
    let shown := shown + 1
    let s' : Session ρ := { s with printer := { s.printer with out } }
    let s' := if shown ∈ interrupts then s'.interrupt else s'
    match _reads : readCommand input with
    | (read, input') =>
      match _turns : s'.turn read with
      | (true, s'') => run interrupts shown input' s''
      | (false, s'') => s''
termination_by Reader.remaining input + s.scripted
decreasing_by
  · have bound := scripted_of_announce _shows
    simpa [turn, print, scripted] using bound
  · have less : (readCommand input).1 ≠ .ok .exit → _ := remaining_readCommand
    rw [_reads] at less
    have shorter := scripted_announce s.printer.out
    rw [_shows] at shorter
    have bound := scripted_turn s' read
    rw [_turns] at bound
    have same : s'.scripted = out.scripted := by
      simp only [s']
      split <;> rfl
    have := less (by rintro rfl; simp [turn] at _turns)
    simp only [scripted] at *
    omega

end Session

end Columnar.Shell
