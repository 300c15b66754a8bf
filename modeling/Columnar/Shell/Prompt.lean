import Columnar.ByteStream.Line
import Columnar.ByteStream.Sink
import Columnar.Shell.Command
import Columnar.Text.Utf8

/-!
# Prompting

The shell shows that it waits for a command and then reads a line. The end of the input asks it to
exit.
-/

namespace Columnar.Shell

open ByteStream

/-- What shows that the shell waits. -/
def promptText : String := ":) "

/-- Shows that the shell waits. -/
def announce (out : Sink) : Except Failure Unit × Sink :=
  match out.writeAll (Utf8.encode promptText) with
  | (.ok (), out) => out.flush
  | (.error e, out) => (.error e, out)

/-- The command that the bytes of a line stand for; only at the end of the input are there none. -/
def Command.ofLine (line : Bytes) : Except CommandError Command :=
  if line = [] then .ok .exit
  else
    match Utf8.decode line with
    | .ok text => Command.parse text
    | .error _ => .error (.failed .invalidUtf8)

/-- Reads a command; a line is consumed whatever it holds. -/
def readCommand {σ : Type} [Reader σ] (input : σ) : Except CommandError Command × σ :=
  match readLine input with
  | (.ok line, input) => (Command.ofLine line, input)
  | (.error e, input) => (.error (.failed e), input)

/-- Shows that the shell waits, and reads a command. -/
def prompt {σ : Type} [Reader σ] (input : σ) (out : Sink) :
    Except CommandError Command × σ × Sink :=
  match announce out with
  | (.error e, out) => (.error (.failed e), input, out)
  | (.ok (), out) =>
    match readCommand input with
    | (result, input) => (result, input, out)

end Columnar.Shell
