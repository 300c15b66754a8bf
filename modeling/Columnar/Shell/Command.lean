import Columnar.ByteStream.Basic
import Columnar.Text.Blank

/-!
# Shell commands

A line that begins with a point is a command to the shell; any other is a query. Blanks around a line
do not count, nor do the semicolons at the end of a query.
-/

namespace Columnar.Shell

/-- What can be asked of the shell. -/
inductive Command where
  | exit
  | ping
  | serverInfo
  | query (text : String)
  deriving DecidableEq, Repr

/-- Why no command was understood. -/
inductive CommandError where
  | unrecognized (line : String)
  | empty
  | failed (e : ByteStream.Failure)
  deriving DecidableEq, Repr

/-- The error in words. -/
def CommandError.message : CommandError → String
  | .unrecognized line => "unrecognized command '" ++ line ++ "'"
  | .empty => "no command provided"
  | .failed e => "failed to read command: " ++ e.text

/-- The commands to the shell and how they are spelt. -/
def Command.spellings : List (String × Command) :=
  [(".exit", .exit), (".quit", .exit), (".ping", .ping), (".server", .serverInfo)]

/-- The command that the characters between the blanks of a line stand for. -/
def Command.ofTrimmed (cs : List Char) : Except CommandError Command :=
  match cs with
  | [] => .error .empty
  | '.' :: _ =>
    match spellings.lookup (String.ofList cs) with
    | some command => .ok command
    | none => .error (.unrecognized (String.ofList cs))
  | _ => .ok (.query (String.ofList (Text.dropTrailing (· == ';') cs)))

/-- The command that a line stands for. -/
def Command.parse (line : String) : Except CommandError Command := ofTrimmed (Text.trim line.toList)

end Columnar.Shell
