import Columnar.Shell.Arguments
import Columnar.Shell.Session

/-!
# The shell program

From the arguments to the exit code: the arguments are read, a connection is opened, and a session
runs over it. What the program prints is that of the session, except for the version.
-/

namespace Columnar.Shell

open ByteStream

/-- What is printed when the version is asked for. -/
def versionLine : String := "chwire 0.1.0\n"

/-- What is printed when help is asked for. -/
def usage : String :=
  "Usage: chwire [--host HOST] [--port PORT] [-d|--database NAME] [-u|--user NAME]\n" ++
  "              [--password TEXT] [--no-rethrow] [--timeout SECONDS]\n"

/-- The world in which the program runs. -/
structure World (ρ σ : Type) where
  arguments : List String
  /-- The password that the environment holds. -/
  password : Option String := none
  /-- The stream to the server; absent if no connection to it can be had. -/
  server : Option (Transport ρ)
  input : σ
  out : Sink := {}
  err : Sink := {}
  /-- The numbers of the prompts after which the program is interrupted. -/
  interrupts : List Nat := []

/-- How the program ends. -/
inductive Ending (ρ : Type) where
  | version
  | help
  | badArguments
  /-- No connection to the server could be had. -/
  | unreachable
  /-- The connection could not be opened; the transport shows what was sent. -/
  | rejected (e : ClientError) (t : Transport ρ)
  | finished (s : Session ρ)

/-- The exit code of the program. -/
def Ending.exitCode {ρ : Type} : Ending ρ → UInt8
  | .version | .help | .finished _ => 0
  | .unreachable | .rejected .. => 1
  | .badArguments => 2

variable {ρ σ : Type} [Reader ρ] [Reader σ]

/-- Opens a connection and runs a session over it; no connection can be had in no time. -/
def World.serve (w : World ρ σ) (arguments : Arguments) : Ending ρ :=
  match QueryIds.create {} with
  | (counter, ids) =>
    let options := arguments.options w.password counter
    match w.server, options.connectTimeout with
    | none, _ | _, some 0 => .unreachable
    | some transport, _ =>
      match Connection.handshake options transport with
      | (.error e, transport) => .rejected e transport
      | (.ok connection, _) =>
        let session : Session ρ :=
          { connection, ids, printer := { out := w.out, err := w.err } }
        .finished (session.run w.interrupts 0 w.input)

/-- Runs the program. -/
def World.run (w : World ρ σ) : Ending ρ :=
  match Invocation.parse w.arguments with
  | .run arguments => w.serve arguments
  | .version => .version
  | .help => .help
  | .refused => .badArguments

end Columnar.Shell
