import Columnar.ByteStream.Inbox
import Columnar.Shell.Program
import Std.Async.DNS
import Std.Async.Signal
import Std.Async.TCP
import Std.Async.Timer

/-!
# The command line

The shell over a socket and the standard streams. What the library computes is computed from the
bytes that have arrived so far, and once more when it found that it needed further ones; what it
wants to be written is written as soon as it is known.
-/

namespace Columnar.Main

open ByteStream Shell

/-- The other side of a stream: how bytes reach it, and how more of its bytes are waited for. -/
structure Peer where
  send : Bytes → IO Unit
  /-- No bytes mean that the stream has ended. -/
  await : IO Bytes

/-- A failing call as the library knows it. -/
def failureOf (e : IO.Error) : Failure :=
  match e with
  | .resourceVanished .. => .brokenPipe
  | .timeExpired .. => ⟨.timedOut, toString e⟩
  | _ => ⟨.other, toString e⟩

/-- Runs what depends on an inbox until it has all the bytes that it needs. -/
partial def withInbox {α : Type} (peer : Peer) (inbox : Inbox) (step : Inbox → α)
    (after : α → Inbox) (act : α → IO Unit) : IO α := do
  let result := step { inbox with starved := false }
  act result
  if !(after result).starved then return result
  match ← peer.await.toBaseIO with
  | .ok [] => return result
  | .ok bs => withInbox peer (inbox.add bs) step after act
  | .error e => return step { inbox with failure := some (failureOf e) }

/-- What a transport still has to read. -/
def inboxOf (t : Transport Inbox) : Inbox :=
  { t.input.inner with arrived := t.input.held ++ t.input.inner.arrived }

/-- The transport with another inbox to read from. -/
def withInput (inbox : Inbox) (t : Transport Inbox) : Transport Inbox :=
  { t with input := { inner := inbox } }

/-- Sends what a sink has accepted and the peer has not got yet. -/
def sendNew (peer : Peer) (sent : IO.Ref Nat) (s : Sink) : IO Unit := do
  let fresh := s.accepted.drop (← sent.get)
  if !fresh.isEmpty then
    sent.modify (· + fresh.length)
    peer.send fresh

/-- Runs what depends on a transport; if something cannot be sent, once more so that it fails. -/
def overSocket {α : Type} (peer : Peer) (t : Transport Inbox) (step : Transport Inbox → α)
    (transport : α → Transport Inbox) : IO α := do
  let t := t.forget
  let sent ← IO.mkRef 0
  let attempt := withInbox peer (inboxOf t) (fun inbox => step (withInput inbox t))
    (inboxOf ∘ transport) (fun result => sendNew peer sent (transport result).sink)
  match ← attempt.toBaseIO with
  | .ok result => return result
  | .error e => return step { t with sink := { t.sink with writes := [.failure (failureOf e)] } }

/-- Waits for something, but only for so many milliseconds. -/
def within {α : Type} [Inhabited α] (limit : Option Nat) (action : Std.Async.Async α) : IO α :=
  match limit with
  | none => action.block
  | some ms =>
    (Std.Async.Async.race action do
      Std.Async.sleep (.ofNat ms)
      throw (.timeExpired 0 "timed out")).block

/-- Opens a socket to the first of the host's addresses that can be reached. -/
def openSocket (o : Options) : IO Std.Async.TCP.Socket.Client := do
  if let some e := o.lookupFailure? then throw (.userError e.text)
  let addresses ← (Std.Async.DNS.getAddrInfo o.host (toString o.port)).block
  let mut last : IO.Error := .userError ("'" ++ o.host ++ "' did not resolve to any address")
  for address in addresses do
    let target : Std.Net.SocketAddress := match address with
      | .v4 addr => .v4 ⟨addr, o.port⟩
      | .v6 addr => .v6 ⟨addr, o.port⟩
    try
      let socket ← Std.Async.TCP.Socket.Client.mk
      within o.connectTimeout (socket.connect target)
      socket.noDelay
      return socket
    catch e => last := e
  throw last

/-- The other side of a socket. -/
def socketPeer (o : Options) (socket : Std.Async.TCP.Socket.Client) : Peer where
  send bs := within o.writeTimeout (socket.send ⟨bs.toArray⟩)
  await := do
    match ← within o.readTimeout (socket.recv? 65536) with
    | some bytes => return bytes.toList
    | none => return []

/-- Whoever types commands. -/
def inputPeer (input : IO.FS.Stream) : Peer where
  send _ := pure ()
  await := return (← input.read 4096).toList

/-- Writes what a sink has accepted. -/
def writeOut (stream : IO.FS.Stream) (s : Sink) : IO Unit := do
  stream.write ⟨s.accepted.toArray⟩
  stream.flush

/-- Shows what a printer has printed; the printer that is left has printed nothing yet. -/
def showPrinted (p : Printer) : IO Printer := do
  writeOut (← IO.getStdout) p.out
  writeOut (← IO.getStderr) p.err
  return p.forget

/-- Prompts, reads a command and carries it out, until the session ends. -/
partial def converse (peer input : Peer) (cancelled : IO.Ref Bool) (typed : Inbox)
    (s : Session Inbox) : IO Unit := do
  let (_, out) := announce s.printer.out
  let prompted := { s with printer := ← showPrinted { s.printer with out } }
  let (read, typed) ← withInbox input typed readCommand Prod.snd fun _ => pure ()
  let before := prompted.connection
  let before := if ← cancelled.get then before.shutDown else before
  let (goesOn, after) ← overSocket peer before.transport
    (fun t => { prompted with connection := { before with transport := t } }.turn read)
    (fun result => result.2.connection.transport)
  let after := { after with printer := ← showPrinted after.printer }
  if goesOn then converse peer input cancelled typed after

/-- Closes the socket when the program is interrupted. -/
def watch (socket : Std.Async.TCP.Socket.Client) (cancelled : IO.Ref Bool) : IO Unit := do
  let waiter ← Std.Async.Signal.Waiter.mk .sigint true
  let task ← waiter.wait
  let _ ← IO.mapTask (t := task) fun _ => do
    (← IO.getStderr).putStrLn "interrupted, closing connection"
    cancelled.set true
    socket.shutdown.block

/-- Runs the shell with arguments that were understood. -/
def serve (arguments : Arguments) : IO UInt32 := do
  let (counter, ids) := QueryIds.create {}
  let options := arguments.options (← IO.getEnv "CHWIRE_PASSWORD") counter
  if options.connectTimeout = some 0 then
    IO.eprintln "cannot connect in no time"
    return 1
  let socket ← openSocket options
  let peer := socketPeer options socket
  let (opened, _) ← overSocket peer (.ofStream {} {}) (Connection.handshake options) Prod.snd
  match opened with
  | .error e =>
    IO.eprintln e.message
    return 1
  | .ok connection =>
    let cancelled ← IO.mkRef false
    watch socket cancelled
    let session : Session Inbox := { connection, ids, printer := { out := {}, err := {} } }
    converse peer (inputPeer (← IO.getStdin)) cancelled {} session
    return 0

/-- Runs the program. -/
def run (arguments : List String) : IO UInt32 := do
  match Invocation.parse arguments with
  | .run a =>
    match ← (serve a).toBaseIO with
    | .ok code => return code
    | .error e =>
      IO.eprintln (toString e)
      return 1
  | .version =>
    IO.print versionLine
    return 0
  | .help =>
    IO.print usage
    return 0
  | .refused =>
    IO.eprint usage
    return 2

end Columnar.Main

def main (arguments : List String) : IO UInt32 := Columnar.Main.run arguments
