import Columnar.Event
import Columnar.Packet.Client
import Columnar.Transport

/-!
# Connections

A connection runs one exchange at a time: it sends a request and receives packets until one ends the
response. If the response was received to its end, the connection is idle again; otherwise nobody
knows where in the stream it stands, so it is disconnected for good.
-/

namespace Columnar

open ByteStream

/-- What a connection is doing. -/
inductive ConnectionState where
  | disconnected
  | handshaking
  | idle
  | inFlight
  deriving DecidableEq, Repr

/-- A query and whether its server exceptions are raised, if the options are not to decide. -/
structure Query where
  text : String
  rethrow : Option Bool := none
  deriving DecidableEq, Repr

/-- How a query ended that did not fail. -/
inductive Outcome where
  | finished
  /-- The server reported an exception, which was not to be raised. -/
  | serverException
  deriving DecidableEq, Repr

/-- A client's end of a stream on which the two sides have agreed on a revision. -/
structure Connection (ρ : Type) where
  transport : Transport ρ
  options : Options
  registry : Registry
  server : ServerInfo
  revision : Revision
  state : ConnectionState

namespace Connection

variable {ρ : Type}

/-- A request can be made. -/
def isUsable (c : Connection ρ) : Bool := c.state == .idle

/-- The connection with another registry for the columns of results. -/
def withRegistry (registry : Registry) (c : Connection ρ) : Connection ρ := { c with registry }

/-- The connection at the beginning of an exchange, or why none can begin. -/
def start (c : Connection ρ) : Except ClientError (Connection ρ) :=
  match c.state with
  | .idle => .ok { c with state := .inFlight }
  | .inFlight => .error .busy
  | .disconnected | .handshaking => .error .disconnected

/-- The connection at the end of an exchange whose response was received to its end or not. -/
def settle (drained : Bool) (c : Connection ρ) : Connection ρ :=
  { c with state := if drained then .idle else .disconnected }

/-- Stages packets and flushes them. -/
def send (packets : List Request) (c : Connection ρ) : Except ClientError Unit × Connection ρ :=
  match (c.transport.stage (Request.encodeAll c.revision packets)).flush with
  | (result, transport) => (result.mapError .ofFailure, { c with transport })

variable [Reader ρ]

/-- Receives packets until one ends the phase: those before it, and that one or the error. -/
def receive (phase : Phase) (c : Connection ρ) :
    (List Packet × Except ClientError Packet) × Connection ρ :=
  match c.transport.receive (phase.receive c.revision c.registry : Wire.Decoder _ Empty _) with
  | (.ok response, transport) => (response, { c with transport })

/-- Sends packets and receives the response to them. -/
def exchange (packets : List Request) (phase : Phase) (c : Connection ρ) :
    (List Packet × Except ClientError Packet) × Connection ρ :=
  match c.send packets with
  | (.ok (), c) => c.receive phase
  | (.error e, c) => (([], .error e), c)

/-- Reads the server's first packet, which fixes the revision unless it is an exception. -/
def readHello (t : Transport ρ) : Except ClientError ServerInfo × Transport ρ :=
  match t.receive (Packet.decode .opening Revision.client .builtin) with
  | (.ok (.hello info), t) => (.ok info, t)
  | (.ok (.exception e), t) => (.error (.server e), t)
  | (.ok other, t) => (.error (.protocol (.unexpectedPacket .opening other.kind)), t)
  | (.error e, t) => (.error e, t)

/-- Introduces the client over a fresh transport; the transport is handed on however this ends. -/
def handshake (options : Options) (t : Transport ρ) :
    Except ClientError (Connection ρ) × Transport ρ :=
  match (t.stage ((Request.helloOf options).encode .client)).flush with
  | (.error e, t) => (.error (.handshake (.ofFailure e)), t)
  | (.ok (), t) =>
    match readHello t with
    | (.error e, t) => (.error (.handshake e), t)
    | (.ok server, t) =>
      let revision := Revision.negotiate server.revision
      (.ok { transport := t, options, registry := .builtin, server, revision, state := .idle }, t)

/-- The result of a query whose response ended so. -/
def outcome (rethrow : Bool) : Except ClientError Packet → Except ClientError Outcome
  | .ok (.exception e) => if rethrow then .error (.server e) else .ok .serverException
  | .ok _ => .ok .finished
  | .error e => .error e

/-- Runs a query: what is learnt on the way, and how it ends. -/
def execute (query : Query) (c : Connection ρ) (ids : QueryIds) :
    (List Event × Except ClientError Outcome) × Connection ρ × QueryIds :=
  match c.start with
  | .error e => (([], .error e), c, ids)
  | .ok c =>
    match ids.draw c.options.queryIds with
    | (id, ids) =>
      match c.exchange (Request.startQuery c.options id query.text) .result with
      | ((before, last), c) =>
        let rethrow := query.rethrow.getD c.options.rethrow
        ((Event.ofResponse before last, outcome rethrow last), c.settle last.isOk, ids)

/-- Inserts a block once the server has described the table; an exception is always raised. -/
def insert (table : String) (block : Block) (c : Connection ρ) (ids : QueryIds) :
    Except ClientError Unit × Connection ρ × QueryIds :=
  match c.start with
  | .error e => (.error e, c, ids)
  | .ok c =>
    match ids.draw c.options.queryIds with
    | (id, ids) =>
      match c.exchange (Request.startQuery c.options id (insertQuery table)) .readiness with
      | ((_, .error e), c) => (.error e, c.settle false, ids)
      | ((_, .ok (.exception e)), c) => (.error (.server e), c.settle true, ids)
      | ((_, .ok _), c) =>
        match c.exchange (Request.insertRows block) .result with
        | ((_, last), c) => ((outcome true last).map fun _ => (), c.settle last.isOk, ids)

/-- Asks for a sign of life; an exception is always raised. -/
def ping (c : Connection ρ) : Except ClientError Unit × Connection ρ :=
  match c.start with
  | .error e => (.error e, c)
  | .ok c =>
    match c.exchange [.ping] .pong with
    | ((_, last), c) => ((outcome true last).map fun _ => (), c.settle last.isOk)

/-- The connection after its stream has been shut down; the next request fails when it is sent. -/
def shutDown (c : Connection ρ) : Connection ρ := { c with transport := c.transport.shutDown }

end Connection

end Columnar
