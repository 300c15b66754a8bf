import Columnar.Block
import Columnar.Packet.Kind
import Columnar.ServerException

/-!
# Client errors

Why a request failed. Either the stream failed, or what came over it broke the protocol, or the
server reported an exception; a failure while a connection is opened is wrapped to say so. Bytes that
encode no value break the protocol, so they are never reported as a failure of the stream.
-/

namespace Columnar

/-- How the bytes that came break the protocol. -/
inductive ProtocolError where
  | unknownPacket (code : UInt64)
  | unexpectedPacket (during : Phase) (received : PacketKind)
  | unknownColumnType (name : String)
  | unknownBlockInfoField (field : UInt64)
  | malformed (reason : Wire.Malformation)
  | block (e : BlockError)
  deriving DecidableEq, Repr

/-- The error in words. -/
def ProtocolError.message : ProtocolError → String
  | .unknownPacket code => "unknown server packet code " ++ toString code.toNat
  | .unexpectedPacket during received =>
    "expected " ++ during.expectation ++ ", received " ++ received.name ++ " packet"
  | .unknownColumnType name => "unsupported column type '" ++ name ++ "'"
  | .unknownBlockInfoField field => "unknown block info field " ++ toString field.toNat
  | .malformed reason => "malformed packet: " ++ reason.message
  | .block e => "invalid block: " ++ e.message

/-- The texts of the errors below this one. -/
def ProtocolError.sources : ProtocolError → List String
  | .block e => [e.message]
  | _ => []

/-- Why a request failed. -/
inductive ClientError where
  | transport (e : Wire.Error)
  | protocol (e : ProtocolError)
  | server (e : ServerException)
  /-- The failure of opening a connection. -/
  | handshake (e : ClientError)
  /-- The response of another request has not been received to its end. -/
  | busy
  | disconnected
  deriving DecidableEq, Repr

namespace ClientError

/-- An error of reading or writing a value; bytes that encode none break the protocol. -/
def ofWire : Wire.Error → ClientError
  | .malformed reason => .protocol (.malformed reason)
  | e => .transport e

/-- A failing call. -/
def ofFailure (e : ByteStream.Failure) : ClientError := .ofWire (.ofFailure e)

/-- The error in words. -/
def message : ClientError → String
  | .transport e => "transport error: " ++ e.message
  | .protocol e => "protocol error: " ++ e.message
  | .server e => "server exception: " ++ e.message
  | .handshake e => "handshake failed: " ++ e.message
  | .busy => "a previous response has not been fully received"
  | .disconnected => "connection is closed"

/-- The exception that the server reported, if it did, also while the connection was opened. -/
def exception? : ClientError → Option ServerException
  | .server e => some e
  | .handshake e => e.exception?
  | _ => none

/-- The texts of the errors below this one, from the outer to the inner. -/
def sources : ClientError → List String
  | .transport e => e.message :: e.sources
  | .protocol e => e.message :: e.sources
  | .server e => e.message :: e.sources
  | .handshake e => e.message :: e.sources
  | .busy => []
  | .disconnected => []

end ClientError

end Columnar
