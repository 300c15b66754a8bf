import Columnar.ByteStream.Basic
import Columnar.QueryId

/-!
# Client options

What a client tells the server about itself and how it wants to be treated. All connections that are
opened with the same options draw their query ids from the same counter.
-/

namespace Columnar

/-- The port of the native protocol. -/
def defaultPort : UInt16 := 9000

/-- The name under which this client introduces itself. -/
def defaultClientName : String := "ClickHouse client"

/-- How a client connects and what it asks for. -/
structure Options where
  host : String := "localhost"
  port : UInt16 := defaultPort
  database : String := "default"
  user : String := "default"
  password : String := ""
  quotaKey : String := ""
  clientName : String := defaultClientName
  /-- Server exceptions are raised as errors and not only reported. -/
  rethrow : Bool := true
  /-- Milliseconds after which connecting, reading or writing is given up. -/
  connectTimeout : Option Nat := none
  readTimeout : Option Nat := none
  writeTimeout : Option Nat := none
  queryIds : IdCounter
  deriving DecidableEq, Repr

namespace Options

/-- The options with one timeout for connecting, reading and writing. -/
def withTimeout (o : Options) (milliseconds : Nat) : Options :=
  { o with
    connectTimeout := some milliseconds
    readTimeout := some milliseconds
    writeTimeout := some milliseconds }

/-- The options with a user and that user's password. -/
def withCredentials (o : Options) (user password : String) : Options := { o with user, password }

/-- Why the host cannot be looked up, if that is known before anyone is asked. -/
def lookupFailure? (o : Options) : Option ByteStream.Failure :=
  if o.host.toList.contains '\x00' then some .nulInName else none

end Options

end Columnar
