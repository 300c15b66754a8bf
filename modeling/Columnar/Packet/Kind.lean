/-!
# Kinds of packet

Every packet begins with a code that tells its kind; the two sides have codes of their own. Which of
a server's packets may come, and which of them end the wait, depends on the phase of the exchange.
-/

namespace Columnar

/-- The kinds of packet that a client sends. -/
inductive RequestKind where
  | hello
  | query
  | data
  | cancel
  | ping
  deriving DecidableEq, Repr

/-- The code of a client's packet. -/
def RequestKind.code : RequestKind → UInt64
  | .hello => 0
  | .query => 1
  | .data => 2
  | .cancel => 3
  | .ping => 4

/-- The kinds of packet that a server sends. -/
inductive PacketKind where
  | hello
  | data
  | exception
  | progress
  | pong
  | endOfStream
  | profileInfo
  deriving DecidableEq, Repr

namespace PacketKind

/-- The code of a server's packet. -/
def code : PacketKind → UInt64
  | .hello => 0
  | .data => 1
  | .exception => 2
  | .progress => 3
  | .pong => 4
  | .endOfStream => 5
  | .profileInfo => 6

/-- All kinds. -/
def all : List PacketKind :=
  [.hello, .data, .exception, .progress, .pong, .endOfStream, .profileInfo]

/-- The kind that has this code. -/
def ofCode? (code : UInt64) : Option PacketKind := all.find? fun k => k.code == code

/-- The name of the kind. -/
def name : PacketKind → String
  | .hello => "Hello"
  | .data => "Data"
  | .exception => "Exception"
  | .progress => "Progress"
  | .pong => "Pong"
  | .endOfStream => "EndOfStream"
  | .profileInfo => "ProfileInfo"

end PacketKind

/-- The phases of an exchange, each of which waits for other packets. -/
inductive Phase where
  /-- A connection is being opened. -/
  | opening
  /-- A query runs. -/
  | result
  /-- An insert waits for the description of the table. -/
  | readiness
  /-- A ping waits for its answer. -/
  | pong
  deriving DecidableEq, Repr

namespace Phase

/-- What the phase waits for, in words. -/
def expectation : Phase → String
  | .opening => "server hello"
  | .result => "response packet"
  | .readiness => "data or progress before insert"
  | .pong => "pong"

/-- A packet of this kind may come. -/
def accepts : Phase → PacketKind → Bool
  | .opening, k => k == .hello || k == .exception
  | .readiness, k => k == .progress || k == .data || k == .exception
  | .result, k | .pong, k => k != .hello

/-- A packet of this kind ends the phase. -/
def endsWith : Phase → PacketKind → Bool
  | .opening, _ => true
  | .readiness, k => k == .data || k == .exception
  | .result, k => k == .endOfStream || k == .exception
  | .pong, k => k == .pong || k == .endOfStream || k == .exception

end Phase

end Columnar
