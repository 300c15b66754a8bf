/-!
# Bytes and failures of byte streams

The vocabulary shared by both directions of a stream: byte strings, and the failure that a single
read, write or flush call can report. A failure is a kind, on which programs decide, and a text,
which they only show.
-/

namespace Columnar

/-- A byte string. -/
abbrev Bytes := List UInt8

namespace ByteStream

/-- The kinds of failure that a read, write or flush call reports. -/
inductive FailureKind where
  | unexpectedEof
  | connectionReset
  | connectionRefused
  | timedOut
  | wouldBlock
  | brokenPipe
  | notConnected
  | interrupted
  | invalidInput
  | invalidData
  | writeZero
  | other
  deriving DecidableEq, Repr, Inhabited

/-- What a failing call reports: a kind and the text shown to people. -/
structure Failure where
  kind : FailureKind
  text : String
  deriving DecidableEq, Repr, Inhabited

/-- The failure of a writer that accepts no byte of what it is given. -/
def Failure.writeZero : Failure := ⟨.writeZero, "failed to write whole buffer"⟩

/-- The failure of writing to a socket whose connection has been shut down. -/
def Failure.brokenPipe : Failure := ⟨.brokenPipe, "Broken pipe (os error 32)"⟩

/-- The failure of reading text that is not UTF-8. -/
def Failure.invalidUtf8 : Failure := ⟨.invalidData, "stream did not contain valid UTF-8"⟩

/-- The failure of looking up a host whose name holds a NUL character. -/
def Failure.nulInName : Failure :=
  ⟨.invalidInput, "file name contained an unexpected NUL byte"⟩

end ByteStream

end Columnar
