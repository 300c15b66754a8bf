import Columnar.Text.Utf8

/-!
# Wire errors

Why a value could not be read from a stream or written onto one. A stream that ends within a value
is always `truncated`, however its end was reported.
-/

namespace Columnar.Wire

open ByteStream

/-- What is wrong with bytes that are there but encode no value. -/
inductive Malformation where
  | varintTooLarge
  | notABool (byte : UInt8)
  | notUtf8 (fault : Utf8.Fault)
  /-- A fault that a value of some other encoding describes itself. -/
  | described (text : String)
  deriving DecidableEq, Repr

/-- The malformation in words. -/
def Malformation.message : Malformation → String
  | .varintTooLarge => "varint does not fit in 64 bits"
  | .notABool byte => "InvalidBooleanValue(" ++ toString byte.toNat ++ ")"
  | .notUtf8 fault => fault.message
  | .described text => text

/-- Why a value could not be read or written. -/
inductive Error where
  /-- A value of fixed width could not be written. -/
  | unwritten
  | truncated
  | malformed (reason : Malformation)
  | failed (e : Failure)
  deriving DecidableEq, Repr

/-- The error in words. -/
def Error.message : Error → String
  | .unwritten => "failed to encode value"
  | .truncated => "stream ended before a complete value was read"
  | .malformed reason => "malformed value on the wire: " ++ reason.message
  | .failed e => "Transport IO Error: " ++ e.text

/-- A failing call as an error; a failure that reports the end of the stream is a truncation. -/
def Error.ofFailure (e : Failure) : Error :=
  if e.kind = .unexpectedEof then .truncated else .failed e

/-- The texts of the errors below this one. -/
def Error.sources : Error → List String
  | .failed e => [e.text]
  | _ => []

end Columnar.Wire
