import Columnar.Wire.Fixed
import Columnar.Wire.Text

/-!
# Server exceptions

A server reports a failure as a chain of records, the outermost first, each but the last caused by
the one after it. On the wire every record ends with a truth value that tells whether its cause
follows.
-/

namespace Columnar

open Wire

/-- One failure as the server describes it. -/
structure ExceptionRecord where
  code : Int32
  name : String
  displayText : String
  stackTrace : String
  deriving DecidableEq, Repr

/-- The record in words. -/
def ExceptionRecord.message (e : ExceptionRecord) : String :=
  e.name ++ " (code " ++ toString e.code.toInt ++ "): " ++ e.displayText

/-- A failure and what caused it. -/
inductive ServerException where
  | root (record : ExceptionRecord)
  | causedBy (record : ExceptionRecord) (cause : ServerException)
  deriving DecidableEq, Repr

namespace ServerException

/-- The failure itself, without its causes. -/
def record : ServerException → ExceptionRecord
  | .root record => record
  | .causedBy record _ => record

/-- The cause, if there is one. -/
def cause? : ServerException → Option ServerException
  | .root _ => none
  | .causedBy _ cause => some cause

/-- The records of the failure and of its causes, the outermost first. -/
def chain : ServerException → List ExceptionRecord
  | .root record => [record]
  | .causedBy record cause => record :: cause.chain

/-- How many records there are. -/
def depth (e : ServerException) : Nat := e.chain.length

/-- The innermost cause. -/
def rootCause : ServerException → ExceptionRecord
  | .root record => record
  | .causedBy _ cause => cause.rootCause

/-- The exception in the words of its outermost record. -/
def message (e : ServerException) : String := e.record.message

/-- The texts of the causes, from the outer to the inner. -/
def sources : ServerException → List String
  | .root _ => []
  | .causedBy _ cause => cause.message :: cause.sources

/-- The exception whose chain is made of some outer records and the last one. -/
def ofRecords (outer : List ExceptionRecord) (last : ExceptionRecord) : ServerException :=
  outer.foldr .causedBy (.root last)

/-- The bytes of a record and of the truth value that tells whether its cause follows. -/
def encodeRecord (e : ExceptionRecord) (nested : Bool) : Bytes :=
  encodeInt32 e.code ++ encodeText e.name ++ encodeText e.displayText ++ encodeText e.stackTrace ++
    encodeBool nested

/-- The bytes of an exception. -/
def encode : ServerException → Bytes
  | .root record => encodeRecord record false
  | .causedBy record cause => encodeRecord record true ++ cause.encode

variable {ρ : Type} [ByteStream.Reader ρ]

/-- Reads a record, as one of the outer ones if its cause follows and as the last one otherwise. -/
def decodeRecord : Decoder ρ Error (ExceptionRecord ⊕ ExceptionRecord) := do
  let code ← decodeInt32
  let name ← decodeText
  let displayText ← decodeText
  let stackTrace ← decodeText
  let nested ← decodeBool
  let record : ExceptionRecord := ⟨code, name, displayText, stackTrace⟩
  return if nested then .inl record else .inr record

/-- A record of an exception takes at least a byte. -/
theorem consumes_decodeRecord :
    (decodeRecord : Decoder ρ Error (ExceptionRecord ⊕ ExceptionRecord)).Consumes :=
  consumes_decodeInt32.bind _

/-- Reads an exception, record by record. -/
def decode : Decoder ρ Error ServerException := do
  match ← Decoder.gather decodeRecord consumes_decodeRecord with
  | (outer, .ok last) => return ofRecords outer last
  | (_, .error e) => .fail e

end ServerException

end Columnar
