import Columnar.ClientError
import Columnar.Revision

/-!
# Blocks on the wire

A block is preceded, from certain revisions on, by the name of a temporary table and by its info, a
list of tagged fields that the tag 0 ends. Then come the two counts and, for each column, its name,
the name of its type and its values. A column whose type is not known ends the reading, because
nothing tells where its values end. When reading ends early, `Halt` holds what had been stored.
-/

namespace Columnar

open Wire

/-- One field of a block's info. -/
inductive BlockInfo.Field where
  | isOverflows (b : Bool)
  | bucket (n : Int32)
  deriving DecidableEq, Repr

namespace BlockInfo

/-- The info after one more field; of several fields for one thing the last counts. -/
def set (info : BlockInfo) : Field → BlockInfo
  | .isOverflows b => { info with isOverflows := b }
  | .bucket n => { info with bucket := n }

/-- The info that a list of fields makes up. -/
def ofFields (fields : List Field) : BlockInfo := fields.foldl set {}

/-- The bytes of a field. -/
def Field.encode : Field → Bytes
  | .isOverflows b => Varint.encode 1 ++ encodeBool b
  | .bucket n => Varint.encode 2 ++ encodeInt32 n

/-- The fields that say all about the info. -/
def fields (info : BlockInfo) : List Field := [.isOverflows info.isOverflows, .bucket info.bucket]

/-- The bytes of a list of fields and of the tag that ends it. -/
def encodeFields (fields : List Field) : Bytes := fields.flatMap Field.encode ++ Varint.encode 0

/-- The bytes of the info; both fields are always written. -/
def encode (info : BlockInfo) : Bytes := encodeFields info.fields

variable {ρ : Type} [ByteStream.Reader ρ]

/-- Reads what follows a tag: a field, or nothing at the end of the list. -/
def decodeTagged (tag : UInt64) : Decoder ρ ClientError (Field ⊕ Unit) :=
  if tag = 0 then pure (.inr ())
  else if tag = 1 then return .inl (.isOverflows (← decodeBool.mapError .ofWire))
  else if tag = 2 then return .inl (.bucket (← decodeInt32.mapError .ofWire))
  else .fail (.protocol (.unknownBlockInfoField tag))

/-- Reads a field or the end of the list. -/
def decodeField : Decoder ρ ClientError (Field ⊕ Unit) :=
  Varint.decode.mapError .ofWire >>= decodeTagged

/-- A field takes at least its tag. -/
theorem consumes_decodeField : (decodeField : Decoder ρ ClientError (Field ⊕ Unit)).Consumes :=
  (Varint.consumes_decode.mapError _).bind _

/-- Reads a block's info. -/
def decode : Decoder ρ ClientError BlockInfo := do
  match ← Decoder.gather decodeField consumes_decodeField with
  | (fields, .ok ()) => return ofFields fields
  | (_, .error e) => .fail e

end BlockInfo

namespace Block

/-- The bytes of a section that only some revisions have. -/
def gated (r : Revision) (f : Feature) (bs : Bytes) : Bytes := if r.supports f then bs else []

/-- The bytes of a column with its name and its type. -/
def encodeColumn (c : NamedColumn) : Bytes :=
  encodeText c.name ++ encodeText c.column.type.name ++ c.column.encode

/-- The bytes of a block that goes to the temporary table of the given name. -/
def encodeFor (table : String) (r : Revision) (b : Block) : Bytes :=
  gated r .temporaryTables (encodeText table) ++ gated r .blockInfo b.info.encode ++
    Varint.encodeNat b.columnCount ++ Varint.encodeNat b.rowCount ++ b.columns.flatMap encodeColumn

/-- The bytes of a block. -/
def encode (r : Revision) (b : Block) : Bytes := b.encodeFor "" r

/-- Where the reading of a block's columns has ended early, and what had been stored until then. -/
structure Halt where
  error : ClientError
  block : Block
  /-- The column whose values were being read. -/
  filling : Option Column := none

variable {ρ : Type} [ByteStream.Reader ρ]

/-- Reads the next column of a block of `rows` rows. -/
def decodeColumn (registry : Registry) (rows : Nat) (b : Block) : Decoder ρ Halt Block := do
  let halt (e : Error) : Halt := ⟨.ofWire e, b, none⟩
  let name ← decodeText.mapError halt
  let typeName ← decodeText.mapError halt
  match registry typeName with
  | none => .fail ⟨.protocol (.unknownColumnType typeName), b, none⟩
  | some column =>
    let column ←
      if rows = 0 then pure column
      else (column.load rows).mapError fun (e, filling) => ⟨.ofWire e, b, some filling⟩
    match b.append name column with
    | .ok b => return b
    | .error e => .fail ⟨.protocol (.block e), b, some column⟩

/-- Reads `n` more columns of a block of `rows` rows. -/
def decodeColumns (registry : Registry) (rows n : Nat) (b : Block) : Decoder ρ Halt Block :=
  .iterate (decodeColumn registry rows) n b

/-- Reads a block. -/
def decode (r : Revision) (registry : Registry) : Decoder ρ Halt Block := do
  let halt (e : ClientError) : Halt := ⟨e, {}, none⟩
  if r.supports .temporaryTables then
    let _ ← decodeText.mapError (halt ∘ .ofWire)
  let info ← if r.supports .blockInfo then BlockInfo.decode.mapError halt else pure {}
  let columns ← Varint.decode.mapError (halt ∘ .ofWire)
  let rows ← Varint.decode.mapError (halt ∘ .ofWire)
  decodeColumns registry rows.toNat columns.toNat { withRows rows.toNat with info }

end Block

end Columnar
