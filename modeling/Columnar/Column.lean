import Columnar.Wire.Kind

/-!
# Columns

A column holds values of one type. The server names the types of its columns by text, and a registry
says which column such a name stands for; the built-in registry knows the scalars and `String`.
-/

namespace Columnar

open Wire

/-- The type of a column's values. -/
inductive ColumnType where
  | scalar (s : Scalar)
  | text
  deriving DecidableEq, Repr, Inhabited

namespace ColumnType

/-- How the values of the type are written and read. -/
def kind : ColumnType → Kind
  | .scalar s => .scalar s
  | .text => .text

/-- The values of the type. -/
abbrev Value (t : ColumnType) : Type := t.kind.Value

/-- The name under which a server knows the type. -/
def name : ColumnType → String
  | .scalar .uint8 => "UInt8"
  | .scalar .uint16 => "UInt16"
  | .scalar .uint32 => "UInt32"
  | .scalar .uint64 => "UInt64"
  | .scalar .int8 => "Int8"
  | .scalar .int16 => "Int16"
  | .scalar .int32 => "Int32"
  | .scalar .int64 => "Int64"
  | .scalar .float32 => "Float32"
  | .scalar .float64 => "Float64"
  | .text => "String"

/-- The built-in types. -/
def all : List ColumnType :=
  [.scalar .uint8, .scalar .uint16, .scalar .uint32, .scalar .uint64, .scalar .int8,
    .scalar .int16, .scalar .int32, .scalar .int64, .scalar .float32, .scalar .float64, .text]

/-- The built-in type of this name. -/
def ofName? (name : String) : Option ColumnType := all.find? fun t => t.name == name

/-- The text of a value. -/
def valueText : (t : ColumnType) → t.Value → String
  | .scalar s, v => s.text v
  | .text, s => s

end ColumnType

/-- Values of one type, in order. -/
structure Column where
  type : ColumnType
  values : Array type.Value

namespace Column

/-- The column of a type that holds nothing yet. -/
def empty (t : ColumnType) : Column := ⟨t, #[]⟩

/-- How many values the column holds. -/
def size (c : Column) : Nat := c.values.size

/-- The text of the value in a row. -/
def text? (c : Column) (row : Nat) : Option String := c.values[row]?.map c.type.valueText

/-- The texts of all values. -/
def texts (c : Column) : List String := c.values.toList.map c.type.valueText

/-- The values, if they are of the type asked for. -/
def valuesOf? (c : Column) (t : ColumnType) : Option (Array t.Value) :=
  if h : c.type = t then some (h ▸ c.values) else none

/-- The bytes of all values. -/
def encode (c : Column) : Bytes := c.values.toList.flatMap c.type.kind.encode

/-- Writes all values onto a sink. -/
def save (c : Column) (s : ByteStream.Sink) : Except Error Unit × ByteStream.Sink :=
  match s.writeAll c.encode with
  | (result, s') => (result.mapError c.type.kind.writeError, s')

/-- The column with more values at its end. -/
def append (c : Column) (values : Array c.type.Value) : Column := { c with values := c.values ++ values }

/-- Reads `rows` more values; an error comes with the column that holds what was read before it. -/
def load {ρ : Type} [ByteStream.Reader ρ] (rows : Nat) (c : Column) :
    Decoder ρ (Error × Column) Column :=
  ((c.type.kind.decode : Decoder ρ Error c.type.Value).many rows).mapError
    (fun (e, values) => (e, c.append values)) >>= fun values => pure (c.append values)

end Column

/-- Which column a type name stands for; a column may come with values in it. -/
abbrev Registry := String → Option Column

namespace Registry

/-- Every built-in name stands for an empty column of its type. -/
def builtin : Registry := fun name => (ColumnType.ofName? name).map Column.empty

/-- The registry in which the names listed come first, the earlier ones before the later. -/
def withColumns (listed : List (String × Column)) (r : Registry) : Registry := fun name =>
  (listed.lookup name).or (r name)

end Registry

end Columnar
