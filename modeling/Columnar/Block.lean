import Columnar.Column

/-!
# Blocks

A block is a batch of rows: named columns that all hold as many values as the block has rows. The
row count is announced up front or, if it is not, settled by the first column. A block without
columns and without rows marks the end of data. `columns_append` says what appending does: it puts
one column behind the others.
-/

namespace Columnar

/-- What accompanies a block of a distributed aggregation. -/
structure BlockInfo where
  isOverflows : Bool := false
  bucket : Int32 := -1
  deriving DecidableEq, Repr, Inhabited

/-- A column under the name by which a block knows it. -/
structure NamedColumn where
  name : String
  column : Column

/-- Why a column does not fit a block. -/
inductive BlockError where
  /-- The column holds `actual` values where the block has `expected` rows. -/
  | rowCountMismatch (column : String) (expected actual : Nat)
  deriving DecidableEq, Repr

/-- The error in words. -/
def BlockError.message : BlockError → String
  | .rowCountMismatch column expected actual =>
    "column '" ++ column ++ "' holds " ++ toString actual ++ " values, block has " ++
      toString expected ++ " rows"

/-- Named columns of one size. -/
structure Block where
  info : BlockInfo := {}
  /-- How many values each column holds, once that is settled. -/
  settled : Option Nat := none
  /-- The columns, the last one first. -/
  lastFirst : List NamedColumn := []

namespace Block

/-- The block that marks the end of data. -/
def endMarker : Block := {}

/-- A block without columns whose row count is announced. -/
def withRows (rows : Nat) : Block := { settled := some rows }

/-- The columns in order. -/
def columns (b : Block) : List NamedColumn := b.lastFirst.reverse

/-- How many values each column holds. -/
def rowCount (b : Block) : Nat := b.settled.getD 0

/-- How many columns there are. -/
def columnCount (b : Block) : Nat := b.lastFirst.length

/-- There are neither columns nor rows. -/
def isEmpty (b : Block) : Bool := b.lastFirst.isEmpty && b.rowCount == 0

/-- Every column has a value in every row and none beyond. -/
def Uniform (b : Block) : Prop := ∀ c ∈ b.columns, c.column.size = b.rowCount

/-- A column of `size` values can be appended. -/
def Admits (b : Block) (size : Nat) : Prop := b.settled = none ∨ b.settled = some size

instance (b : Block) (size : Nat) : Decidable (b.Admits size) :=
  inferInstanceAs (Decidable (_ ∨ _))

/-- The block with one more column at the end, if it fits. -/
def append (b : Block) (name : String) (column : Column) : Except BlockError Block :=
  if b.Admits column.size then
    .ok { b with settled := some column.size, lastFirst := ⟨name, column⟩ :: b.lastFirst }
  else .error (.rowCountMismatch name b.rowCount column.size)

/-- The count of the columns is that of their list. -/
theorem length_columns (b : Block) : b.columns.length = b.columnCount := List.length_reverse

/-- What is appended stands behind the columns that were there. -/
theorem columns_append {b b' : Block} {name : String} {column : Column}
    (h : b.append name column = .ok b') : b'.columns = b.columns ++ [⟨name, column⟩] := by
  unfold append at h
  split at h
  · cases h
    simp [columns]
  · cases h

/-- The first column of this name. -/
def find? (b : Block) (name : String) : Option Column :=
  (b.columns.find? fun c => c.name == name).map NamedColumn.column

end Block

end Columnar
