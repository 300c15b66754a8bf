import Columnar.Proofs.Block.Built
import Columnar.Proofs.Block.Parts
import Columnar.Proofs.Wire.Yields

/-!
# Blocks that have been read

Reading announces the row count before the first column and appends the columns one by one, so that
all columns of a block that has been read hold as many values as it has rows, whatever the registry
hands out for their types (`yields_decode`).
-/

namespace Columnar.Block

open Wire

variable {ρ : Type} [ByteStream.Reader ρ]

/-- Appending keeps a block of settled size uniform and its size as it is. -/
lemma append_uniform {b b' : Block} {name : String} {column : Column} (uniform : b.Uniform)
    {rows : Nat} (settled : b.settled = some rows) (h : b.append name column = .ok b') :
    b'.Uniform ∧ b'.settled = some rows := by
  obtain ⟨admits, rfl⟩ := append_inv h
  have size : column.size = rows := by
    rcases admits with unsettled | same
    · cases unsettled.symm.trans settled
    · exact Option.some.inj (same.symm.trans settled)
  refine ⟨?_, congrArg some size⟩
  intro c mem
  rcases List.mem_cons.1 (List.mem_reverse.1 mem) with rfl | mem
  · rfl
  · have same : c.column.size = b.rowCount := uniform c (List.mem_reverse.2 mem)
    rw [same, rowCount, settled]
    exact size.symm

/-- A column that is placed leaves a uniform block of the same size. -/
lemma yields_place {b : Block} (uniform : b.Uniform) {rows : Nat} (settled : b.settled = some rows)
    (name : String) (column : Column) :
    (place b name column : Decoder ρ Halt Block).Yields fun b' =>
      b'.Uniform ∧ b'.settled = some rows := by
  rw [place]
  cases fits : b.append name column with
  | ok b' => exact .pure (append_uniform uniform settled fits)
  | error e => exact .fail _

/-- Decoding a column leaves a uniform block of the same size. -/
lemma yields_decodeColumn (registry : Registry) (rows : Nat) {b : Block}
    (h : b.Uniform ∧ b.settled = some rows) :
    (decodeColumn registry rows b : Decoder ρ Halt Block).Yields fun b' =>
      b'.Uniform ∧ b'.settled = some rows := by
  rw [decodeColumn_eq]
  refine Decoder.Yields.bind (.any _) fun name _ => ?_
  refine Decoder.Yields.bind (.any _) fun typeName _ => ?_
  rw [decodeValues]
  cases registry typeName with
  | none => exact .fail _
  | some column => exact Decoder.Yields.bind (.any _) fun filled _ => yields_place h.1 h.2 name filled

/-- Decoding columns gives a uniform block of the announced size. -/
lemma yields_decodeColumns (registry : Registry) (rows n : Nat) (info : BlockInfo) :
    (decodeColumns registry rows n { withRows rows with info } : Decoder ρ Halt Block).Yields fun b =>
      b.Uniform ∧ b.settled = some rows :=
  .iterate (fun _ h => yields_decodeColumn registry rows h) n ⟨nofun, rfl⟩

/-- All columns of a block that has been read hold as many values as the block has rows. -/
lemma yields_decode (r : Revision) (registry : Registry) :
    (decode r registry : Decoder ρ Halt Block).Yields Uniform := by
  rw [decode_eq]
  refine Decoder.Yields.bind (.any _) fun table _ => ?_
  refine Decoder.Yields.bind (.any _) fun info _ => ?_
  refine Decoder.Yields.bind (.any _) fun columns _ => ?_
  refine Decoder.Yields.bind (.any _) fun rows _ => ?_
  intro s b s' run
  exact (yields_decodeColumns registry rows.toNat columns.toNat info s b s' run).1

end Columnar.Block
