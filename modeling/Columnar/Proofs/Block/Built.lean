import Columnar.Block
import Mathlib.Tactic.Lemma

/-!
# Blocks that can be put together

`Built` are the blocks that begin with or without an announced row count, are given an info, and
take columns that fit. Once the row count of such a block is settled every column has that size,
and while it is not there are no columns (`Built.settled`).
-/

namespace Columnar.Block

/-- The block can be put together. -/
inductive Built : Block → Prop where
  | endMarker : Built .endMarker
  | withRows (rows : Nat) : Built (.withRows rows)
  | setInfo {b : Block} (info : BlockInfo) : Built b → Built { b with info }
  | append {b b' : Block} {name : String} {column : Column} :
    Built b →
    b.append name column = .ok b' →
    Built b'

/-- What appending does: the row count is settled by the column or agrees with it. -/
lemma append_inv {b b' : Block} {name : String} {column : Column}
    (h : b.append name column = .ok b') :
    b.Admits column.size ∧
      b' = { b with settled := some column.size, lastFirst := ⟨name, column⟩ :: b.lastFirst } := by
  rw [append] at h
  split at h
  · rename_i admits
    cases h
    exact ⟨admits, rfl⟩
  · cases h

/-- All columns have the size that is settled. -/
lemma Built.settled {b : Block} (built : b.Built) :
    ∀ c ∈ b.lastFirst, b.settled = some c.column.size := by
  induction built with
  | endMarker => exact nofun
  | withRows rows => exact nofun
  | setInfo info _ ih => exact ih
  | @append b b' name column _ fits ih =>
    obtain ⟨admits, rfl⟩ := append_inv fits
    intro c mem
    rcases List.mem_cons.1 mem with rfl | mem
    · rfl
    · rcases admits with unsettled | same
      · cases unsettled.symm.trans (ih c mem)
      · exact same.symm.trans (ih c mem)

/-- A block that has been put together is uniform. -/
lemma Built.uniform {b : Block} (built : b.Built) : b.Uniform := by
  intro c mem
  have settled := built.settled c (List.mem_reverse.1 mem)
  rw [rowCount, settled]
  rfl

end Columnar.Block
