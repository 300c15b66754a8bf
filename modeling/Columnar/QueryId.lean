/-!
# Query ids

Every query that is sent carries an id, drawn from a counter. A counter can be shared: whoever draws
from it gets the next number, so nobody who shares it gets a number twice. `QueryIds` is the state
of all counters, which are told apart by their keys.
-/

namespace Columnar

/-- The key of a counter of ids. -/
structure IdCounter where
  key : Nat
  deriving DecidableEq, Repr, Inhabited

/-- How many counters there are, and how many ids each of them has given out. -/
structure QueryIds where
  created : Nat := 0
  issued : List (IdCounter × UInt64) := []
  deriving DecidableEq, Repr, Inhabited

namespace QueryIds

/-- How many ids the counter has given out. -/
def count (ids : QueryIds) (c : IdCounter) : UInt64 := (ids.issued.lookup c).getD 0

/-- Sets how many ids the counter has given out. -/
def setCount (ids : QueryIds) (c : IdCounter) (n : UInt64) : QueryIds :=
  { ids with issued := (c, n) :: ids.issued.filter fun entry => entry.1 != c }

/-- Makes a counter that counts as having given out `n` ids. -/
def create (ids : QueryIds) (n : UInt64 := 0) : IdCounter × QueryIds :=
  let c : IdCounter := ⟨ids.created⟩
  (c, { ids with created := ids.created + 1 }.setCount c n)

/-- Draws the next id; the first one is 1. -/
def draw (ids : QueryIds) (c : IdCounter) : UInt64 × QueryIds :=
  let id := ids.count c + 1
  (id, ids.setCount c id)

/-- Taking out one counter leaves the others to be found. -/
theorem lookup_filter_ne {c c' : IdCounter} (other : c' ≠ c) (issued : List (IdCounter × UInt64)) :
    (issued.filter fun entry => entry.1 != c).lookup c' = issued.lookup c' := by
  induction issued with
  | nil => rfl
  | cons entry issued ih =>
    rw [List.filter_cons, List.lookup_cons]
    split
    · rw [List.lookup_cons, ih]
    · rename_i removed
      have differs : (c' == entry.1) = false := by
        rw [beq_eq_false_iff_ne]
        rintro rfl
        simp [other] at removed
      rw [differs, ih]

/-- Setting a counter changes that one only. -/
@[simp] theorem count_setCount (ids : QueryIds) (c c' : IdCounter) (n : UInt64) :
    (ids.setCount c n).count c' = if c' = c then n else ids.count c' := by
  unfold count setCount
  rw [List.lookup_cons]
  split
  · rename_i same
    rw [if_pos (eq_of_beq same)]
    rfl
  · rename_i differs
    have other : c' ≠ c := ne_of_beq_false differs
    rw [if_neg other, lookup_filter_ne other]

/-- Drawing advances the counter that is drawn from and no other. -/
theorem count_draw (ids : QueryIds) (c c' : IdCounter) :
    (ids.draw c).2.count c' = if c' = c then ids.count c + 1 else ids.count c' :=
  count_setCount ids c c' _

/-- A new counter has given out nothing, and the others are as before. -/
theorem count_create (ids : QueryIds) (c' : IdCounter) :
    ids.create.2.count c' = if c' = ids.create.1 then 0 else ids.count c' :=
  count_setCount _ _ c' 0

end QueryIds

end Columnar
