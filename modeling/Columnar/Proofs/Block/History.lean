import Columnar.Proofs.Block.Built
import Mathlib.Data.List.Induction

/-!
# What a block goes through

A block is begun, with or without an announced row count, its info is set, and columns are offered to
it, of which those that do not fit are refused. At every moment the row count is the announced one or
else the size of the first column (`settled_ofSteps`), and a refused column has left no trace. Main
statement: `history_uniform`.
-/

namespace Columnar.Block

/-- Something that is done with a block. -/
inductive Step where
  /-- A block is begun in its place. -/
  | new
  /-- A block whose row count is announced is begun in its place. -/
  | withRows (rows : Nat)
  | setInfo (info : BlockInfo)
  /-- A column is offered. -/
  | append (name : String) (column : Column)

/-- The outcome of a step, and the block after it. -/
def step (b : Block) : Step → Except BlockError Unit × Block
  | .new => (.ok (), .endMarker)
  | .withRows rows => (.ok (), .withRows rows)
  | .setInfo info => (.ok (), { b with info })
  | .append name column =>
    match b.append name column with
    | .ok b' => (.ok (), b')
    | .error e => (.error e, b)

/-- The block after these steps, whatever the outcome of each. -/
def ofSteps (steps : List Step) : Block := steps.foldl (fun b s => (b.step s).2) .endMarker

/-- Later steps are made on what the earlier ones have left. -/
lemma ofSteps_append (steps later : List Step) :
    ofSteps (steps ++ later) = later.foldl (fun b s => (b.step s).2) (ofSteps steps) :=
  List.foldl_append

/-- The last step is made on what those before have left. -/
lemma ofSteps_concat (steps : List Step) (s : Step) :
    ofSteps (steps ++ [s]) = ((ofSteps steps).step s).2 :=
  ofSteps_append steps [s]

/-- A column fits if it has the size of the block, or if that is not settled. -/
lemma admits_iff {b : Block} {size : Nat} :
    b.Admits size ↔ size = b.rowCount ∨ b.settled = none := by
  rw [Admits, rowCount]
  cases b.settled with
  | none => simp
  | some rows => simp [eq_comm]

/-- A column can be appended exactly if the block admits its size. -/
lemma append_ok_iff {b : Block} {name : String} {column : Column} :
    (∃ b', b.append name column = .ok b') ↔ b.Admits column.size := by
  constructor
  · rintro ⟨b', fits⟩
    exact (append_inv fits).1
  · intro admits
    exact ⟨_, if_pos admits⟩

/-- A step that appends what fits leaves the longer block. -/
lemma step_append_ok {b b' : Block} {name : String} {column : Column}
    (fits : b.append name column = .ok b') : b.step (.append name column) = (.ok (), b') := by
  rw [step, fits]

/-- A step that is refused leaves the block as it was. -/
lemma step_append_error {b : Block} {e : BlockError} {name : String} {column : Column}
    (refused : b.append name column = .error e) :
    b.step (.append name column) = (.error e, b) := by
  rw [step, refused]

/-- The row count that is announced for a block, given what was announced before the step. -/
def Step.announce (announced : Option Nat) : Step → Option Nat
  | .new => none
  | .withRows rows => some rows
  | .setInfo _ | .append _ _ => announced

/-- The row count that is announced for the block after these steps. -/
def announced (steps : List Step) : Option Nat := steps.foldl Step.announce none

/-- The size of the first column. -/
def firstSize? (b : Block) : Option Nat := b.columns.head?.map (·.column.size)

/-- There is a first size exactly if there is a column. -/
lemma firstSize?_eq_none {b : Block} : b.firstSize? = none ↔ b.columns = [] := by
  rw [firstSize?, Option.map_eq_none_iff, List.head?_eq_none_iff]

/-- A column comes first only where there is no other. -/
lemma firstSize?_append {b b' : Block} {name : String} {column : Column}
    (fits : b.append name column = .ok b') :
    b'.firstSize? = b.firstSize?.or (some column.size) := by
  rw [firstSize?, columns_append fits, firstSize?]
  cases b.columns <;> rfl

/-- What is settled stays what was announced or else the size of the first column. -/
lemma settled_step {b : Block} {announced : Option Nat}
    (h : b.settled = announced.or b.firstSize?) (s : Step) :
    (b.step s).2.settled = (s.announce announced).or (b.step s).2.firstSize? := by
  cases s with
  | new => rfl
  | withRows rows => rfl
  | setInfo info => exact h
  | append name column =>
    cases outcome : b.append name column with
    | error e =>
      rw [step_append_error outcome]
      exact h
    | ok b' =>
      rw [step_append_ok outcome, firstSize?_append outcome, Step.announce, ← Option.or_assoc, ← h]
      obtain ⟨unsettled | same, rfl⟩ := append_inv outcome
      · rw [unsettled]
        rfl
      · rw [same]
        rfl

/-- The row count is the announced one, or else that of the first column. -/
lemma settled_ofSteps (steps : List Step) :
    (ofSteps steps).settled = (announced steps).or (ofSteps steps).firstSize? := by
  induction steps using List.reverseRecOn with
  | nil => rfl
  | append_singleton steps s ih =>
    rw [ofSteps_concat, announced, List.foldl_append]
    exact settled_step ih s

/-- A step on a block that has been put together leaves such a block. -/
lemma Built.step {b : Block} (built : b.Built) (s : Step) : (b.step s).2.Built := by
  cases s with
  | new => exact .endMarker
  | withRows rows => exact .withRows rows
  | setInfo info => exact built.setInfo info
  | append name column =>
    cases outcome : b.append name column with
    | error e =>
      rw [step_append_error outcome]
      exact built
    | ok b' =>
      rw [step_append_ok outcome]
      exact built.append outcome

/-- Every history leaves a block that has been put together. -/
lemma built_ofSteps (steps : List Step) : (ofSteps steps).Built := by
  induction steps using List.reverseRecOn with
  | nil => exact .endMarker
  | append_singleton steps s ih =>
    rw [ofSteps_concat]
    exact ih.step s

/-- The column that is found is the first of its name. -/
lemma find?_eq_some {b : Block} {name : String} {column : Column} :
    b.find? name = some column ↔
      ∃ before later, b.columns = before ++ ⟨name, column⟩ :: later ∧
        ∀ c ∈ before, c.name ≠ name := by
  constructor
  · intro found
    obtain ⟨⟨_, _⟩, first, rfl⟩ := Option.map_eq_some_iff.1 found
    obtain ⟨named, before, later, split, others⟩ := List.find?_eq_some_iff_append.1 first
    obtain rfl := eq_of_beq named
    exact ⟨before, later, split, fun c mem => by simpa using others c mem⟩
  · rintro ⟨before, later, split, others⟩
    have first : b.columns.find? (fun c => c.name == name) = some ⟨name, column⟩ :=
      List.find?_eq_some_iff_append.2
        ⟨beq_self_eq_true name, before, later, split, fun c mem => by simpa using others c mem⟩
    rw [find?, first]
    rfl

/-- No column is found exactly if none has the name. -/
lemma find?_eq_none {b : Block} {name : String} :
    b.find? name = none ↔ ∀ c ∈ b.columns, c.name ≠ name := by
  rw [find?, Option.map_eq_none_iff, List.find?_eq_none]
  simp

/-- Whatever a block has gone through, its columns have as many values as it has rows: as many as were
announced, or else as the first column has, or else none. A column is taken if it has this size or is
the first where nothing was announced, and comes behind the others; a column that is refused leaves
the block as if it had not been offered. Looking a name up finds the first column of this name. -/
theorem history_uniform (steps : List Step) :
    (∀ c ∈ (ofSteps steps).columns, c.column.size = (ofSteps steps).rowCount) ∧
    (ofSteps steps).rowCount = ((announced steps).or (ofSteps steps).firstSize?).getD 0 ∧
    (∀ name column, (∃ b, (ofSteps steps).append name column = .ok b) ↔
      column.size = (ofSteps steps).rowCount ∨
        announced steps = none ∧ (ofSteps steps).columns = []) ∧
    (∀ name column b, (ofSteps steps).append name column = .ok b →
      ofSteps (steps ++ [.append name column]) = b ∧
        b.columns = (ofSteps steps).columns ++ [⟨name, column⟩] ∧
        b.info = (ofSteps steps).info) ∧
    (∀ name column e, (ofSteps steps).append name column = .error e →
      ∀ later, ofSteps (steps ++ .append name column :: later) = ofSteps (steps ++ later)) ∧
    ∀ name,
      (∀ column, (ofSteps steps).find? name = some column ↔
        ∃ before later, (ofSteps steps).columns = before ++ ⟨name, column⟩ :: later ∧
          ∀ c ∈ before, c.name ≠ name) ∧
      ((ofSteps steps).find? name = none ↔ ∀ c ∈ (ofSteps steps).columns, c.name ≠ name) := by
  have settled := settled_ofSteps steps
  refine ⟨(built_ofSteps steps).uniform, by rw [rowCount, settled], fun name column => ?accepted,
    fun name column b fits => ?taken, fun name column e refused later => ?refused,
    fun name => ⟨fun column => find?_eq_some, find?_eq_none⟩⟩
  case accepted =>
    rw [append_ok_iff, admits_iff, settled, Option.or_eq_none_iff, firstSize?_eq_none]
  case taken =>
    refine ⟨?_, columns_append fits, ?_⟩
    · rw [ofSteps_concat, step_append_ok fits]
    · obtain ⟨_, rfl⟩ := append_inv fits
      rfl
  case refused =>
    rw [ofSteps_append, ofSteps_append, List.foldl_cons, step_append_error refused]

/-- A block of two rows to which three columns are offered, the first of which is too short. -/
def namesakes : List Step :=
  [.withRows 2, .append "v" ⟨.text, #["é"]⟩, .append "v" ⟨.text, #["a", "b"]⟩,
    .append "v" ⟨.scalar .float32, #[0x7fc00001#32, 0x80000000#32]⟩]

/-- One column is refused, and of two namesakes the first is found. -/
theorem history_uniform_namesakes :
    (∃ e, (ofSteps (namesakes.take 1)).append "v" ⟨.text, #["é"]⟩ = .error e) ∧
      ofSteps namesakes = ofSteps (.withRows 2 :: namesakes.drop 2) ∧
      (ofSteps namesakes).rowCount = 2 ∧
      (ofSteps namesakes).columnCount = 2 ∧
      (ofSteps namesakes).find? "v" = some ⟨.text, #["a", "b"]⟩ := by
  have refused : ∃ e, (ofSteps (namesakes.take 1)).append "v" ⟨.text, #["é"]⟩ = .error e :=
    ⟨_, rfl⟩
  obtain ⟨_, rowCount, _, _, _, looked⟩ := history_uniform namesakes
  obtain ⟨_, _, _, _, traceless, _⟩ := history_uniform (namesakes.take 1)
  refine ⟨refused, ?_, rowCount, rfl, ?_⟩
  · obtain ⟨e, refused⟩ := refused
    exact traceless _ _ e refused (namesakes.drop 2)
  · exact ((looked "v").1 _).2 ⟨[], _, rfl, List.forall_mem_nil _⟩

end Columnar.Block
