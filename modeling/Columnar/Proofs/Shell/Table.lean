import Columnar.Proofs.ByteStream.Obliging
import Columnar.Shell.Printer
import Mathlib.Algebra.GroupWithZero.Nat
import Mathlib.Data.List.Basic

/-!
# Results as a table

What is printed of a result is a table: a line for each row of each block, with a text for each
column, and once a line of names in front of the rows of the first block that has columns. One line
is printed at a time, so that what a block prints is what its lines are (`Prints.trans`), and the
same goes for the events of a response (`prints_handleAll`). Where no text has a tab or the end of a
line in it the table can be read back (`readTable_table`). Main statement: `handleAll_faithful`.
-/

namespace Columnar

open ByteStream

/-- The block that an event brings. -/
def Event.block? : Event → Option Block
  | .data b => some b
  | _ => none

namespace Shell

/-- The text of a table: a line for each of its rows. -/
def table (rows : List (List String)) : String := String.join (rows.map tabbedLine)

/-- The parts of a text between which the character stands. -/
def partsAt (c : Char) (text : String) : List String :=
  (text.split c).toList.map fun part => part.copy

/-- The rows of a table; what stands behind the last line is not one of them. -/
def readTable (text : String) : List (List String) := (partsAt '\n' text).dropLast.map (partsAt '\t')

/-- The text can stand in a table: there is no tab and no end of a line in it. -/
def Plain (text : String) : Prop := '\t' ∉ text.toList ∧ '\n' ∉ text.toList

instance (text : String) : Decidable (Plain text) := inferInstanceAs (Decidable (_ ∧ _))

/-- Parts without the separator are found again between its occurrences. -/
lemma partsAt_intercalate {c : Char} {parts : List String} (some : parts ≠ [])
    (clean : ∀ part ∈ parts, c ∉ part.toList) :
    partsAt c ((String.singleton c).intercalate parts) = parts := by
  rw [partsAt, String.toList_split_intercalate clean, if_neg some]

/-- Every line ends, so that nothing stands behind the last one. -/
lemma table_eq_intercalate (rows : List (List String)) :
    table rows = "\n".intercalate (rows.map ("\t".intercalate ·) ++ [""]) := by
  rw [table]
  induction rows with
  | nil => rfl
  | cons row rows ih =>
    have more : rows.map ("\t".intercalate ·) ++ [""] ≠ [] :=
      List.append_ne_nil_of_right_ne_nil _ nofun
    rw [List.map_cons, String.join_cons, ih, List.map_cons, List.cons_append,
      String.intercalate_cons_of_ne_nil more, tabbedLine]

/-- A character that neither the texts nor the separator have is not among them. -/
lemma not_mem_intercalate {c sep : Char} (other : c ≠ sep) {texts : List String}
    (clean : ∀ text ∈ texts, c ∉ text.toList) :
    c ∉ ((String.singleton sep).intercalate texts).toList := by
  induction texts with
  | nil => exact List.not_mem_nil
  | cons text texts ih =>
    obtain ⟨first, clean⟩ := List.forall_mem_cons.1 clean
    by_cases none : texts = []
    · rw [none, String.intercalate_singleton]
      exact first
    · rw [String.intercalate_cons_of_ne_nil none, String.toList_append, String.toList_append,
        String.toList_singleton, List.mem_append, List.mem_append, List.mem_singleton]
      exact not_or.2 ⟨not_or.2 ⟨first, other⟩, ih clean⟩

/-- There is a text in the row, and all of them can stand in a table. -/
def Readable (row : List String) : Prop := row ≠ [] ∧ ∀ text ∈ row, Plain text

/-- A table of plain texts is read back. -/
lemma readTable_table {rows : List (List String)} (readable : ∀ row ∈ rows, Readable row) :
    readTable (table rows) = rows := by
  have tab : "\t" = String.singleton '\t' := by decide
  have newline : "\n" = String.singleton '\n' := by decide
  have lines : partsAt '\n' (table rows) = rows.map ("\t".intercalate ·) ++ [""] := by
    rw [table_eq_intercalate, newline]
    refine partsAt_intercalate (List.append_ne_nil_of_right_ne_nil _ nofun) ?_
    rw [List.forall_mem_append, List.forall_mem_map, List.forall_mem_singleton, tab]
    refine ⟨fun row mem => ?_, List.not_mem_nil⟩
    exact not_mem_intercalate (by decide) fun text among => ((readable row mem).2 text among).2
  rw [readTable, lines, List.dropLast_concat, List.map_map, tab]
  refine (List.map_congr_left fun row mem => ?_).trans (List.map_id rows)
  exact partsAt_intercalate (readable row mem).1 fun text among => ((readable row mem).2 text among).1

/-- The texts of a row's values. -/
def rowTexts (b : Block) (row : Nat) : List String :=
  b.columns.filterMap fun c => c.column.text? row

/-- The names of the columns. -/
def names (b : Block) : List String := b.columns.map NamedColumn.name

/-- The rows of a block. -/
def blockRows (b : Block) : List (List String) := (List.range b.rowCount).map (rowTexts b)

/-- The rows of blocks, with the names of the first one that has columns in front of its rows. -/
def resultRows : List Block → List (List String)
  | [] => []
  | b :: bs =>
    if b.columns = [] then blockRows b ++ resultRows bs
    else names b :: (blockRows b ++ bs.flatMap blockRows)

/-- Every cell of a uniform block has a text. -/
lemma text?_of_uniform {b : Block} (uniform : b.Uniform) {c : NamedColumn} (mem : c ∈ b.columns)
    {row : Nat} (within : row < b.rowCount) : ∃ text, c.column.text? row = some text := by
  have size : c.column.values.size = b.rowCount := uniform c mem
  rw [Column.text?, Array.getElem?_eq_getElem (size ▸ within)]
  exact ⟨_, rfl⟩

/-- The text that stands in for a missing value is never used. -/
lemma rowTexts_eq {b : Block} (uniform : b.Uniform) {row : Nat} (within : row < b.rowCount) :
    rowTexts b row = b.columns.map fun c => (c.column.text? row).getD "" := by
  have each : ∀ c ∈ b.columns,
      c.column.text? row = (some ∘ fun c : NamedColumn => (c.column.text? row).getD "") c := by
    intro c mem
    obtain ⟨text, found⟩ := text?_of_uniform uniform mem within
    rw [Function.comp, found]
    rfl
  rw [rowTexts, List.filterMap_congr each, List.filterMap_eq_map]

/-- A row of a uniform block is the line of its texts. -/
lemma rowLine_eq {b : Block} (uniform : b.Uniform) {row : Nat} (within : row < b.rowCount) :
    rowLine b row = tabbedLine (rowTexts b row) := by
  rw [rowLine, rowTexts_eq uniform within]

/-- The text of a cell is one of the texts of its column. -/
lemma mem_texts_of_text? {c : Column} {row : Nat} {text : String} (found : c.text? row = some text) :
    text ∈ c.texts := by
  obtain ⟨value, here, rfl⟩ := Option.map_eq_some_iff.1 found
  exact List.mem_map_of_mem (Array.mem_toList_iff.2 (Array.mem_of_getElem? here))

/-- The block has columns, and its names and values can stand in a table. -/
def PlainBlock (b : Block) : Prop :=
  b.columns ≠ [] ∧ ∀ c ∈ b.columns, Plain c.name ∧ ∀ value ∈ c.column.texts, Plain value

instance (b : Block) : Decidable (PlainBlock b) := inferInstanceAs (Decidable (_ ∧ _))

/-- The names of a plain block can be read back. -/
lemma readable_names {b : Block} (plain : PlainBlock b) : Readable (names b) := by
  refine ⟨mt List.map_eq_nil_iff.1 plain.1, fun text mem => ?_⟩
  obtain ⟨c, among, rfl⟩ := List.mem_map.1 mem
  exact (plain.2 c among).1

/-- The rows of a plain block can be read back. -/
lemma readable_blockRows {b : Block} (uniform : b.Uniform) (plain : PlainBlock b) :
    ∀ row ∈ blockRows b, Readable row := by
  rw [blockRows, List.forall_mem_map]
  intro row mem
  refine ⟨?_, fun text mem => ?_⟩
  · rw [rowTexts_eq uniform (List.mem_range.1 mem)]
    exact mt List.map_eq_nil_iff.1 plain.1
  · obtain ⟨c, among, found⟩ := List.mem_filterMap.1 mem
    exact (plain.2 c among).2 text (mem_texts_of_text? found)

/-- Where all blocks have columns the names of the first one are followed by all rows. -/
lemma resultRows_of_columns {blocks : List Block} (some : ∀ b ∈ blocks, b.columns ≠ []) :
    resultRows blocks = (blocks.head?.map names).toList ++ blocks.flatMap blockRows := by
  cases blocks with
  | nil => rfl
  | cons b bs =>
    rw [resultRows, if_neg (some b List.mem_cons_self)]
    rfl

/-- A table of one row is its line. -/
lemma table_singleton (texts : List String) : table [texts] = tabbedLine texts := by
  rw [table, List.map_singleton, String.join_cons, String.join_nil, String.append_empty]

/-- Two tables are encoded one after the other. -/
lemma encode_table_append (rows rows' : List (List String)) :
    Utf8.encode (table (rows ++ rows')) = Utf8.encode (table rows) ++ Utf8.encode (table rows') := by
  rw [table, List.map_append, String.join_append, Utf8.encode, String.toList_append,
    List.flatMap_append]
  rfl

/-- The sink takes the lines of these rows, and it refuses nothing after them. -/
structure Prints (rows : List (List String)) (s s' : Sink) : Prop where
  accepted : s'.accepted = s.accepted ++ Utf8.encode (table rows)
  obliging : s'.Obliging

namespace Prints

variable {rows rows' : List (List String)} {s s' s'' : Sink}

/-- Where nothing is written no rows are printed. -/
lemma refl (obliging : s.Obliging) : Prints [] s s := ⟨(List.append_nil _).symm, obliging⟩

/-- Rows are printed and then others. -/
lemma trans (first : Prints rows s s') (next : Prints rows' s' s'') :
    Prints (rows ++ rows') s s'' where
  accepted := by rw [next.accepted, first.accepted, encode_table_append, List.append_assoc]
  obliging := next.obliging

end Prints

/-- A line prints its row. -/
lemma prints_tabbedLine {s : Sink} (obliging : s.Obliging) (texts : List String) :
    ∃ s', s.writeAll (Utf8.encode (tabbedLine texts)) = (.ok (), s') ∧ Prints [texts] s s' := by
  obtain ⟨s', writes, accepted, obliging⟩ := obliging.writeAll (Utf8.encode (tabbedLine texts))
  exact ⟨s', writes, table_singleton texts ▸ accepted, obliging⟩

/-- The rows of a block are printed from any of them on. -/
lemma prints_printRows {b : Block} (uniform : b.Uniform) {left row : Nat}
    (within : row + left = b.rowCount) {s : Sink} (obliging : s.Obliging) :
    ∃ s', printRows b left row s = (.ok (), s') ∧
      Prints ((List.range' row left).map (rowTexts b)) s s' := by
  -- A sink that has taken a line is as obliging as before, so the next row starts like the first.
  induction left generalizing row s with
  | zero => exact ⟨s, rfl, .refl obliging⟩
  | succ left ih =>
    obtain ⟨s₁, writes, first⟩ := prints_tabbedLine obliging (rowTexts b row)
    have later : row + 1 + left = b.rowCount := by omega
    obtain ⟨s', goes, next⟩ := ih later first.obliging
    refine ⟨s', ?_, first.trans next⟩
    rw [printRows, rowLine_eq uniform (by omega), writes]
    exact goes

namespace Printer

/-- The printer prints these rows and counts so many rows of blocks. -/
structure Prints (rows : List (List String)) (count : Nat) (p p' : Printer) : Prop where
  out : Shell.Prints rows p.out p'.out
  counted : p'.rows = p.rows + UInt64.ofNat count

namespace Prints

variable {rows rows' : List (List String)} {count count' : Nat} {p p' p'' : Printer}

/-- A printer that does nothing prints no rows and counts none. -/
lemma refl (obliging : p.out.Obliging) : Prints [] 0 p p := ⟨.refl obliging, (UInt64.add_zero _).symm⟩

/-- A printer prints and counts, and then goes on. -/
lemma trans (first : Prints rows count p p') (next : Prints rows' count' p' p'') :
    Prints (rows ++ rows') (count + count') p p'' where
  out := first.out.trans next.out
  counted := by rw [next.counted, first.counted, UInt64.ofNat_add, UInt64.add_assoc]

end Prints

/-- The names that a block adds, if they are still to be printed. -/
def headerRows (headed : Bool) (b : Block) : List (List String) :=
  if headed || b.columns.isEmpty then [] else [names b]

/-- A header is printed once, for the first block with columns. -/
lemma prints_printHeader {p : Printer} (obliging : p.out.Obliging) (b : Block) :
    ∃ p', p.printHeader b = (.ok (), p') ∧ Prints (headerRows p.headerPrinted b) 0 p p' ∧
      p'.headerPrinted = (p.headerPrinted || !b.columns.isEmpty) := by
  rw [printHeader, headerRows]
  by_cases skipped : (p.headerPrinted || b.columns.isEmpty) = true
  · rw [if_pos skipped, if_pos skipped]
    refine ⟨p, rfl, .refl obliging, ?_⟩
    cases headed : p.headerPrinted with
    | true => rfl
    | false =>
      rw [headed, Bool.false_or] at skipped
      rw [skipped]
      rfl
  · -- The names have not been printed and there are some, so this is where they are printed.
    obtain ⟨out, writes, printed⟩ := prints_tabbedLine obliging (names b)
    rw [if_neg skipped, if_neg skipped]
    have line : headerLine b = tabbedLine (names b) := rfl
    rw [line, writes]
    refine ⟨_, rfl, ⟨printed, (UInt64.add_zero _).symm⟩, ?_⟩
    rw [Bool.or_eq_true, not_or] at skipped
    rw [eq_false_of_ne_true skipped.2, Bool.not_false, Bool.or_true]

/-- Handling a block prints and counts its rows. -/
lemma prints_handle_data {p : Printer} (obliging : p.out.Obliging) {b : Block}
    (uniform : b.Uniform) :
    Prints (headerRows p.headerPrinted b ++ blockRows b) b.rowCount p (p.handle (.data b)) ∧
      (p.handle (.data b)).headerPrinted = (p.headerPrinted || !b.columns.isEmpty) := by
  obtain ⟨p₁, header, first, headed⟩ := prints_printHeader obliging b
  obtain ⟨out, prints, next⟩ := prints_printRows uniform (Nat.zero_add _) first.out.obliging
  rw [← List.range_eq_range'] at next
  have block : p.handle (.data b) =
      { p₁ with out, rows := p₁.rows + UInt64.ofNat b.rowCount } := by
    rw [handle, printBlock, header]
    dsimp only
    rw [prints]
    rfl
  rw [block]
  have printed : Prints (blockRows b) b.rowCount p₁
      { p₁ with out, rows := p₁.rows + UInt64.ofNat b.rowCount } := ⟨next, rfl⟩
  have both := first.trans printed
  rw [Nat.zero_add] at both
  exact ⟨both, headed⟩

/-- An exception goes to a sink of its own. -/
lemma handle_exception_eq (p : Printer) (e : ServerException) :
    ∃ err failure, p.handle (.exception e) = { p with err, failure } := by
  obtain ⟨err, printed⟩ : ∃ err, (p.printException e).2 = { p with err } := by
    unfold printException
    split <;> exact ⟨_, rfl⟩
  have handled : p.handle (.exception e) = (p.printException e).2.record (p.printException e).1 := rfl
  rw [handled, printed]
  cases (p.printException e).1 <;> exact ⟨err, _, rfl⟩

/-- Other events leave the results and the rows counted as they are. -/
lemma prints_handle_other {p : Printer} (obliging : p.out.Obliging) {event : Event}
    (other : event.block? = none) :
    Prints [] 0 p (p.handle event) ∧ (p.handle event).headerPrinted = p.headerPrinted := by
  cases event with
  | data b => cases other
  | progress _ => exact ⟨.refl obliging, rfl⟩
  | profile _ => exact ⟨.refl obliging, rfl⟩
  | exception e =>
    obtain ⟨err, failure, same⟩ := handle_exception_eq p e
    rw [same]
    exact ⟨⟨.refl obliging, (UInt64.add_zero _).symm⟩, rfl⟩
  | finish =>
    obtain ⟨out, flushes, accepted, obliging⟩ := obliging.flush
    have flushed : p.handle .finish = { p with out } := by
      rw [handle, flush, flushes]
      rfl
    rw [flushed]
    exact ⟨⟨⟨accepted.trans (List.append_nil _).symm, obliging⟩, (UInt64.add_zero _).symm⟩, rfl⟩

/-- The rows that blocks add, if the names have been printed and if they have not. -/
def rowsFrom (headed : Bool) (blocks : List Block) : List (List String) :=
  if headed then blocks.flatMap blockRows else resultRows blocks

/-- The rows of a block come before those of the later blocks. -/
lemma rowsFrom_cons (headed : Bool) (b : Block) (bs : List Block) :
    rowsFrom headed (b :: bs) =
      headerRows headed b ++ blockRows b ++ rowsFrom (headed || !b.columns.isEmpty) bs := by
  cases headed with
  | true => rfl
  | false =>
    rw [rowsFrom, headerRows, Bool.false_or, Bool.false_or, if_neg Bool.false_ne_true, resultRows]
    by_cases bare : b.columns = []
    · rw [if_pos bare, bare]
      rfl
    · rw [if_neg bare, List.isEmpty_eq_false_iff.2 bare]
      rfl

/-- Handling events prints and counts the rows of their blocks. -/
lemma prints_handleAll {p : Printer} (obliging : p.out.Obliging) (events : List Event)
    (uniform : ∀ b ∈ events.filterMap Event.block?, b.Uniform) :
    Prints (rowsFrom p.headerPrinted (events.filterMap Event.block?))
      ((events.filterMap Event.block?).map Block.rowCount).sum p (p.handleAll events) := by
  induction events generalizing p with
  | nil =>
    have nothing : rowsFrom p.headerPrinted [] = [] := by cases p.headerPrinted <;> rfl
    rw [List.filterMap_nil, nothing]
    exact .refl obliging
  | cons event events ih =>
    cases brought : event.block? with
    | none =>
      obtain ⟨printed, headed⟩ := prints_handle_other obliging brought
      rw [List.filterMap_cons_none brought] at uniform ⊢
      have all := printed.trans (ih printed.out.obliging uniform)
      rwa [headed, Nat.zero_add] at all
    | some b =>
      obtain rfl : event = .data b := by
        cases event <;> cases brought
        rfl
      rw [List.filterMap_cons_some brought] at uniform ⊢
      obtain ⟨first, uniform⟩ := List.forall_mem_cons.1 uniform
      obtain ⟨printed, headed⟩ := prints_handle_data obliging first
      -- What is left is printed by a printer that knows whether this block has brought the names.
      have all := printed.trans (ih printed.out.obliging uniform)
      rwa [headed, ← rowsFrom_cons] at all

/-- Whatever events a printer is told of from its creation or its last reset on, as long as no write
is refused and all columns of a block have a value in every row, its results have got a line for each
row of each block, in order and with the texts of all values, and once a line of names in front of
the rows of the first block that has columns. The rows are counted modulo `2 ^ 64`. If every block
has columns and there is no tab and no end of a line in any name or value, what has been printed is
read back as the names and all rows. -/
theorem handleAll_faithful {p : Printer} (obliging : p.out.Obliging) {events : List Event}
    {blocks : List Block} (brought : events.filterMap Event.block? = blocks)
    (uniform : ∀ b ∈ blocks, b.Uniform) :
    ∃ text, (p.reset.handleAll events).out.accepted = p.out.accepted ++ Utf8.encode text ∧
      text = String.join ((resultRows blocks).map tabbedLine) ∧
      (∀ b ∈ blocks, ∀ row < b.rowCount, ∀ c ∈ b.columns, ∃ value, c.column.text? row = some value) ∧
      (p.reset.handleAll events).rows.toNat = (blocks.map Block.rowCount).sum % 2 ^ 64 ∧
      ((∀ b ∈ blocks, PlainBlock b) →
        readTable text = (blocks.head?.map names).toList ++ blocks.flatMap blockRows) := by
  subst brought
  have printed := prints_handleAll (p := p.reset) obliging events uniform
  refine ⟨_, printed.out.accepted, rfl, ?_, ?_, fun plain => ?_⟩
  · intro b mem row within c among
    exact text?_of_uniform (uniform b mem) among within
  · rw [printed.counted]
    show (0 + UInt64.ofNat _).toNat = _
    rw [UInt64.zero_add]
    rfl
  · have rows := resultRows_of_columns fun b mem => (plain b mem).1
    show readTable (table (resultRows _)) = _
    rw [← rows]
    refine readTable_table ?_
    rw [rows, List.forall_mem_append]
    constructor
    · intro row mem
      obtain ⟨b, first, rfl⟩ := Option.map_eq_some_iff.1 (Option.mem_toList.1 mem)
      exact readable_names (plain b (List.mem_of_head? first))
    · intro row mem
      obtain ⟨b, among, mem⟩ := List.mem_flatMap.1 mem
      exact readable_blockRows (uniform b among) (plain b among) row mem

/-- Two columns and two rows. -/
def people : Block where
  settled := some 2
  lastFirst := [⟨"name", .text, #["a", "b"]⟩, ⟨"id", .scalar .uint8, #[1#8, 2#8]⟩]

/-- Over a sink that begins with a call of its own for three bytes, a block that comes twice is
printed as one table. Rows without columns are printed as empty lines, and no names stand in front of
them. -/
theorem handleAll_faithful_people :
    (∃ p, handleAll ⟨{ writes := [.accept 3] }, {}, 0, false, none⟩
        [.data people, .data people, .finish] = p ∧
      p.out.accepted = Utf8.encode "id\tname\n1\ta\n2\tb\n1\ta\n2\tb\n" ∧ p.rows.toNat = 4 ∧
      readTable "id\tname\n1\ta\n2\tb\n1\ta\n2\tb\n" =
        [["id", "name"], ["1", "a"], ["2", "b"], ["1", "a"], ["2", "b"]]) ∧
    ∃ p, handleAll ⟨{}, {}, 0, false, none⟩ [.data (.withRows 1), .data people] = p ∧
      p.out.accepted = Utf8.encode "\nid\tname\n1\ta\n2\tb\n" ∧ p.rows.toNat = 3 := by
  have uniform : people.Uniform := by
    show ∀ c ∈ people.columns, c.column.size = people.rowCount
    decide
  have plain : PlainBlock people := by decide
  constructor
  · have obliging : Sink.Obliging { writes := [.accept 3] } :=
      ⟨List.forall_mem_singleton.2 trivial, nofun⟩
    have brought : [.data people, .data people, .finish].filterMap Event.block? =
        [people, people] := rfl
    obtain ⟨text, accepted, printed, _, counted, again⟩ :=
      handleAll_faithful (p := ⟨{ writes := [.accept 3] }, {}, 0, false, none⟩) obliging brought
        (by simp [uniform])
    obtain rfl : text = "id\tname\n1\ta\n2\tb\n1\ta\n2\tb\n" := printed.trans (by decide)
    exact ⟨_, rfl, accepted, counted, (again (by simp [plain])).trans (by decide)⟩
  · have bare : Block.Uniform (.withRows 1) := nofun
    have brought : [.data (.withRows 1), .data people].filterMap Event.block? =
        [.withRows 1, people] := rfl
    obtain ⟨text, accepted, printed, _, counted, _⟩ :=
      handleAll_faithful (p := ⟨{}, {}, 0, false, none⟩) ⟨nofun, nofun⟩ brought
        (by simp [uniform, bare])
    obtain rfl : text = "\nid\tname\n1\ta\n2\tb\n" := printed.trans (by decide)
    exact ⟨_, rfl, accepted, counted⟩

end Printer

end Shell

end Columnar
