import Columnar.Proofs.Block.Forms
import Columnar.Proofs.Block.Paid
import Columnar.Proofs.ByteStream.Accepted
import Columnar.Proofs.Shell.Table
import Columnar.Proofs.Text.Breaks
import Mathlib.Algebra.BigOperators.Group.Multiset.Basic

/-!
# Lines that are printed

A printer writes a line for each row of a block, and the server announces how many rows there are.
A block with columns has taken a byte for each row, and one for each line that ends within its names
and values, so what is printed of it ends no more lines than it took bytes (`breaks_le_of_form`); of
these a sink may accept fewer, but no others (`took_printBlock`). The rows of a block without columns
take no bytes, and they are printed as empty lines, however many are announced
(`lineCount_handle_bare`). Main statement: `handle_paid`.
-/

namespace Columnar

open ByteStream Wire

namespace Shell

/-- Whatever happens to the calls, a beginning of the rows' lines is accepted. -/
lemma took_printRows {b : Block} (uniform : b.Uniform) {left row : Nat}
    (within : row + left = b.rowCount) {s s' : Sink} {result : Except Failure Unit}
    (h : printRows b left row s = (result, s')) :
    ∃ pieces, Sink.Took (Utf8.encode (table ((List.range' row left).map (rowTexts b)))) s pieces
      result s' := by
  induction left generalizing row s with
  | zero =>
    cases h
    exact ⟨[], .refl _⟩
  | succ left ih =>
    obtain ⟨first, s₁, writes⟩ : ∃ first s₁,
        s.writeAll (Utf8.encode (tabbedLine (rowTexts b row))) = (first, s₁) := ⟨_, _, rfl⟩
    obtain ⟨pieces, took⟩ := Sink.took_of_writeAll writes
    rw [← table_singleton] at took
    rw [printRows, rowLine_eq uniform (by omega), writes] at h
    rw [List.range'_succ, List.map_cons, ← List.singleton_append, encode_table_append]
    cases first with
    | ok u =>
      obtain ⟨pieces', next⟩ := ih (by omega) h
      exact ⟨_, took.trans next⟩
    | error e =>
      cases h
      exact ⟨_, took.stop _⟩

namespace Printer

/-- Printing a header gives its row to the sink, which takes pieces of it. -/
lemma took_printHeader {b : Block} {p p' : Printer} {result : Except Failure Unit}
    (h : p.printHeader b = (result, p')) :
    ∃ pieces, Sink.Took (Utf8.encode (table (headerRows p.headerPrinted b))) p.out pieces result
      p'.out := by
  rw [printHeader] at h
  rw [headerRows]
  split at h
  · rename_i skipped
    cases h
    rw [if_pos skipped]
    exact ⟨[], .refl p.out⟩
  · rename_i due
    rw [if_neg due, table_singleton]
    split at h <;> rename_i writes <;> cases h <;> exact Sink.took_of_writeAll writes

/-- Printing a block gives its header and its rows to the sink, which takes pieces of them. -/
lemma took_printBlock {b : Block} (uniform : b.Uniform) {p p' : Printer}
    {result : Except Failure Unit} (h : p.printBlock b = (result, p')) :
    ∃ pieces, Sink.Took (Utf8.encode (table (headerRows p.headerPrinted b ++ blockRows b))) p.out
      pieces result p'.out := by
  obtain ⟨first, p₁, header⟩ : ∃ first p₁, p.printHeader b = (first, p₁) := ⟨_, _, rfl⟩
  obtain ⟨pieces, took⟩ := took_printHeader header
  rw [printBlock, header] at h
  rw [encode_table_append]
  cases first with
  | error e =>
    cases h
    exact ⟨pieces, took.stop _⟩
  | ok u =>
    obtain ⟨second, out, rows⟩ : ∃ second out, printRows b b.rowCount 0 p₁.out = (second, out) :=
      ⟨_, _, rfl⟩
    obtain ⟨pieces', next⟩ := took_printRows uniform (Nat.zero_add _) rows
    rw [← List.range_eq_range'] at next
    have out_eq : p'.out = out ∧ result = second := by
      dsimp only at h
      rw [rows] at h
      cases second <;> cases h <;> exact ⟨rfl, rfl⟩
    rw [out_eq.1, out_eq.2]
    exact ⟨_, took.trans next⟩

end Printer

/-- Tabs add no break. -/
lemma breaks_intercalate (texts : List String) :
    breaks ("\t".intercalate texts) = (texts.map breaks).sum := by
  induction texts with
  | nil => rfl
  | cons text texts ih =>
    by_cases none : texts = []
    · rw [none, String.intercalate_singleton, List.map_singleton, List.sum_singleton]
    · have tab : breaks "\t" = 0 := by decide
      rw [String.intercalate_cons_of_ne_nil none, breaks_append, breaks_append, tab, ih,
        List.map_cons, List.sum_cons, Nat.add_zero]

/-- A line ends once by itself. -/
lemma breaks_tabbedLine (texts : List String) :
    breaks (tabbedLine texts) = (texts.map breaks).sum + 1 := by
  rw [tabbedLine, breaks_append, breaks_intercalate]
  rfl

/-- A table has the breaks of its texts and one for each row. -/
lemma breaks_table (rows : List (List String)) :
    breaks (table rows) = (rows.map fun row => (row.map breaks).sum).sum + rows.length := by
  rw [table]
  induction rows with
  | nil => rfl
  | cons row rows ih =>
    rw [List.map_cons, String.join_cons, breaks_append, breaks_tabbedLine, ih, List.map_cons,
      List.sum_cons, List.length_cons]
    omega

/-- Two tables have the breaks of both. -/
lemma breaks_table_append (rows rows' : List (List String)) :
    breaks (table (rows ++ rows')) = breaks (table rows) + breaks (table rows') := by
  rw [breaks_table, breaks_table, breaks_table, List.map_append, List.sum_append, List.length_append]
  omega

/-- How many lines end in the name and the values of a column. -/
def columnBreaks (c : NamedColumn) : Nat := breaks c.name + (c.column.texts.map breaks).sum

/-- The texts that are looked up row by row are those of the column. -/
lemma sum_breaks_column {c : Column} {rows : Nat} (size : c.size = rows) :
    ((List.range rows).map fun row => breaks ((c.text? row).getD "")).sum =
      (c.texts.map breaks).sum := by
  have count : c.texts.length = rows := by
    rw [Column.texts, List.length_map, Array.length_toList]
    exact size
  refine congrArg List.sum (List.ext_getElem (by simp [count]) fun row within within' => ?_)
  have here : row < c.texts.length := by simpa using within'
  have found : c.text? row = some c.texts[row] := by
    rw [← List.getElem?_eq_getElem here, Column.texts, List.getElem?_map, Array.getElem?_toList]
    rfl
  rw [List.getElem_map, List.getElem_map, List.getElem_range, found]
  rfl

/-- A block ends a line for each row, and those within its values. -/
lemma breaks_blockRows {b : Block} (uniform : b.Uniform) :
    breaks (table (blockRows b)) =
      (b.columns.map fun c => (c.column.texts.map breaks).sum).sum + b.rowCount := by
  have inRow : ∀ row ∈ List.range b.rowCount, ((rowTexts b row).map breaks).sum =
      (b.columns.map fun c => breaks ((c.column.text? row).getD "")).sum := by
    intro row mem
    rw [rowTexts_eq uniform (List.mem_range.1 mem), List.map_map]
    rfl
  have inRows : ((blockRows b).map fun row => (row.map breaks).sum).sum =
      (b.columns.map fun c => (c.column.texts.map breaks).sum).sum := by
    calc ((blockRows b).map fun row => (row.map breaks).sum).sum
        = ((List.range b.rowCount).map fun row =>
            (b.columns.map fun c => breaks ((c.column.text? row).getD "")).sum).sum := by
          rw [blockRows, List.map_map]
          exact congrArg List.sum (List.map_congr_left inRow)
      _ = (b.columns.map fun c =>
            ((List.range b.rowCount).map fun row => breaks ((c.column.text? row).getD "")).sum).sum :=
          Multiset.sum_map_sum_map (List.range b.rowCount : Multiset Nat)
            (b.columns : Multiset NamedColumn)
      _ = (b.columns.map fun c => (c.column.texts.map breaks).sum).sum :=
          congrArg List.sum (List.map_congr_left fun c mem => sum_breaks_column (uniform c mem))
  rw [breaks_table, inRows, blockRows, List.length_map, List.length_range]

/-- A block ends a line for the names, one for each row, and those within its texts. -/
lemma breaks_block {b : Block} (uniform : b.Uniform) :
    breaks (table (names b :: blockRows b)) =
      (b.columns.map columnBreaks).sum + b.rowCount + 1 := by
  have within : (b.columns.map columnBreaks).sum = ((names b).map breaks).sum +
      (b.columns.map fun c => (c.column.texts.map breaks).sum).sum := by
    rw [names, List.map_map]
    exact List.sum_map_add
  rw [← List.singleton_append, breaks_table_append, breaks_blockRows uniform, table_singleton,
    breaks_tabbedLine, within]
  omega

end Shell

open Shell

/-- A constant in every summand counts once for each. -/
lemma sum_map_add_const {α : Type} (as : List α) (f : α → Nat) (k : Nat) :
    (as.map fun a => f a + k).sum = (as.map f).sum + as.length * k := by
  rw [List.sum_map_add, List.map_const', List.sum_replicate_nat]

/-- A text has no more breaks than bytes. -/
lemma breaks_le (text : String) : breaks text ≤ (Utf8.encode text).length :=
  lineCount_encode text ▸ List.count_le_length

/-- A value takes a byte, and another one for each line that ends in it. -/
lemma ColumnType.breaks_le {t : ColumnType} {bs : Bytes} {v : t.Value} (form : t.kind.Form bs v) :
    breaks (t.valueText v) + 1 ≤ bs.length := by
  cases t with
  | text =>
    have spelt : TextForm bs v := form
    exact Nat.le_trans (Nat.add_le_add_right (Columnar.breaks_le v) 1) spelt.length_le
  | scalar s =>
    have number : breaks ((ColumnType.scalar s).valueText v) = 0 := s.breaks_text v
    rw [number]
    exact ColumnType.length_pos form

namespace Block

/-- A column takes six bytes, one for each row, and one for each line that ends in it. -/
lemma ColumnForm.breaks_le {rows : Nat} {bs : Bytes} {c : NamedColumn}
    (form : ColumnForm rows bs c) : columnBreaks c + (rows + 6) ≤ bs.length := by
  obtain @⟨_, _, values, _, named, typed, size, listed⟩ := form
  have count : c.column.values.toList.length = rows := size
  have cells : (c.column.texts.map breaks).sum + rows ≤ values.length := by
    have each := listed.sum_le (fun v => breaks (c.column.type.valueText v) + 1) ColumnType.breaks_le
    rw [sum_map_add_const, count, Nat.mul_one] at each
    rw [Column.texts, List.map_map]
    exact each
  have name := named.length_le
  have typeName := typed.length_le
  have letters := c.column.type.length_name_le
  have inName := Columnar.breaks_le c.name
  rw [columnBreaks, List.length_append, List.length_append]
  omega

/-- A block with columns has come with a byte for every line that it prints. -/
lemma Form.breaks_le {r : Revision} {bs : Bytes} {b : Block} (form : Form r bs b)
    (uniform : b.Uniform) (some : b.columns ≠ []) :
    breaks (table (names b :: blockRows b)) ≤ bs.length := by
  obtain ⟨_, _, _, _, _, listed, settled, _⟩ := form
  have counted : b.rowCount = _ := congrArg (Option.getD · 0) settled
  rw [Option.getD_some] at counted
  have columns := listed.sum_le (fun c => columnBreaks c + (_ + 6)) ColumnForm.breaks_le
  rw [sum_map_add_const, ← counted] at columns
  have once : b.rowCount + 6 ≤ b.columns.length * (b.rowCount + 6) :=
    Nat.le_mul_of_pos_left _ (List.length_pos_iff.2 some)
  rw [breaks_block uniform]
  simp only [List.length_append]
  omega

/-- A block without columns is uniform. -/
lemma uniform_of_bare {b : Block} (bare : b.columns = []) : b.Uniform :=
  fun _ mem => absurd (bare ▸ mem) List.not_mem_nil

end Block

namespace Shell

variable {ρ : Type} [Reader ρ] [Observable ρ]

/-- Rows without texts end one line each. -/
lemma breaks_of_bare {b : Block} (bare : b.columns = []) (headed : Bool) :
    breaks (table (Printer.headerRows headed b ++ blockRows b)) = b.rowCount := by
  have unnamed : Printer.headerRows headed b = [] := by
    rw [Printer.headerRows, bare, List.isEmpty_nil, Bool.or_true]
    rfl
  rw [unnamed, List.nil_append, breaks_blockRows (Block.uniform_of_bare bare), bare]
  exact Nat.zero_add _

/-- What is printed of a block ends no more lines than the block takes bytes. -/
lemma breaks_le_of_form {r : Revision} {bs : Bytes} {b : Block} (form : Block.Form r bs b)
    (uniform : b.Uniform) (backed : b.columns ≠ [] ∨ b.rowCount ≤ bs.length) (headed : Bool) :
    breaks (table (Printer.headerRows headed b ++ blockRows b)) ≤ bs.length := by
  by_cases bare : b.columns = []
  · rw [breaks_of_bare bare headed]
    exact backed.resolve_left (not_not.2 bare)
  · have all := form.breaks_le uniform bare
    rw [← List.singleton_append, breaks_table_append] at all
    rw [breaks_table_append, Printer.headerRows]
    split
    · exact Nat.le_trans (Nat.add_le_add_right (Nat.zero_le _) _) all
    · exact all

namespace Printer

/-- Handling a block gives its header and its rows to the sink, whatever the sink answers. -/
lemma took_handle_data {b : Block} (uniform : b.Uniform) (p : Printer) :
    ∃ pieces result, Sink.Took (Utf8.encode (table (headerRows p.headerPrinted b ++ blockRows b)))
      p.out pieces result (p.handle (.data b)).out := by
  obtain ⟨result, p', prints⟩ : ∃ result p', p.printBlock b = (result, p') := ⟨_, _, rfl⟩
  obtain ⟨pieces, took⟩ := took_printBlock uniform prints
  have same : (p.handle (.data b)).out = p'.out := by
    rw [handle, prints]
    exact out_record result p'
  exact ⟨pieces, result, same ▸ took⟩

/-- If a block that has been read has columns, or no more rows than it took bytes, then a printer that
is told of it has no more lines to print than the block took bytes, and whatever its sink makes of
the writes, no more lines end in what is accepted. -/
theorem handle_paid {r : Revision} {input input' : ρ} {b : Block}
    (reads : (Block.decode r .builtin).run input = (.ok b, input')) :
    ∃ bs, unread input = .ofBytes bs ++ unread input' ∧
      (b.columns ≠ [] ∨ b.rowCount ≤ bs.length →
        ∀ p : Printer, ∃ rows printed,
          (p.handle (.data b)).out.accepted = p.out.accepted ++ printed ∧
          rows = headerRows p.headerPrinted b ++ blockRows b ∧ printed <+: Utf8.encode (table rows) ∧
          rows.length ≤ bs.length ∧ lineCount printed ≤ bs.length) := by
  obtain ⟨bs, here, form⟩ := (Block.spells_decode r).sound reads
  have uniform : b.Uniform := Block.yields_decode r .builtin _ _ _ reads
  refine ⟨bs, here, fun backed p => ?_⟩
  obtain ⟨pieces, result, took⟩ := took_handle_data uniform p
  have ends := breaks_le_of_form form uniform backed p.headerPrinted
  refine ⟨_, _, Sink.accepted_of_pieces took.added, rfl, took.begins, ?_, ?_⟩
  · rw [breaks_table] at ends
    exact Nat.le_trans (Nat.le_add_left _ _) ends
  · rw [← lineCount_encode] at ends
    exact Nat.le_trans (took.begins.sublist.count_le _) ends

/-- A column whose name is the end of a line, as is its only value. -/
def creased : Block := ⟨{}, some 1, [⟨"\n", .text, #["\n"]⟩]⟩

/-- The two counts, the name, the name of the type, and the value. -/
def creasedBytes : Bytes := [1, 1, 1, 0x0A, 6, 0x53, 0x74, 0x72, 0x69, 0x6E, 0x67, 1, 0x0A]

/-- The name and the value end a line each, besides the two lines that they stand on. -/
theorem handle_paid_creased :
    (Block.decode ⟨0⟩ .builtin).run (Feed.ofBytes creasedBytes) = (.ok creased, []) ∧
      ∃ p : Printer, handle ⟨{}, {}, 0, false, none⟩ (.data creased) = p ∧
        lineCount p.out.accepted = 4 ∧ lineCount p.out.accepted ≤ creasedBytes.length := by
  have reads : (Block.decode ⟨0⟩ .builtin).run (Feed.ofBytes creasedBytes) = (.ok creased, []) := by
    with_unfolding_all rfl
  refine ⟨reads, _, rfl, by decide, ?_⟩
  obtain ⟨bs, here, paid⟩ := handle_paid reads
  rw [unread_ofBytes] at here
  obtain rfl := Feed.ofBytes_inj.1 (List.append_cancel_right here)
  obtain ⟨_, printed, accepted, _, _, _, few⟩ := paid (.inl (by decide)) ⟨{}, {}, 0, false, none⟩
  rw [accepted]
  exact few

/-- A row count that is announced without any columns is printed as so many empty lines. -/
lemma lineCount_handle_bare {b : Block} (bare : b.columns = []) {p : Printer}
    (obliging : p.out.Obliging) :
    ∃ printed, (p.handle (.data b)).out.accepted = p.out.accepted ++ printed ∧
      lineCount printed = b.rowCount := by
  obtain ⟨printed, _⟩ := prints_handle_data obliging (Block.uniform_of_bare bare)
  refine ⟨_, printed.out.accepted, ?_⟩
  rw [lineCount_encode, breaks_of_bare bare]

/-- Three bytes that announce no columns and a thousand rows make a thousand lines. -/
theorem handle_paid_bare :
    (Block.decode ⟨0⟩ .builtin).run (Feed.ofBytes [0, 0xE8, 0x07]) = (.ok (.withRows 1000), []) ∧
      ∃ p : Printer, handle ⟨{}, {}, 0, false, none⟩ (.data (.withRows 1000)) = p ∧
        lineCount p.out.accepted = 1000 ∧
        ¬lineCount p.out.accepted ≤ ([0, 0xE8, 0x07] : Bytes).length := by
  obtain ⟨printed, accepted, count⟩ := lineCount_handle_bare (b := .withRows 1000) rfl
    (p := ⟨{}, {}, 0, false, none⟩) ⟨nofun, nofun⟩
  have count' : lineCount (handle ⟨{}, {}, 0, false, none⟩ (.data (.withRows 1000))).out.accepted =
      1000 := by
    rw [accepted]
    exact count
  refine ⟨by cbv, _, rfl, count', ?_⟩
  rw [count']
  decide

end Printer

end Shell

end Columnar
