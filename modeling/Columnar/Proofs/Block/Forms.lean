import Columnar.Proofs.Block.RoundTrip
import Columnar.Proofs.Packet.Forms

/-!
# Forms of blocks

The bytes of a block, section by section. Counts and lengths may be spelt longer than need be, the
table may have any name, and the info is any list of fields of which the last one for each thing
counts. A column is spelt by its name, the name of its type and as many values as there are rows.
With the built-in types, what is read from such bytes is the block that they spell, and nothing else
is read (`spells_decode`).
-/

namespace Columnar

open ByteStream Wire Decoder Spells

variable {ρ : Type} [Reader ρ] [Observable ρ] {bs : Bytes}

namespace BlockInfo

/-- A tag and a value of the sort that it announces. -/
inductive FieldForm : Bytes → Field → Prop where
  | isOverflows {tag : Bytes} {b : Bool} :
    Varint.Form tag 1 →
    FieldForm (tag ++ encodeBool b) (.isOverflows b)
  | bucket {tag : Bytes} {n : Int32} :
    Varint.Form tag 2 →
    FieldForm (tag ++ encodeInt32 n) (.bucket n)

/-- Fields, and the tag that ends them. -/
inductive Form : Bytes → BlockInfo → Prop where
  | mk {listed last : Bytes} {fields : List Field} :
    Listed FieldForm listed fields →
    Varint.Form last 0 →
    Form (listed ++ last) (ofFields fields)

/-- What comes behind a tag. -/
inductive TaggedForm : UInt64 → Bytes → Field ⊕ Unit → Prop where
  | last : TaggedForm 0 [] (.inr ())
  | isOverflows (b : Bool) : TaggedForm 1 (encodeBool b) (.inl (.isOverflows b))
  | bucket (n : Int32) : TaggedForm 2 (encodeInt32 n) (.inl (.bucket n))

/-- Behind a tag comes the field that has it, or the end. -/
lemma spells_decodeTagged (tag : UInt64) :
    (decodeTagged tag : Decoder ρ ClientError (Field ⊕ Unit)).Spells (TaggedForm tag) := by
  rw [decodeTagged]
  -- By the tag, as the decoder does; an unknown one spells nothing.
  split_ifs with zero one two
  · subst zero
    refine .of_iff (.pure _) fun bs found => ?_
    constructor
    · rintro ⟨rfl, rfl⟩
      exact .last
    · rintro ⟨⟩
      exact ⟨rfl, rfl⟩
  · subst one
    refine .of_iff ((spells_decodeBool.mapError ClientError.truncation_ofWire).map _)
      fun bs found => ?_
    constructor
    · rintro ⟨b, rfl, rfl⟩
      exact .isOverflows b
    · rintro ⟨⟩
      exact ⟨_, rfl, rfl⟩
  · subst two
    refine .of_iff ((spells_decodeInt32.mapError ClientError.truncation_ofWire).map _)
      fun bs found => ?_
    constructor
    · rintro ⟨n, rfl, rfl⟩
      exact .bucket n
    · rintro ⟨⟩
      exact ⟨_, rfl, rfl⟩
  · refine .of_iff (.fail _) fun bs found => ⟨False.elim, ?_⟩
    rintro ⟨⟩
    · exact zero rfl
    · exact one rfl
    · exact two rfl

/-- What is decoded is a field, or the zero that ends the fields. -/
lemma spells_decodeField :
    (decodeField : Decoder ρ ClientError (Field ⊕ Unit)).Spells fun bs =>
      Sum.elim (FieldForm bs) fun _ => Varint.Form bs 0 := by
  refine .of_iff (.bind (Varint.spells_decode.mapError ClientError.truncation_ofWire)
    spells_decodeTagged) fun bs found => ?_
  constructor
  · rintro ⟨front, tag, behind, rfl, coded, last | b | n⟩
    · rw [List.append_nil]
      exact coded
    · exact .isOverflows coded
    · exact .bucket coded
  · intro form
    cases found with
    | inl field =>
      cases form with
      | isOverflows coded => exact ⟨_, 1, _, rfl, coded, .isOverflows _⟩
      | bucket coded => exact ⟨_, 2, _, rfl, coded, .bucket _⟩
    | inr u => exact ⟨bs, 0, [], (List.append_nil bs).symm, form, .last⟩

/-- The info is decoded from its forms and from nothing else. -/
lemma spells_decode : (decode : Decoder ρ ClientError BlockInfo).Spells Form := by
  refine .of_iff (.gather_bind spells_decodeField (fun fields _ => ofFields fields)
    (fun fields u => rfl) fun fields e => rfl) fun bs info => ?_
  constructor
  · rintro ⟨pieces, last, u, rfl, all, ends, rfl⟩
    exact .mk (Listed.iff_pieces.2 ⟨pieces, rfl, all, rfl⟩) ends
  · rintro ⟨listed, ends⟩
    obtain ⟨pieces, rfl, all, rfl⟩ := Listed.iff_pieces.1 listed
    exact ⟨pieces, _, (), rfl, all, ends, rfl⟩

end BlockInfo

/-- A type is found by its name and by no other. -/
lemma ColumnType.ofName?_eq_some_iff {name : String} {t : ColumnType} :
    ofName? name = some t ↔ t.name = name := by
  constructor
  · intro found
    have named := List.find?_some found
    exact eq_of_beq named
  · rintro rfl
    exact ofName?_name t

/-- A name is that of a built-in type or of none. -/
lemma Registry.builtin_cases (name : String) :
    builtin name = none ∧ (∀ t : ColumnType, t.name ≠ name) ∨
      ∃ t : ColumnType, t.name = name ∧ builtin name = some (.empty t) := by
  cases found : ColumnType.ofName? name with
  | none =>
    refine .inl ⟨by rw [builtin, found]; rfl, ?_⟩
    rintro t rfl
    cases found.symm.trans t.ofName?_name
  | some t => exact .inr ⟨t, ColumnType.ofName?_eq_some_iff.1 found, by rw [builtin, found]; rfl⟩

/-- The builtin registry has nothing but empty columns of the known types. -/
lemma Registry.exists_of_builtin {name : String} {column : Column}
    (known : builtin name = some column) : ∃ t : ColumnType, column = .empty t := by
  rcases builtin_cases name with ⟨unknown, _⟩ | ⟨t, _, same⟩
  · cases unknown.symm.trans known
  · exact ⟨t, Option.some.inj (known.symm.trans same)⟩

/-- No two types have the same name. -/
lemma ColumnType.name_injective : name.Injective := by
  intro t t' same
  exact Option.some.inj ((ofName?_eq_some_iff.2 same).symm.trans t'.ofName?_name)

/-- A column of as many values as there are rows. -/
def Column.Form (rows : Nat) (bs : Bytes) (c : Column) : Prop :=
  c.size = rows ∧ Listed c.type.kind.Form bs c.values.toList

/-- Loading puts the values that are spelt behind those that the column holds. -/
lemma Column.spells_load_onto {t : ColumnType} (held : Array t.Value) (rows : Nat) :
    (load rows ⟨t, held⟩ : Decoder ρ (Error × Column) Column).Spells fun bs c =>
      ∃ values : List t.Value, c = ⟨t, held ++ values.toArray⟩ ∧ values.length = rows ∧
        Listed t.kind.Form bs values := by
  refine .of_iff (.bind (.mapError (.many t.kind.spells_decode rows) fun e cut => cut)
    fun values => .pure _) fun bs c => ?_
  constructor
  · rintro ⟨_, values, _, rfl, ⟨count, listed⟩, rfl, rfl⟩
    rw [List.append_nil]
    exact ⟨values.toList, rfl, count, listed⟩
  · rintro ⟨values, rfl, count, listed⟩
    exact ⟨bs, values.toArray, [], (List.append_nil bs).symm, ⟨count, listed⟩, rfl, rfl⟩

/-- To load an empty column is to read the forms of its values. -/
lemma Column.spells_load (t : ColumnType) (rows : Nat) :
    ((empty t).load rows : Decoder ρ (Error × Column) Column).Spells fun bs c =>
      c.type = t ∧ c.Form rows bs := by
  refine .of_iff (spells_load_onto #[] rows) fun bs c => ?_
  constructor
  · rintro ⟨values, rfl, count, listed⟩
    rw [Array.empty_append]
    exact ⟨rfl, count, listed⟩
  · rintro ⟨rfl, count, listed⟩
    exact ⟨c.values.toList, congrArg (mk c.type) Array.empty_append.symm, count, listed⟩

/-- Without rows a column has no bytes. -/
lemma Column.spells_empty {ε : Type} [Truncation ε] (t : ColumnType) :
    (Pure.pure (empty t) : Decoder ρ ε Column).Spells fun bs c => c.type = t ∧ c.Form 0 bs := by
  refine .of_iff (.pure _) fun bs c => ?_
  constructor
  · rintro ⟨rfl, rfl⟩
    exact ⟨rfl, rfl, .nil⟩
  · rintro ⟨rfl, none, listed⟩
    have same := eq_empty none
    rw [same] at listed
    exact ⟨Listed.nil_iff.1 listed, same⟩

namespace Block

/-- The name, the name of the type and the values of a column. -/
inductive ColumnForm (rows : Nat) : Bytes → NamedColumn → Prop where
  | mk {name typeName values : Bytes} {c : NamedColumn} :
    TextForm name c.name →
    TextForm typeName c.column.type.name →
    c.column.Form rows values →
    ColumnForm rows (name ++ (typeName ++ values)) c

/-- What fills a column is a form of so many values. -/
lemma spells_fill (rows : Nat) (b : Block) (t : ColumnType) :
    (fill rows b (.empty t) : Decoder ρ Halt Column).Spells fun bs column =>
      column.type = t ∧ column.Form rows bs := by
  rw [fill]
  split_ifs with none_asked
  · subst none_asked
    exact Column.spells_empty t
  · refine .mapError (Column.spells_load t rows) ?_
    exact fun e h => Halt.truncation_ofWire b (some e.2) e.1 h

/-- A built-in column that has been filled has a value for every row. -/
lemma yields_fill (b : Block) (t : ColumnType) (rows : Nat) :
    (fill rows b (.empty t) : Decoder ρ Halt Column).Yields fun column => column.size = rows := by
  intro input column input' run
  obtain ⟨_, _, _, size, _⟩ := (spells_fill rows b t).sound run
  exact size

/-- Placing a column takes no bytes and succeeds if the column fits. -/
lemma spells_place (b : Block) (name : String) (column : Column) :
    (place b name column : Decoder ρ Halt Block).Spells fun bs b' =>
      bs = [] ∧ b.append name column = .ok b' := by
  refine .of_result (fun b' fits => place_of_ok fits) fun e fits =>
    ⟨⟨.protocol (.block e), b, some column⟩, ?_⟩
  rw [place, fits]

/-- The values behind the names are read into a column that is appended. -/
lemma spells_decodeValues (rows : Nat) (b : Block) (name typeName : String) :
    (decodeValues .builtin rows b name typeName : Decoder ρ Halt Block).Spells fun bs b' =>
      ∃ c : NamedColumn, c.name = name ∧ c.column.type.name = typeName ∧ c.column.Form rows bs ∧
        b.append c.name c.column = .ok b' := by
  rw [decodeValues]
  rcases Registry.builtin_cases typeName with ⟨unknown, nameless⟩ | ⟨t, rfl, known⟩
  · rw [unknown]
    refine .of_iff (.fail _) fun bs b' => ⟨False.elim, ?_⟩
    rintro ⟨c, _, typed, _⟩
    exact nameless _ typed
  · rw [known]
    refine .of_iff (.bind (spells_fill rows b t) (spells_place b name)) fun bs b' => ?_
    constructor
    · rintro ⟨_, column, _, rfl, ⟨rfl, spelt⟩, rfl, fits⟩
      rw [List.append_nil]
      exact ⟨⟨name, column⟩, rfl, rfl, spelt, fits⟩
    · rintro ⟨c, rfl, typed, spelt, fits⟩
      exact ⟨bs, c.column, [], (List.append_nil bs).symm,
        ⟨ColumnType.name_injective typed, spelt⟩, rfl, fits⟩

/-- A column is read with its name and its type and appended. -/
lemma spells_decodeColumn (rows : Nat) (b : Block) :
    (decodeColumn .builtin rows b : Decoder ρ Halt Block).Spells fun bs b' =>
      ∃ c, ColumnForm rows bs c ∧ b.append c.name c.column = .ok b' := by
  have cut := Halt.truncation_ofWire b none
  rw [decodeColumn_eq]
  refine .of_iff (.bind (.mapError spells_decodeText cut) fun name =>
    .bind (.mapError spells_decodeText cut) (spells_decodeValues rows b name)) fun bs b' => ?_
  constructor
  · rintro ⟨_, name, _, rfl, named, _, typeName, _, rfl, typed, c, rfl, rfl, spelt, fits⟩
    exact ⟨c, .mk named typed spelt, fits⟩
  · rintro ⟨c, ⟨named, typed, spelt⟩, fits⟩
    exact ⟨_, _, _, rfl, named, _, _, _, rfl, typed, c, rfl, rfl, spelt, fits⟩

/-- The block with more columns at its end, if all of them fit. -/
def appendAll (b : Block) (cs : List NamedColumn) : Except BlockError Block :=
  cs.foldlM (fun b c => b.append c.name c.column) b

/-- To append several columns is to append the first and then the others. -/
lemma appendAll_cons_iff {b b' : Block} {c : NamedColumn} {cs : List NamedColumn} :
    b.appendAll (c :: cs) = .ok b' ↔
      ∃ next, b.append c.name c.column = .ok next ∧ next.appendAll cs = .ok b' := by
  rw [appendAll, List.foldlM_cons]
  cases b.append c.name c.column with
  | ok next =>
    constructor
    · exact fun all => ⟨next, rfl, all⟩
    · rintro ⟨_, ⟨⟩, all⟩
      exact all
  | error e => exact ⟨nofun, fun ⟨_, fits, _⟩ => nomatch fits⟩

/-- Columns of the size that is settled all fit. -/
lemma appendAll_of_settled {b : Block} {cs : List NamedColumn} {rows : Nat}
    (settled : b.settled = some rows) (sizes : ∀ c ∈ cs, c.column.size = rows) :
    b.appendAll cs = .ok { b with lastFirst := cs.reverse ++ b.lastFirst } := by
  induction cs generalizing b with
  | nil => rfl
  | cons c cs ih =>
    obtain ⟨rfl, sizes⟩ := List.forall_mem_cons.1 sizes
    rw [appendAll_cons_iff, List.reverse_cons, List.append_assoc]
    exact ⟨b.push c, append_of_settled settled, ih settled sizes⟩

/-- So many columns are read and appended in turn. -/
lemma spells_decodeColumns (rows n : Nat) (b : Block) :
    (decodeColumns .builtin rows n b : Decoder ρ Halt Block).Spells fun bs b' =>
      ∃ cs, cs.length = n ∧ Listed (ColumnForm rows) bs cs ∧ b.appendAll cs = .ok b' := by
  induction n generalizing b with
  | zero =>
    refine .of_iff (.pure b) fun bs b' => ?_
    constructor
    · rintro ⟨rfl, rfl⟩
      exact ⟨[], rfl, .nil, rfl⟩
    · rintro ⟨cs, none, listed, all⟩
      obtain rfl := List.eq_nil_of_length_eq_zero none
      exact ⟨Listed.nil_iff.1 listed, (Except.ok.inj all).symm⟩
  | succ n ih =>
    refine .of_iff (.bind (spells_decodeColumn rows b) ih) fun bs b' => ?_
    constructor
    · rintro ⟨_, next, _, rfl, ⟨c, spelt, fits⟩, cs, rfl, listed, all⟩
      exact ⟨c :: cs, rfl, .cons spelt listed, appendAll_cons_iff.2 ⟨next, fits, all⟩⟩
    · rintro ⟨cs, count, listed, all⟩
      cases listed with
      | nil => cases count
      | @cons _ _ c cs spelt listed =>
        obtain ⟨next, fits, all⟩ := appendAll_cons_iff.1 all
        exact ⟨_, next, _, rfl, ⟨c, spelt, fits⟩, cs, Nat.succ.inj count, listed, all⟩

/-- The two counts, and then the columns, each of them with as many values as there are rows. -/
inductive BodyForm (info : BlockInfo) : Bytes → Block → Prop where
  | mk {columns rows values : Bytes} {columnCount rowCount : UInt64} {b : Block} :
    Varint.Form columns columnCount →
    Varint.Form rows rowCount →
    b.columnCount = columnCount.toNat →
    Listed (ColumnForm rowCount.toNat) values b.columns →
    b.settled = some rowCount.toNat →
    b.info = info →
    BodyForm info (columns ++ (rows ++ values)) b

/-- The name of a table from revision 50264 on, an info from revision 51903 on, and the body. -/
inductive Form (r : Revision) : Bytes → Block → Prop where
  | mk {table info body : Bytes} {name : Option String} {told : Option BlockInfo} {b : Block} :
    OptionalForm TextForm (50264 ≤ r.number) table name →
    OptionalForm BlockInfo.Form (51903 ≤ r.number) info told →
    BodyForm (told.getD {}) body b →
    Form r (table ++ (info ++ body)) b

/-- Columns that are spelt have the size that is announced. -/
lemma appendAll_of_listed {info : BlockInfo} {rows : Nat} {cs : List NamedColumn}
    (listed : Listed (ColumnForm rows) bs cs) :
    appendAll { withRows rows with info } cs =
      .ok { info, settled := some rows, lastFirst := cs.reverse } := by
  have sizes : ∀ c ∈ cs, c.column.size = rows := by
    intro c mem
    obtain ⟨_, _, _, size, _⟩ := listed.exists_of_mem c mem
    exact size
  have appended := appendAll_of_settled (b := { withRows rows with info }) rfl sizes
  rwa [withRows, List.append_nil] at appended

/-- Columns that are put onto a block of announced size make up a body. -/
lemma bodyForm_iff {info : BlockInfo} {b : Block} :
    BodyForm info bs b ↔ ∃ columns columnCount behind, bs = columns ++ behind ∧
      Varint.Form columns columnCount ∧ ∃ rows rowCount values, behind = rows ++ values ∧
        Varint.Form rows rowCount ∧ ∃ cs, cs.length = columnCount.toNat ∧
          Listed (ColumnForm rowCount.toNat) values cs ∧
          appendAll { withRows rowCount.toNat with info } cs = .ok b := by
  constructor
  · rintro ⟨columns, rows, count, listed, settled, rfl⟩
    refine ⟨_, _, _, rfl, columns, _, _, _, rfl, rows, b.columns, ?_, listed, ?_⟩
    · rw [length_columns, count]
    · rw [appendAll_of_listed listed, Block.columns, List.reverse_reverse, ← settled]
  · rintro ⟨_, _, _, rfl, columns, _, _, _, rfl, rows, cs, count, listed, appended⟩
    rw [appendAll_of_listed listed] at appended
    cases appended
    refine .mk columns rows ?_ ?_ rfl rfl
    · rw [columnCount, List.length_reverse, count]
    · rwa [Block.columns, List.reverse_reverse]

/-- The info is there if the revision has it, and else it is the default. -/
lemma spells_decodeInfo (r : Revision) :
    (decodeInfo r : Decoder ρ ClientError BlockInfo).Spells fun bs info =>
      ∃ told, OptionalForm BlockInfo.Form (51903 ≤ r.number) bs told ∧ info = told.getD {} := by
  rw [decodeInfo_eq]
  exact (spells_decodeGated BlockInfo.spells_decode).map _

/-- A block is decoded from its forms and from nothing else. -/
lemma spells_decode (r : Revision) :
    (decode r .builtin : Decoder ρ Halt Block).Spells (Form r) := by
  have cut := Halt.truncation_ofWire {} none
  rw [decode_eq]
  refine .of_iff (.bind (.mapError (spells_decodeGated spells_decodeText) cut) fun _ =>
    .bind (.mapError (spells_decodeInfo r) fun e h => h) fun info =>
    .of_iff (.bind (.mapError Varint.spells_decode cut) fun columns =>
      .bind (.mapError Varint.spells_decode cut) fun rows =>
      spells_decodeColumns rows.toNat columns.toNat _) fun bs b => bodyForm_iff.symm) fun bs b => ?_
  constructor
  · rintro ⟨_, name, _, rfl, named, _, _, _, rfl, ⟨told, informed, rfl⟩, counted⟩
    exact .mk named informed counted
  · rintro ⟨named, informed, counted⟩
    exact ⟨_, _, _, rfl, named, _, _, _, rfl, ⟨_, informed, rfl⟩, counted⟩

end Block

end Columnar
