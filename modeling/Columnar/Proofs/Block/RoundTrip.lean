import Columnar.Proofs.Block.Built
import Columnar.Proofs.Block.Parts
import Columnar.Proofs.Wire.Values

/-!
# Blocks are read back

A block that can be put together and whose counts and texts fit the wire is read back from its
bytes, at every revision and whatever table it goes to (`reads_decode`). Reading knows the row
count before the first column, and the info only where the revision has it; `received` is the block
that arrives. Main statement: `round_trip`.
-/

namespace Columnar

open ByteStream Wire

/-- A stream that ends within a value fails the request. -/
instance : Truncation ClientError := ⟨fun e => e = .transport .truncated⟩

instance : Truncation Block.Halt := ⟨fun e => e.error = .transport .truncated⟩

/-- A truncation on the wire is one for the client. -/
lemma ClientError.truncation_ofWire (e : Error) (h : IsTruncation e) :
    IsTruncation (ClientError.ofWire e) := by
  cases h
  rfl

/-- A truncation on the wire is one for the block. -/
lemma Block.Halt.truncation_ofWire (b : Block) (filling : Option Column) (e : Error)
    (h : IsTruncation e) : IsTruncation (⟨.ofWire e, b, filling⟩ : Block.Halt) :=
  ClientError.truncation_ofWire e h

/-- A revision has a feature from its first one on. -/
lemma Revision.supports_iff {r : Revision} {f : Feature} :
    r.supports f = true ↔ f.since ≤ r.number := decide_eq_true_iff

variable {ρ : Type} [Reader ρ] [Observable ρ]

section

variable {ε α : Type} [Truncation ε] {r : Revision} {f : Feature} {d : Decoder ρ ε α} {bs : Bytes}
  {a : α}

/-- A value that only some revisions have. -/
lemma reads_decodeGated (h : d.Reads bs a) :
    (decodeGated r f d).Reads (if f.since ≤ r.number then bs else [])
      (if f.since ≤ r.number then some a else none) := by
  rw [decodeGated]
  by_cases has : f.since ≤ r.number
  · rw [if_pos has, if_pos has, if_pos (Revision.supports_iff.2 has)]
    exact h.map some
  · rw [if_neg has, if_neg has, if_neg fun supports => has (Revision.supports_iff.1 supports)]
    exact .pure none

/-- A section is read exactly where it is written. -/
lemma reads_gated (h : d.Reads bs a) :
    (decodeGated r f d).Reads (Block.gated r f bs) (if f.since ≤ r.number then some a else none) := by
  have same : Block.gated r f bs = if f.since ≤ r.number then bs else [] := by
    simp only [Block.gated, Revision.supports_iff]
  rw [same]
  exact reads_decodeGated h

end

namespace BlockInfo

/-- A field is read back. -/
lemma reads_decodeField (f : Field) :
    (decodeField : Decoder ρ ClientError (Field ⊕ Unit)).Reads f.encode (.inl f) := by
  cases f with
  | isOverflows b =>
    apply ((Varint.reads_decode 1).mapError ClientError.truncation_ofWire).bind
    exact ((reads_decodeBool b).mapError ClientError.truncation_ofWire).bind_pure (.pure _)
  | bucket n =>
    apply ((Varint.reads_decode 2).mapError ClientError.truncation_ofWire).bind
    exact ((reads_decodeInt32 n).mapError ClientError.truncation_ofWire).bind_pure (.pure _)

/-- The zero tag is read as the end of the fields. -/
lemma reads_decodeField_end :
    (decodeField : Decoder ρ ClientError (Field ⊕ Unit)).Reads (Varint.encode 0) (.inr ()) :=
  ((Varint.reads_decode 0).mapError ClientError.truncation_ofWire).bind_pure (.pure _)

/-- Fields are read back, the last of each kind counting. -/
lemma reads_decode_encodeFields (fields : List Field) :
    (decode : Decoder ρ ClientError BlockInfo).Reads (encodeFields fields) (ofFields fields) := by
  refine Decoder.Reads.gather_bind (fun f => f) (fun f _ => reads_decodeField f)
    reads_decodeField_end ?_ ?_
  · rw [List.map_id']
  · intro as e
    rfl

/-- The info is read back. -/
lemma reads_decode (info : BlockInfo) :
    (decode : Decoder ρ ClientError BlockInfo).Reads info.encode info :=
  reads_decode_encodeFields info.fields

end BlockInfo

/-- Every type is found by its name. -/
lemma ColumnType.ofName?_name (t : ColumnType) : ofName? t.name = some t := by
  cases t with
  | text => rfl
  | scalar s => cases s <;> rfl

/-- The name of a type is not too long for the wire. -/
lemma ColumnType.fitsText_name (t : ColumnType) : FitsText t.name := by
  cases t with
  | text => decide
  | scalar s => cases s <;> decide

/-- Every built-in type is known by its name, whatever else is known. -/
def Registry.KnowsBuiltin (registry : Registry) : Prop := ∀ t, registry t.name = some (.empty t)

/-- The builtin registry knows the builtin types. -/
lemma Registry.knowsBuiltin_builtin : Registry.builtin.KnowsBuiltin := by
  intro t
  rw [builtin, ColumnType.ofName?_name]
  rfl

/-- Every value of the column has an encoding. -/
def Column.Fits (c : Column) : Prop := ∀ v ∈ c.values.toList, c.type.kind.Fits v

instance (c : Column) : Decidable c.Fits := inferInstanceAs (Decidable (∀ v ∈ c.values.toList, _))

/-- Values are read behind those that the column holds. -/
lemma Column.reads_load (c : Column) (values : List c.type.Value)
    (fits : ∀ v ∈ values, c.type.kind.Fits v) :
    (c.load values.length : Decoder ρ (Error × Column) Column).Reads
      (values.flatMap c.type.kind.encode) (c.append values.toArray) := by
  refine Decoder.Reads.bind_pure (Decoder.Reads.mapError (.many fun v mem => ?_) ?_) (.pure _)
  · exact Kind.reads_decode (fits v mem)
  · exact fun e cut => cut

/-- A column is read back into an empty one. -/
lemma Column.reads_load_empty {c : Column} (fits : c.Fits) :
    ((Column.empty c.type).load c.size : Decoder ρ (Error × Column) Column).Reads c.encode c := by
  obtain ⟨t, values⟩ := c
  have read : ((Column.empty t).load values.toList.length : Decoder ρ (Error × Column) Column).Reads
      (values.toList.flatMap t.kind.encode) ⟨t, #[] ++ values.toList.toArray⟩ :=
    (Column.empty t).reads_load values.toList fits
  rw [Array.length_toList, Array.toArray_toList, Array.empty_append] at read
  exact read

/-- A column without values is the empty one of its type. -/
lemma Column.eq_empty {c : Column} (h : c.size = 0) : c = .empty c.type := by
  obtain ⟨t, values⟩ := c
  obtain rfl : values = #[] := Array.eq_empty_of_size_eq_zero h
  rfl

namespace Block

/-- The block has an encoding: its counts, its names and its values are not too long for that. -/
structure Fits (b : Block) : Prop where
  rows : b.rowCount < 2 ^ 64
  columns : b.columnCount < 2 ^ 64
  names : ∀ c ∈ b.columns, FitsText c.name
  values : ∀ c ∈ b.columns, c.column.Fits

instance (b : Block) : Decidable b.Fits :=
  decidable_of_iff (b.rowCount < 2 ^ 64 ∧ b.columnCount < 2 ^ 64 ∧
      (∀ c ∈ b.columns, FitsText c.name) ∧ ∀ c ∈ b.columns, c.column.Fits)
    ⟨fun ⟨rows, columns, names, values⟩ => ⟨rows, columns, names, values⟩,
      fun fits => ⟨fits.rows, fits.columns, fits.names, fits.values⟩⟩

/-- The block with one more column at the end. -/
def push (c : NamedColumn) (b : Block) : Block := { b with lastFirst := c :: b.lastFirst }

/-- A column of the settled size is appended. -/
lemma append_of_settled {b : Block} {c : NamedColumn} (h : b.settled = some c.column.size) :
    b.append c.name c.column = .ok (b.push c) := by
  rw [append, if_pos (.inr h), ← h]
  rfl

variable {registry : Registry}

/-- The values of a column are read back. -/
lemma reads_fill (b : Block) {column : Column} (fits : column.Fits) :
    (fill column.size b (.empty column.type) : Decoder ρ Halt Column).Reads column.encode column := by
  rw [fill]
  -- Without rows the values are not even asked for, but there are no bytes of them either.
  split_ifs with none_in
  · have bytes : column.encode = [] := by
      rw [Column.eq_empty none_in]
      rfl
    rw [← Column.eq_empty none_in, bytes]
    exact .pure column
  · refine (Column.reads_load_empty fits).mapError ?_
    exact fun e h => Halt.truncation_ofWire b (some e.2) e.1 h

/-- A column is read back with its name and its type. -/
lemma reads_decodeColumn (knows : registry.KnowsBuiltin) {b : Block} {c : NamedColumn}
    (settled : b.settled = some c.column.size) (name : FitsText c.name) (values : c.column.Fits) :
    (decodeColumn registry c.column.size b : Decoder ρ Halt Block).Reads (encodeColumn c)
      (b.push c) := by
  have cut := Halt.truncation_ofWire b none
  rw [encodeColumn, List.append_assoc, decodeColumn_eq]
  apply ((reads_decodeText name).mapError cut).bind
  apply ((reads_decodeText c.column.type.fitsText_name).mapError cut).bind
  rw [decodeValues, knows c.column.type]
  apply (reads_fill b values).bind_pure
  rw [place_of_ok (append_of_settled settled)]
  exact .pure _

/-- Columns of the settled size are read back in order. -/
lemma reads_decodeColumns (knows : registry.KnowsBuiltin) {rows : Nat} {cs : List NamedColumn}
    (sizes : ∀ c ∈ cs, c.column.size = rows) (names : ∀ c ∈ cs, FitsText c.name)
    (values : ∀ c ∈ cs, c.column.Fits) {b : Block} (settled : b.settled = some rows) :
    (decodeColumns registry rows cs.length b : Decoder ρ Halt Block).Reads (cs.flatMap encodeColumn)
      { b with lastFirst := cs.reverse ++ b.lastFirst } := by
  induction cs generalizing b with
  | nil => exact .iterate_zero b
  | cons c cs ih =>
    have read := ih (b := b.push c) (fun c' mem => sizes c' (List.mem_cons_of_mem c mem))
      (fun c' mem => names c' (List.mem_cons_of_mem c mem))
      (fun c' mem => values c' (List.mem_cons_of_mem c mem)) settled
    have size := sizes c List.mem_cons_self
    subst size
    rw [List.flatMap_cons, List.reverse_cons, List.append_assoc]
    exact .iterate_succ (reads_decodeColumn knows settled (names c List.mem_cons_self)
      (values c List.mem_cons_self)) read

/-- The block as it arrives: its row count is known, and the revision may not have its info. -/
def received (r : Revision) (b : Block) : Block where
  info := if r.supports .blockInfo then b.info else {}
  settled := some b.rowCount
  lastFirst := b.lastFirst

/-- Of the info there arrives what the revision lets through. -/
lemma reads_decodeInfo (r : Revision) (b : Block) :
    (decodeInfo r : Decoder ρ ClientError BlockInfo).Reads (gated r .blockInfo b.info.encode)
      (b.received r).info := by
  have reads := (reads_gated (r := r) (f := .blockInfo)
    (BlockInfo.reads_decode (ρ := ρ) b.info)).map (·.getD {})
  rw [decodeInfo_eq]
  simp only [received, Revision.supports_iff]
  split_ifs at reads ⊢
  · exact reads
  · exact reads

/-- A block is read back with what the revision has of it. -/
lemma reads_decode (knows : registry.KnowsBuiltin) {r : Revision} {table : String} {b : Block}
    (built : b.Built) (fits : b.Fits) (named : FitsText table) :
    (decode r registry : Decoder ρ Halt Block).Reads (b.encodeFor table r) (b.received r) := by
  have cut := Halt.truncation_ofWire {} none
  -- The columns are put onto a block whose row count is already settled.
  have columns : (decodeColumns registry b.rowCount b.columnCount
      { withRows b.rowCount with info := (b.received r).info } : Decoder ρ Halt Block).Reads
        (b.columns.flatMap encodeColumn) (b.received r) := by
    have read := reads_decodeColumns (ρ := ρ) knows built.uniform fits.names fits.values
      (b := { withRows b.rowCount with info := (b.received r).info }) rfl
    rw [length_columns, columns, List.reverse_reverse] at read
    rwa [withRows, List.append_nil] at read
  have counted (n : Nat) (h : n < 2 ^ 64) :
      (Varint.decode.mapError fun e => ⟨.ofWire e, {}, none⟩ : Decoder ρ Halt UInt64).Reads
        (Varint.encodeNat n) (.ofNat n) :=
    (Varint.reads_decode_ofNat h).mapError cut
  have informed : ((decodeInfo r).mapError fun e => ⟨e, {}, none⟩ : Decoder ρ Halt BlockInfo).Reads
      (gated r .blockInfo b.info.encode) (b.received r).info :=
    (reads_decodeInfo r b).mapError fun e h => h
  have columnCount : (UInt64.ofNat b.columnCount).toNat = b.columnCount :=
    Nat.mod_eq_of_lt fits.columns
  have rowCount : (UInt64.ofNat b.rowCount).toNat = b.rowCount := Nat.mod_eq_of_lt fits.rows
  rw [encodeFor, List.append_assoc, List.append_assoc, List.append_assoc, decode_eq]
  apply ((reads_gated (reads_decodeText named)).mapError cut).bind
  apply informed.bind
  apply (counted b.columnCount fits.columns).bind
  apply (counted b.rowCount fits.rows).bind
  rwa [columnCount, rowCount]

/-- Whatever the revision, a block that can be put together is read back, and nothing beyond it. -/
theorem round_trip (r : Revision) {b : Block} (built : b.Built) (fits : b.Fits) (t : Bytes)
    {input : ρ} (here : unread input = .ofBytes (b.encode r ++ t)) :
    ∃ b' input', (decode r .builtin).run input = (.ok b', input') ∧ unread input' = .ofBytes t ∧
      b'.columnCount = b.columnCount ∧ b'.rowCount = b.rowCount ∧ b'.columns = b.columns ∧
      b'.info = if 51903 ≤ r.number then b.info else { isOverflows := false, bucket := -1 } := by
  have unnamed : FitsText "" := by decide
  rw [encode, Feed.ofBytes_append] at here
  have read := reads_decode (ρ := ρ) Registry.knowsBuiltin_builtin (r := r) built fits unnamed
  obtain ⟨input', run, left⟩ := read.whole here
  refine ⟨b.received r, input', run, left, rfl, rfl, rfl, ?_⟩
  simp only [received, Revision.supports_iff]
  rfl

/-- Two columns under one name: bit patterns that no arithmetic keeps, and a text beyond ASCII. -/
def twins : Block where
  info := { isOverflows := true, bucket := 7 }
  settled := some 2
  lastFirst :=
    [⟨"v", .text, #["a", "é"]⟩, ⟨"v", .scalar .float32, #[0x7fc00001#32, 0x80000000#32]⟩]

/-- The twins have been put together. -/
lemma twins_built : twins.Built :=
  @Built.append _ _ "v" ⟨.text, #["a", "é"]⟩
    (@Built.append _ _ "v" ⟨.scalar .float32, #[0x7fc00001#32, 0x80000000#32]⟩
      (.setInfo ⟨true, 7⟩ .endMarker) rfl) rfl

/-- The twins are not too long for the wire. -/
lemma twins_fits : twins.Fits := by decide

/-- The twins are read back, info and all, and the byte behind them is left. -/
theorem round_trip_twins :
    (twins.Built ∧ twins.Fits ∧
      unread (Feed.ofBytes (twins.encode .client ++ [255])) =
        .ofBytes (twins.encode .client ++ [255])) ∧
    ∃ b' input', (decode .client .builtin).run (Feed.ofBytes (twins.encode .client ++ [255])) =
        (.ok b', input') ∧ unread input' = .ofBytes [255] ∧
      b'.columnCount = 2 ∧ b'.rowCount = 2 ∧ b'.columns = twins.columns ∧
      b'.info = { isOverflows := true, bucket := 7 } :=
  ⟨⟨twins_built, twins_fits, Feed.calm_ofBytes _⟩,
    round_trip .client twins_built twins_fits [255] (Feed.calm_ofBytes _)⟩

end Block

end Columnar
