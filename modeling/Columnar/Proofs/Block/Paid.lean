import Columnar.Proofs.Block.Decoded
import Columnar.Proofs.Block.Loading
import Columnar.Proofs.Wire.Pays

/-!
# What a block costs the server

A server announces how many columns and rows a block has, and either count may be any number of 64
bits. But every column needs a name and the name of its type, of which the shortest one has four
letters, and every value needs a byte, so that a block which is read has been paid for, and where
reading ends early, so have been the values that are held by then (`pays_decode`). Main statement:
`decode_paid`.
-/

namespace Columnar

open ByteStream Wire Decoder

/-- A varint takes at least a byte. -/
lemma Wire.Varint.Form.pos {bs : Bytes} {v : UInt64} (form : Varint.Form bs v) : 1 ≤ bs.length := by
  refine List.length_pos_iff.2 ?_
  rintro rfl
  exact not_groups_nil form.1

/-- A text takes a byte more than its own, or more. -/
lemma Wire.TextForm.length_le {bs : Bytes} {s : String} (form : TextForm bs s) :
    (Utf8.encode s).length + 1 ≤ bs.length := by
  obtain ⟨count, _, rfl, coded, _⟩ := form
  have front := coded.pos
  rw [List.length_append]
  omega

/-- No name of a type is shorter than four bytes. -/
lemma ColumnType.length_name_le (t : ColumnType) : 4 ≤ (Utf8.encode t.name).length := by
  cases t with
  | text => decide
  | scalar s => cases s <;> decide

/-- A value takes at least a byte. -/
lemma ColumnType.length_pos {t : ColumnType} {bs : Bytes} {v : t.Value} (form : t.kind.Form bs v) :
    1 ≤ bs.length := by
  cases t with
  | text => exact Nat.le_trans (Nat.le_add_left 1 _) (TextForm.length_le form)
  | scalar s =>
    have width : bs.length = s.width := by
      obtain rfl : bs = encodeWord v := form
      exact length_littleEndian s.width v.toNat
    rw [width]
    cases s <;> decide

namespace Block

/-- How many values the block holds in all its columns. -/
def cellCount (b : Block) : Nat := (b.columns.map fun c => c.column.size).sum

/-- How many values are held where reading has ended early. -/
def Halt.cellCount (h : Halt) : Nat := h.block.cellCount + (h.filling.map Column.size).getD 0

/-- What a block costs at least: two counts, and for each column two lengths, the shortest name of a
type and a byte for every value. -/
def price (b : Block) : Nat := 2 + b.columnCount * (b.rowCount + 6)

/-- In a uniform block there are as many cells as columns times rows. -/
lemma cellCount_of_uniform {b : Block} (uniform : b.Uniform) :
    b.cellCount = b.columnCount * b.rowCount := by
  have sizes : b.columns.map (fun c => c.column.size) = b.columns.map fun _ => b.rowCount :=
    List.map_congr_left uniform
  rw [cellCount, sizes, List.map_const', List.sum_replicate_nat, length_columns]

/-- The price of a block covers its cells. -/
lemma cellCount_le_price {b : Block} (uniform : b.Uniform) : b.cellCount ≤ b.price := by
  rw [cellCount_of_uniform uniform, price, Nat.mul_add]
  omega

/-- A column adds six bytes to the price and one for each row. -/
lemma price_of_append {b b' : Block} {name : String} {column : Column} {rows : Nat}
    (settled : b.settled = some rows) (fits : b.append name column = .ok b') :
    b'.price = b.price + column.size + 6 := by
  obtain ⟨admits, rfl⟩ := append_inv fits
  have size : b.rowCount = column.size := by
    rcases admits with unsettled | same
    · cases unsettled.symm.trans settled
    · rw [rowCount, same]
      rfl
  show 2 + (b.columnCount + 1) * (column.size + 6) = b.price + column.size + 6
  rw [price, size, Nat.succ_mul]
  omega

end Block

variable {ρ : Type} [Reader ρ] [Observable ρ]

/-- Every value that is loaded takes a byte. -/
lemma Column.pays_load {t : ColumnType} (k n : Nat) (held : Array t.Value) :
    (load n ⟨t, held⟩ : Decoder ρ (Error × Column) Column).Pays (k + held.size)
      (fun c => k + c.size) fun e => k + e.2.size := by
  induction n generalizing held with
  | zero =>
    rw [load_zero]
    exact .pure (Nat.le_refl _)
  | succ n ih =>
    rw [load_succ]
    have one : (t.kind.decode.mapError fun e => (e, ⟨t, held⟩) : Decoder ρ (Error × Column) t.Value).Pays
        (k + held.size) (fun v => k + (held.push v).size) fun e => k + e.2.size := by
      refine .mapError (.of_spells t.kind.spells_decode (t.kind.agrees_decode (σ := ρ))
        fun form => ?_) fun _ => Nat.le_refl _
      have byte := ColumnType.length_pos form
      rw [Array.size_push]
      omega
    exact one.bind fun v => ih (held.push v)

namespace Block

section

variable {b : Block} {k : Nat}

/-- A text pays for its bytes and one more. -/
lemma pays_decodeText (le : b.cellCount ≤ k) :
    (decodeText.mapError fun e => ⟨.ofWire e, b, none⟩ : Decoder ρ Halt String).Pays k
      (fun s => k + (Utf8.encode s).length + 1) Halt.cellCount := by
  refine .mapError (.of_spells spells_decodeText (agrees_decodeText (σ := ρ)) fun form => ?_)
    fun _ => le
  exact Nat.add_le_add_left form.length_le k

/-- The values of a column pay for its size. -/
lemma pays_fill (le : b.cellCount ≤ k) (rows : Nat) (t : ColumnType) :
    (fill rows b (.empty t) : Decoder ρ Halt Column).Pays k (fun column => k + column.size)
      Halt.cellCount := by
  rw [fill]
  split
  · exact .pure (Nat.le_refl _)
  · refine (Column.pays_load k rows #[]).mapError fun e => ?_
    exact Nat.add_le_add_right le e.2.size

/-- The bytes of names, type and values pay for the longer block. -/
lemma pays_place {rows : Nat} (uniform : b.Uniform) (settled : b.settled = some rows) (name : String)
    (column : Column) :
    (place b name column : Decoder ρ Halt Block).Pays (b.price + 6 + column.size) price
      Halt.cellCount := by
  have held := cellCount_le_price uniform
  rw [place]
  cases fits : b.append name column with
  | ok b' =>
    refine .pure ?_
    rw [price_of_append settled fits]
    omega
  | error e =>
    refine .fail ?_
    show b.cellCount + column.size ≤ _
    omega

/-- A column costs two lengths, at least four letters and a byte for every value. -/
lemma pays_decodeColumn {rows : Nat} (h : b.Uniform ∧ b.settled = some rows) :
    (decodeColumn .builtin rows b : Decoder ρ Halt Block).Pays b.price price Halt.cellCount := by
  have held := cellCount_le_price h.1
  rw [decodeColumn_eq]
  refine (pays_decodeText held).bind fun name => (pays_decodeText (by omega)).bind fun typeName => ?_
  rw [decodeValues]
  rcases Registry.builtin_cases typeName with ⟨unknown, _⟩ | ⟨t, rfl, known⟩
  · rw [unknown]
    refine .fail ?_
    show b.cellCount ≤ _
    omega
  · rw [known]
    -- The two lengths and the letters are the six bytes of a column, and the others are its values.
    have letters := t.length_name_le
    have filled := pays_fill (ρ := ρ) (b := b) (k := b.price + 6) (by omega) rows t
    exact (filled.mono (by omega)).bind (pays_place h.1 h.2 name)

end

/-- The info need not pay for anything. -/
lemma pays_decodeInfo (r : Revision) :
    ((decodeInfo r).mapError fun e => ⟨e, {}, none⟩ : Decoder ρ Halt BlockInfo).Pays 0 (fun _ => 0)
      Halt.cellCount :=
  .mapError (.of_agrees (agrees_decodeInfo (σ := ρ) r)) fun _ => Nat.le_refl _

/-- A count pays for one byte. -/
lemma pays_count (k : Nat) :
    (Varint.decode.mapError fun e => ⟨.ofWire e, {}, none⟩ : Decoder ρ Halt UInt64).Pays k
      (fun _ => k + 1) Halt.cellCount := by
  refine .mapError (.of_spells Varint.spells_decode (Varint.agrees_decode (σ := ρ)) fun form => ?_)
    fun _ => Nat.zero_le k
  exact Nat.add_le_add_left form.pos k

/-- What is held in the end has been paid for. -/
lemma pays_decode (r : Revision) :
    (decode r .builtin : Decoder ρ Halt Block).Pays 0 price Halt.cellCount := by
  have named : ((decodeGated r .temporaryTables decodeText).mapError fun e => ⟨.ofWire e, {}, none⟩ :
      Decoder ρ Halt (Option String)).Pays 0 (fun _ => 0) Halt.cellCount :=
    .mapError (.of_agrees (agrees_decodeGated (agrees_decodeText (σ := ρ)))) fun _ => Nat.le_refl _
  rw [decode_eq]
  refine named.bind fun table => (pays_decodeInfo r).bind fun info => ?_
  refine (pays_count 0).bind fun columns => (pays_count 1).bind fun rows => ?_
  -- The two counts pay for the block without columns with which the loop starts.
  have first : price { withRows rows.toNat with info } = 2 := congrArg (2 + ·) (Nat.zero_mul _)
  have all := Pays.iterate (ρ := ρ) (fun _ h => yields_decodeColumn .builtin rows.toNat h)
    (fun _ h => pays_decodeColumn h) columns.toNat (a := { withRows rows.toNat with info })
    ⟨nofun, rfl⟩
  exact all.mono first.le

/-- Whatever counts are announced and whatever follows them, a block that is read has used two bytes
and, for each column, six bytes and one for each row, and wherever reading ends, early or not, no
more values are held than bytes have been used. -/
theorem decode_paid (r : Revision) (input : ρ) : ∃ found input' used,
    (decode r .builtin).run input = (found, input') ∧ unread input = used ++ unread input' ∧
    (∀ b, found = .ok b →
      2 + b.columnCount * (b.rowCount + 6) ≤ used.bytes ∧ b.cellCount ≤ used.bytes) ∧
    ∀ h, found = .error h → h.cellCount ≤ used.bytes := by
  obtain ⟨found, input', run⟩ : ∃ found input',
      (decode r .builtin : Decoder ρ Halt Block).run input = (found, input') := ⟨_, _, rfl⟩
  obtain ⟨(used : Feed), here⟩ := (agrees_decode (σ := ρ) r .builtin).suffix run
  have total : (unread input).bytes = used.bytes + (unread input').bytes := by
    rw [← here, Feed.bytes_append]
  refine ⟨found, input', used, run, here.symm, ?_, ?_⟩
  · rintro b rfl
    have paid := (pays_decode r).ok run
    have held := cellCount_le_price (yields_decode r .builtin _ _ _ run)
    have price_le : b.price ≤ used.bytes := by omega
    exact ⟨price_le, Nat.le_trans held price_le⟩
  · rintro h rfl
    have paid := (pays_decode r).error run
    omega

/-- The two counts given, and then a column without a name, of the shortest type and with two values. -/
def cheapest (columns rows : Bytes) : Bytes :=
  columns ++ rows ++ [0, 4, 0x49, 0x6E, 0x74, 0x38, 5, 7]

/-- The greatest number that a count can be. -/
def most : Bytes := Varint.encode 18446744073709551615

/-- A block of one column and two rows uses no more bytes than it has to, and where the same column
stands behind the greatest counts the two values are all that is held. -/
theorem decode_paid_cheapest :
    (∃ (b : Block) (input' used : Feed),
      (decode ⟨0⟩ .builtin).run (Feed.ofBytes (cheapest [1] [2])) = (.ok b, input') ∧
      unread (Feed.ofBytes (cheapest [1] [2])) = used ++ unread input' ∧
      b.columnCount = 1 ∧ b.rowCount = 2 ∧ used.bytes = 2 + b.columnCount * (b.rowCount + 6)) ∧
    ∃ (h : Halt) (input' used : Feed),
      (decode ⟨0⟩ .builtin).run (Feed.ofBytes (cheapest most most)) = (.error h, input') ∧
      unread (Feed.ofBytes (cheapest most most)) = used ++ unread input' ∧
      h.cellCount = 2 ∧ h.cellCount ≤ used.bytes := by
  constructor
  · obtain ⟨found, input', used, run, here, paid, _⟩ :=
      decode_paid (ρ := Feed) ⟨0⟩ (.ofBytes (cheapest [1] [2]))
    have reads : (decode ⟨0⟩ .builtin).run (Feed.ofBytes (cheapest [1] [2])) =
        (.ok ⟨{}, some 2, [⟨"", .scalar .int8, #[5#8, 7#8]⟩]⟩, []) := by with_unfolding_all rfl
    cases run.symm.trans reads
    have le : used.bytes ≤ 10 := by
      have total := congrArg Feed.bytes here
      rw [unread_ofBytes, Feed.bytes_append, Feed.bytes_append, Feed.bytes_ofBytes] at total
      exact Nat.le_trans (Nat.le_add_right _ _) total.ge
    exact ⟨_, [], used, run, here, rfl, rfl, Nat.le_antisymm le (paid _ rfl).1⟩
  · obtain ⟨found, input', used, run, here, _, held⟩ :=
      decode_paid (ρ := Feed) ⟨0⟩ (.ofBytes (cheapest most most))
    have halts : (decode ⟨0⟩ .builtin).run (Feed.ofBytes (cheapest most most)) =
        (.error ⟨.transport .truncated, .withRows 18446744073709551615,
          some ⟨.scalar .int8, #[5#8, 7#8]⟩⟩, []) := by with_unfolding_all rfl
    cases run.symm.trans halts
    exact ⟨_, [], used, run, here, rfl, held _ rfl⟩

end Block

end Columnar
