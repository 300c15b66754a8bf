import Columnar.Proofs.Block.Decoded
import Columnar.Proofs.Block.Forms
import Columnar.Proofs.Packet.Fails

/-!
# Blocks that are read are normal

There are many spellings of a block, but what is read from any of them is a block that can be put
together and written (`Form.built`, `Form.fits`), and its own bytes are read as the very same block
(`Form.reads_encode`). The columns that reading fills never fail to fit, because the built-in types
hand out empty ones (`fails_decode`). Main statement: `decode_normal`.
-/

namespace Columnar.Block

open ByteStream Wire

variable {r : Revision} {bs : Bytes} {b : Block}

/-- Columns that fit leave a block that has been put together. -/
lemma Built.appendAll {b b' : Block} {cs : List NamedColumn} (built : b.Built)
    (h : b.appendAll cs = .ok b') : b'.Built := by
  induction cs generalizing b with
  | nil =>
    cases h
    exact built
  | cons c cs ih =>
    obtain ⟨next, fits, all⟩ := appendAll_cons_iff.1 h
    exact ih (.append built fits) all

/-- A block that is spelt has been put together. -/
lemma Form.built (form : Form r bs b) : b.Built := by
  obtain ⟨_, _, body⟩ := form
  obtain ⟨_, _, _, _, _, _, _, _, _, _, cs, _, _, appended⟩ := bodyForm_iff.1 body
  exact (Built.setInfo _ (.withRows _)).appendAll appended

/-- A block that is spelt is not too long for the wire. -/
lemma Form.fits (form : Form r bs b) : b.Fits := by
  obtain ⟨_, _, _, _, count, listed, settled, _⟩ := form
  refine ⟨?_, ?_, fun c mem => ?_, fun c mem => ?_⟩
  · rw [rowCount, settled]
    exact UInt64.toNat_lt _
  · rw [count]
    exact UInt64.toNat_lt _
  · obtain ⟨_, named, _, _⟩ := listed.exists_of_mem c mem
    exact BytesForm.fits named
  · obtain ⟨_, _, _, _, values⟩ := listed.exists_of_mem c mem
    intro v here
    obtain ⟨_, spelt⟩ := values.exists_of_mem v here
    exact spelt.fits

/-- A block that has arrived arrives unchanged once more. -/
lemma Form.received_eq (form : Form r bs b) : b.received r = b := by
  obtain ⟨_, told, _, _, _, _, settled, info⟩ := form
  have counted : some b.rowCount = b.settled := by
    rw [rowCount, settled]
    rfl
  have known : (if r.supports .blockInfo then b.info else {}) = b.info := by
    split <;> rename_i since
    · rfl
    · have absent : ¬51903 ≤ r.number := fun reached => since (Revision.supports_iff.2 reached)
      rw [info, told.eq_none absent]
      rfl
  rw [received, known, counted]

variable {ρ : Type} [Reader ρ] [Observable ρ]

/-- A block that is spelt is read back from its own bytes. -/
lemma Form.reads_encode (form : Form r bs b) :
    (decode r .builtin : Decoder ρ Halt Block).Reads (b.encode r) b := by
  have unnamed : FitsText "" := by decide
  have reads := reads_decode (ρ := ρ) Registry.knowsBuiltin_builtin (r := r) form.built form.fits
    unnamed
  rwa [form.received_eq] at reads

/-- The error is not that a column does not fit. -/
def Fitting (e : ClientError) : Prop := ∀ e', e ≠ .protocol (.block e')

/-- No error of the wire says that a column does not fit. -/
lemma fitting_ofWire (e : Error) : Fitting (.ofWire e) := by
  intro e'
  cases e <;> exact nofun

/-- No column that the wire gives fails to fit. -/
lemma fails_decodeColumn_builtin {rows : Nat} (settled : b.settled = some rows) :
    (decodeColumn .builtin rows b : Decoder ρ Halt Block).Fails fun h => Fitting h.error := by
  refine fails_decodeColumn_of_placed fitting_ofWire (fun _ _ => nofun) ?_
  intro name typeName column known
  obtain ⟨t, rfl⟩ := Registry.exists_of_builtin known
  have placed (column : Column) (size : column.size = rows) :
      (place b name column : Decoder ρ Halt Block).Fails fun h => Fitting h.error := by
    have fits : b.append name column = .ok (b.push ⟨name, column⟩) :=
      append_of_settled (c := ⟨name, column⟩) (size ▸ settled)
    rw [place_of_ok fits]
    exact .pure _
  exact Decoder.Yields.fails_bind (yields_fill b t rows) (fails_fill fitting_ofWire rows b _) placed

/-- Whatever comes, reading does not end because a column does not fit. -/
lemma fails_decode_builtin (r : Revision) :
    (decode r .builtin : Decoder ρ Halt Block).Fails fun h => Fitting h.error := by
  refine fails_decode_of_columns fitting_ofWire (fun _ _ => nofun) (fun rows n info => ?_) r
  exact Decoder.Yields.fails_iterate (fun _ h => yields_decodeColumn .builtin rows h)
    (fun _ h => fails_decodeColumn_builtin h.2) n ⟨nofun, rfl⟩

/-- Over every stream a block is read exactly if the stream begins with a spelling of it, and then
no more is used: its columns are those that are spelt, in order and of the types that are named, and
all of them have as many values as rows are announced. The bytes of a block that has been read are
read as this block again, and nothing beyond them; and no reading ends because a column does not
have as many values as there are rows. -/
theorem decode_normal (r : Revision) (input : ρ) :
    ∃ found input', (decode r .builtin : Decoder ρ Halt Block).run input = (found, input') ∧
      (∀ b rest, found = .ok b ∧ unread input' = rest ↔
        Decoder.Begins (Form r) (unread input) rest b) ∧
      (∀ b, found = .ok b → b.Uniform ∧
        ∀ (copy : ρ) (rest : Feed), unread copy = .ofBytes (b.encode r) ++ rest →
          ∃ copy', (decode r .builtin : Decoder ρ Halt Block).run copy = (.ok b, copy') ∧
            unread copy' = rest) ∧
      ∀ h column expected actual, found = .error h →
        h.error ≠ .protocol (.block (.rowCountMismatch column expected actual)) := by
  obtain ⟨found, input', run⟩ : ∃ found input',
      (decode r .builtin : Decoder ρ Halt Block).run input = (found, input') := ⟨_, _, rfl⟩
  refine ⟨found, input', run, fun b rest => (spells_decode r).ok_iff run, ?_, ?_⟩
  · rintro b rfl
    obtain ⟨_, _, form⟩ := (spells_decode r).sound run
    exact ⟨form.built.uniform, fun copy rest here => form.reads_encode.whole here⟩
  · rintro h column expected actual rfl
    exact fails_decode_builtin r input h input' run _

/-- A block for a table that has a name. The bucket is told twice, and the overflow in between; two
tags, the column count and the length of the column's name are spelt longer than need be. -/
def loose : Bytes :=
  [1, 0x74] ++ ([2, 5, 0, 0, 0] ++ ([1, 1] ++ ([0x82, 0, 7, 0, 0, 0] ++ [])) ++ [0x80, 0] ++
    ([0x81, 0] ++ ([2] ++ ([0x81, 0, 0x61] ++ ([5, 0x55, 0x49, 0x6E, 0x74, 0x38] ++
      ([1] ++ ([2] ++ []))) ++ []))))

/-- The block of which this is a spelling. -/
def tidy : Block where
  info := { isOverflows := true, bucket := 7 }
  settled := some 2
  lastFirst := [⟨"a", .scalar .uint8, #[1#8, 2#8]⟩]

/-- The loose bytes are a form of the tidy block. -/
lemma form_loose : Form .client loose tidy := by
  have short {b : UInt8} {v : UInt64} (low : b.toNat < 128) (same : b.toNat = v.toNat) :
      Varint.Form [b] v := ⟨same ▸ .last low, by simp⟩
  have long {b : UInt8} {v : UInt64} (high : 128 ≤ b.toNat) (same : b.toNat % 128 = v.toNat) :
      Varint.Form [b, 0] v := ⟨same ▸ .more high (.last (b := 0) (by decide)), by simp⟩
  have table : OptionalForm TextForm (50264 ≤ Revision.client.number) [1, 0x74] (some "t") :=
    ⟨by decide, [1], 1, rfl, short (by decide) (by decide), by decide⟩
  have fields : BlockInfo.Form _ (.ofFields [.bucket 5, .isOverflows true, .bucket 7]) :=
    .mk (.cons (.bucket (short (b := 2) (by decide) (by decide)))
      (.cons (.isOverflows (short (b := 1) (by decide) (by decide)))
        (.cons (.bucket (long (b := 0x82) (by decide) (by decide))) .nil)))
      (long (b := 0x80) (by decide) (by decide))
  have told : OptionalForm BlockInfo.Form (51903 ≤ Revision.client.number) _
      (some (.ofFields [.bucket 5, .isOverflows true, .bucket 7])) := ⟨by decide, fields⟩
  have named : TextForm [0x81, 0, 0x61] "a" :=
    ⟨[0x81, 0], 1, rfl, long (by decide) (by decide), by decide⟩
  have typed : TextForm [5, 0x55, 0x49, 0x6E, 0x74, 0x38] "UInt8" :=
    ⟨[5], 5, rfl, short (by decide) (by decide), by decide⟩
  have values : Column.Form 2 ([1] ++ ([2] ++ [])) ⟨.scalar .uint8, #[1#8, 2#8]⟩ :=
    ⟨rfl, .cons rfl (.cons rfl .nil)⟩
  have column : ColumnForm 2 _ ⟨"a", .scalar .uint8, #[1#8, 2#8]⟩ := .mk named typed values
  exact .mk table told (.mk (long (v := 1) (by decide) (by decide))
    (short (v := 2) (by decide) (by decide)) rfl (.cons column .nil) rfl rfl)

/-- The loose spelling is read as the tidy block, whose own bytes are others. -/
theorem decode_normal_loose :
    Decoder.Begins (Form .client) (unread (Feed.ofBytes (loose ++ [255]))) (.ofBytes [255]) tidy ∧
      loose ≠ tidy.encode .client ∧
      ∃ input', (decode .client .builtin : Decoder Feed Halt Block).run
            (.ofBytes (loose ++ [255])) = (.ok tidy, input') ∧
          unread input' = .ofBytes [255] ∧ tidy.Uniform ∧
        ∃ copy', (decode .client .builtin : Decoder Feed Halt Block).run
            (.ofBytes (tidy.encode .client)) = (.ok tidy, copy') ∧ unread copy' = [] := by
  have begins : Decoder.Begins (Form .client) (unread (Feed.ofBytes (loose ++ [255])))
      (.ofBytes [255]) tidy :=
    ⟨loose, by rw [unread_ofBytes, List.append_nil, Feed.ofBytes_append], form_loose⟩
  have other : loose ≠ tidy.encode .client := by decide +kernel
  obtain ⟨found, input', run, reads, again, _⟩ :=
    decode_normal .client (Feed.ofBytes (loose ++ [255]))
  obtain ⟨rfl, left⟩ := (reads tidy (.ofBytes [255])).2 begins
  obtain ⟨uniform, copies⟩ := again tidy rfl
  exact ⟨begins, other, input', run, left, uniform,
    copies (.ofBytes (tidy.encode .client)) [] (unread_ofBytes _)⟩

end Columnar.Block
