import Columnar.Proofs.Block.Forms
import Columnar.Proofs.Wire.Varint
import Mathlib.Data.List.Induction

/-!
# The info of a block, field by field

A block's info is told by a list of fields of any length, in any order and with repetitions, and the
tag behind the last field ends the list or is that of no field. What is told of a thing is what the
last field for it says (`ofFields_eq`). Main statement: `decode_last`.
-/

namespace Columnar.BlockInfo

open ByteStream Wire Decoder Spells

/-- What the field says about overflows. -/
def Field.isOverflows? : Field → Option Bool
  | .isOverflows b => some b
  | .bucket _ => none

/-- What the field says about the bucket. -/
def Field.bucket? : Field → Option Int32
  | .isOverflows _ => none
  | .bucket n => some n

/-- Of the fields for one thing the last one counts, and where there is none the default does. -/
lemma ofFields_eq (fields : List Field) :
    ofFields fields =
      { isOverflows := (fields.filterMap Field.isOverflows?).getLast?.getD false
        bucket := (fields.filterMap Field.bucket?).getLast?.getD (-1) } := by
  induction fields using List.reverseRecOn with
  | nil => rfl
  | append_singleton fields field ih =>
    have told : ofFields (fields ++ [field]) = (ofFields fields).set field := List.foldl_append
    rw [told, ih, List.filterMap_append, List.filterMap_append]
    cases field <;> simp [set, Field.isOverflows?, Field.bucket?]

/-- Fields, and then a tag. -/
inductive FieldsBefore (tag : UInt64) : Bytes → List Field → Prop where
  | mk {listed last : Bytes} {fields : List Field} :
    Listed FieldForm listed fields →
    Varint.Form last tag →
    FieldsBefore tag (listed ++ last) fields

/-- The bytes that are written for a field spell it. -/
lemma Field.form_encode : (field : Field) → FieldForm field.encode field
  | .isOverflows _ => .isOverflows (Varint.form_encode 1)
  | .bucket _ => .bucket (Varint.form_encode 2)

/-- An info is spelt by fields before the zero tag, the last of each kind counting. -/
lemma form_iff {bs : Bytes} {info : BlockInfo} :
    Form bs info ↔ ∃ fields, FieldsBefore 0 bs fields ∧ info = ofFields fields := by
  constructor
  · rintro ⟨listed, ends⟩
    exact ⟨_, .mk listed ends, rfl⟩
  · rintro ⟨fields, ⟨listed, ends⟩, rfl⟩
    exact .mk listed ends

/-- The tag announces neither a field nor the end of the list. -/
def Unknown (tag : UInt64) : Prop := tag ≠ 0 ∧ tag ≠ 1 ∧ tag ≠ 2

instance (tag : UInt64) : Decidable (Unknown tag) := inferInstanceAs (Decidable (_ ∧ _))

section

variable {ρ : Type} [Reader ρ] {tag n : UInt64}

/-- A tag that is unknown is refused. -/
lemma decodeTagged_of_unknown (unknown : Unknown tag) :
    (decodeTagged tag : Decoder ρ ClientError (Field ⊕ Unit)) =
      .fail (.protocol (.unknownBlockInfoField tag)) := by
  rw [decodeTagged, if_neg unknown.1, if_neg unknown.2.1, if_neg unknown.2.2]

/-- An error of reading a value is not that of an unknown field. -/
lemma fails_mapError_ofWire {α : Type} (d : Decoder ρ Error α) (n : UInt64) :
    (d.mapError ClientError.ofWire).Fails (· ≠ .protocol (.unknownBlockInfoField n)) := by
  refine .renamed (fun e => ?_) d
  cases e <;> exact nofun

/-- Only an unknown tag is refused as such, and nothing behind it is read. -/
lemma unknown_of_decodeTagged {r s : ρ}
    (run : (decodeTagged tag).run r = (.error (.protocol (.unknownBlockInfoField n)), s)) :
    n = tag ∧ Unknown tag ∧ s = r := by
  have other {α : Type} (d : Decoder ρ Error α) (f : α → Field ⊕ Unit) :
      (d.mapError ClientError.ofWire >>= fun a => pure (f a)).Fails
        (· ≠ .protocol (.unknownBlockInfoField n)) :=
    .bind (fails_mapError_ofWire d n) fun a => .pure (f a)
  rw [decodeTagged] at run
  split_ifs at run with zero one two
  · cases run
  · exact absurd rfl (other _ _ _ _ _ run)
  · exact absurd rfl (other _ _ _ _ _ run)
  · cases run
    exact ⟨rfl, ⟨zero, one, two⟩, rfl⟩

end

variable {ρ : Type} [Reader ρ] [Observable ρ] {n : UInt64} {r s : ρ}

/-- The field that is refused as unknown begins with its tag, and no more of it is read. -/
lemma unknown_of_decodeField
    (run : decodeField.run r = (.error (.protocol (.unknownBlockInfoField n)), s)) :
    Unknown n ∧ Begins Varint.Form (unread r) (unread s) n := by
  rcases run_bind_inv run with ⟨tag, r₁, coded, fails⟩ | ⟨e, fails, eq⟩
  · obtain ⟨rfl, unknown, rfl⟩ := unknown_of_decodeTagged fails
    have spells := Varint.spells_decode (ρ := ρ) |>.mapError ClientError.truncation_ofWire
    exact ⟨unknown, spells.sound coded⟩
  · cases eq
    exact absurd rfl (fails_mapError_ofWire _ _ _ _ _ fails)

/-- If a tag is refused as unknown, then known fields came before it and it is the next. -/
lemma unknown_of_decode
    (run : decode.run r = (.error (.protocol (.unknownBlockInfoField n)), s)) :
    Unknown n ∧ ∃ fields, Begins (FieldsBefore n) (unread r) (unread s) fields := by
  obtain ⟨pieces, r₁, all, here, ⟨_, _, never⟩ | ⟨e, fails, eq⟩⟩ :=
    gather_bind_inv (fun fields _ => ofFields fields) (fun fields u => rfl) (fun fields e => rfl)
      (P := fun x => FieldForm x.1 x.2) spells_decodeField.sound run
  · cases never
  · cases eq
    obtain ⟨unknown, last, left, coded⟩ := unknown_of_decodeField fails
    have listed := Listed.iff_pieces.2 ⟨pieces, rfl, all, rfl⟩
    refine ⟨unknown, _, _, ?_, .mk listed coded⟩
    rw [here, left, Feed.ofBytes_append, List.append_assoc]

/-- Known fields before an unknown tag are read, and then the tag is refused. -/
lemma decode_of_unknown {fields : List Field} {rest : Feed} (unknown : Unknown n)
    (begins : Begins (FieldsBefore n) (unread r) rest fields) :
    ∃ s, decode.run r = (.error (.protocol (.unknownBlockInfoField n)), s) ∧ unread s = rest := by
  obtain ⟨_, here, listed, coded⟩ := begins
  obtain ⟨pieces, rfl, all, rfl⟩ := Listed.iff_pieces.1 listed
  have reads := (Varint.spells_decode (ρ := ρ)).mapError ClientError.truncation_ofWire
  -- The error of the tag is that of the field which it does not announce, and so that of the list.
  have tagged : (decodeTagged n : Decoder ρ ClientError (Field ⊕ Unit)).Refuses [] rest
      (.protocol (.unknownBlockInfoField n)) := by
    rw [decodeTagged_of_unknown unknown]
    exact Refuses.fail _ rest
  have stops : (decodeField : Decoder ρ ClientError (Field ⊕ Unit)).Refuses _ rest _ :=
    (reads.complete coded).refuses_bind tagged
  have each : ∀ x ∈ pieces, (decodeField : Decoder ρ ClientError (Field ⊕ Unit)).Reads x.1
      (.inl x.2) := fun x mem => spells_decodeField.complete (all x mem)
  have refuses : (decode : Decoder ρ ClientError BlockInfo).Refuses _ rest _ :=
    Refuses.gather_bind (fun fields e => rfl) each stops
  refine refuses ?_ (.inl rfl)
  rw [here, Feed.ofBytes_append, List.append_nil]

/-- An info is read exactly if the stream begins with fields and then the tag 0, and it has of each
thing what the last of the fields for it says or else the default. A tag of no field is reported
exactly if the stream begins with fields and then this tag. Nothing behind the tag is used either
way. The bytes of an info are such a list, from which the same info is read. -/
theorem decode_last (input : ρ) : ∃ found input', decode.run input = (found, input') ∧
    (∀ info rest, found = .ok info ∧ unread input' = rest ↔
      ∃ fields, Begins (FieldsBefore 0) (unread input) rest fields ∧
        info =
          { isOverflows := (fields.filterMap Field.isOverflows?).getLast?.getD false
            bucket := (fields.filterMap Field.bucket?).getLast?.getD (-1) }) ∧
    (∀ n rest, found = .error (.protocol (.unknownBlockInfoField n)) ∧ unread input' = rest ↔
      Unknown n ∧ ∃ fields, Begins (FieldsBefore n) (unread input) rest fields) ∧
    ∀ info, FieldsBefore 0 info.encode info.fields ∧
      ∀ (copy : ρ) (rest : Feed), unread copy = .ofBytes info.encode ++ rest →
        ∃ copy', decode.run copy = (.ok info, copy') ∧ unread copy' = rest := by
  obtain ⟨found, input', run⟩ : ∃ found input',
      (decode : Decoder ρ ClientError BlockInfo).run input = (found, input') := ⟨_, _, rfl⟩
  refine ⟨found, input', run, fun info rest => ?told, fun n rest => ?unknown, fun info => ?written⟩
  case told =>
    rw [spells_decode.ok_iff run]
    constructor
    · rintro ⟨bs, here, form⟩
      obtain ⟨fields, before, rfl⟩ := form_iff.1 form
      exact ⟨fields, ⟨bs, here, before⟩, ofFields_eq fields⟩
    · rintro ⟨fields, ⟨bs, here, before⟩, rfl⟩
      exact ⟨bs, here, form_iff.2 ⟨fields, before, (ofFields_eq fields).symm⟩⟩
  case unknown =>
    constructor
    · rintro ⟨rfl, rfl⟩
      exact unknown_of_decode run
    · rintro ⟨unknown, fields, begins⟩
      obtain ⟨s, fails, left⟩ := decode_of_unknown unknown begins
      cases run.symm.trans fails
      exact ⟨rfl, left⟩
  case written =>
    refine ⟨.mk (.flatMap fun field _ => field.form_encode) (Varint.form_encode 0), ?_⟩
    exact fun copy rest here => (reads_decode info).whole here

/-- Three fields, the first one under a tag that is longer than need be and the second one with the
tags in its value. -/
def repeated : Bytes := [0x81, 0, 0, 2, 0, 1, 2, 0, 1, 1]

/-- Of the two fields for overflows the second one counts, if the tag 0 ends the list in one form or
another. Another tag is reported. Either way the byte behind it is left. -/
theorem decode_last_repeated :
    (∃ input' : Feed, decode.run (.ofBytes (repeated ++ [0x80, 0] ++ [7])) =
      (.ok { isOverflows := true, bucket := 131328 }, input') ∧ unread input' = .ofBytes [7]) ∧
    (∃ input' : Feed, decode.run (.ofBytes (repeated ++ [3] ++ [7])) =
      (.error (.protocol (.unknownBlockInfoField 3)), input') ∧ unread input' = .ofBytes [7]) ∧
    ∃ copy' : Feed, decode.run (.ofBytes (encode { bucket := 131328 } ++ [7])) =
      (.ok { bucket := 131328 }, copy') ∧ unread copy' = .ofBytes [7] := by
  have long : Varint.Form [0x81, 0] 1 := ⟨.more (by decide) (.last (by decide)), by decide⟩
  have one : Varint.Form [1] 1 := ⟨.last (by decide), by decide⟩
  have two : Varint.Form [2] 2 := ⟨.last (by decide), by decide⟩
  have listed : Listed FieldForm repeated [.isOverflows false, .bucket 131328, .isOverflows true] :=
    have first : FieldForm [0x81, 0, 0] (.isOverflows false) := @FieldForm.isOverflows _ false long
    have second : FieldForm [2, 0, 1, 2, 0] (.bucket 131328) := @FieldForm.bucket _ 131328 two
    have third : FieldForm [1, 1] (.isOverflows true) := @FieldForm.isOverflows _ true one
    .cons first (.cons second (.cons third .nil))
  have unread_append (bs bs' : Bytes) :
      unread (Feed.ofBytes (bs ++ bs')) = .ofBytes bs ++ .ofBytes bs' := by
    rw [unread_ofBytes, List.append_nil, Feed.ofBytes_append]
  refine ⟨?ended, ?unknown, ?written⟩
  case ended =>
    obtain ⟨found, input', run, told, _⟩ :=
      decode_last (ρ := Feed) (.ofBytes (repeated ++ [0x80, 0] ++ [7]))
    have zero : Varint.Form [0x80, 0] 0 := ⟨.more (by decide) (.last (by decide)), by decide⟩
    obtain ⟨rfl, left⟩ := (told _ (.ofBytes [7])).2
      ⟨_, ⟨_, unread_append _ _, .mk listed zero⟩, rfl⟩
    exact ⟨input', run, left⟩
  case unknown =>
    obtain ⟨found, input', run, _, unknown, _⟩ :=
      decode_last (ρ := Feed) (.ofBytes (repeated ++ [3] ++ [7]))
    have three : Varint.Form [3] 3 := ⟨.last (by decide), by decide⟩
    obtain ⟨rfl, left⟩ := (unknown 3 (.ofBytes [7])).2
      ⟨by decide, _, _, unread_append _ _, .mk listed three⟩
    exact ⟨input', run, left⟩
  case written =>
    obtain ⟨_, _, _, _, _, written⟩ := decode_last (ρ := Feed) (.ofBytes [])
    exact (written _).2 _ _ (unread_append _ _)

end Columnar.BlockInfo
