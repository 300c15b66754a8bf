import Columnar.Proofs.Packet.Complete

/-!
# Forms of first packets

The bytes of what a server may say to a client that introduces itself, field by field: what it says
about itself, where the revision decides whether a timezone follows, and an exception, where every
record tells whether another one follows. The decoders read exactly these forms.
-/

namespace Columnar

open ByteStream Wire Decoder

variable {ρ : Type} [Reader ρ] [Observable ρ] {α : Type} {bs : Bytes}

/-- A field in its form, if it is present, and otherwise no bytes. -/
def OptionalForm (G : Bytes → α → Prop) (present : Prop) (bs : Bytes) : Option α → Prop
  | some a => present ∧ G bs a
  | none => ¬present ∧ bs = []

/-- What a revision may lack is spelt as such. -/
lemma spells_decodeGated {ε : Type} [Truncation ε] {r : Revision} {f : Feature} {d : Decoder ρ ε α}
    {G : Bytes → α → Prop} (h : d.Spells G) :
    (decodeGated r f d).Spells (OptionalForm G (f.since ≤ r.number)) := by
  rw [decodeGated]
  by_cases since : f.since ≤ r.number
  · rw [if_pos (Revision.supports_iff.2 since)]
    refine .of_iff (h.map some) fun bs found => ?_
    constructor
    · rintro ⟨a, form, rfl⟩
      exact ⟨since, form⟩
    · intro form
      cases found with
      | some a => exact ⟨a, form.2, rfl⟩
      | none => exact absurd since form.1
  · rw [if_neg (mt Revision.supports_iff.1 since)]
    refine .of_iff (.pure none) fun bs found => ?_
    constructor
    · rintro ⟨rfl, rfl⟩
      exact ⟨since, rfl⟩
    · intro form
      cases found with
      | some a => exact absurd form.1 since
      | none => exact ⟨form.2, rfl⟩

/-- Where nothing is to be spelt, nothing is found. -/
lemma OptionalForm.eq_none {G : Bytes → α → Prop} {present : Prop} {found : Option α}
    (form : OptionalForm G present bs found) (gone : ¬present) : found = none := by
  cases found with
  | some a => exact absurd form.1 gone
  | none => rfl

namespace ServerInfo

/-- A name, three numbers and, if the smaller one of the server's revision and the client's is 54058
or later, a timezone. -/
inductive Form : Bytes → ServerInfo → Prop where
  | mk {name versionMajor versionMinor revision timezone : Bytes} {info : ServerInfo} :
    TextForm name info.name →
    Varint.Form versionMajor info.versionMajor →
    Varint.Form versionMinor info.versionMinor →
    Varint.Form revision info.revision →
    OptionalForm TextForm (54058 ≤ min info.revision 54126) timezone info.timezone →
    Form (name ++ (versionMajor ++ (versionMinor ++ (revision ++ timezone)))) info

/-- The greeting of the server is spelt by its form. -/
lemma spells_decode : (decode : Decoder ρ Error ServerInfo).Spells Form := by
  refine .of_iff (.bind spells_decodeText fun name => .bind Varint.spells_decode fun versionMajor =>
    .bind Varint.spells_decode fun versionMinor => .bind Varint.spells_decode fun revision =>
    .bind (spells_decodeGated spells_decodeText) fun timezone => .pure _) fun bs info => ?_
  constructor
  · rintro ⟨name, _, _, rfl, named, versionMajor, _, _, rfl, major, versionMinor, _, _, rfl, minor,
      revision, _, _, rfl, revised, timezone, _, _, rfl, zoned, rfl, rfl⟩
    rw [List.append_nil]
    exact .mk named major minor revised zoned
  · rintro ⟨named, major, minor, revised, zoned⟩
    exact ⟨_, _, _, rfl, named, _, _, _, rfl, major, _, _, _, rfl, minor, _, _, _, rfl, revised,
      _, _, [], (List.append_nil _).symm, zoned, rfl, rfl⟩

end ServerInfo

namespace ServerException

/-- A code, three texts and the truth value that tells whether a cause follows. -/
inductive RecordForm (nested : Bool) : Bytes → ExceptionRecord → Prop where
  | mk {name displayText stackTrace : Bytes} {e : ExceptionRecord} :
    TextForm name e.name →
    TextForm displayText e.displayText →
    TextForm stackTrace e.stackTrace →
    RecordForm nested
      (encodeInt32 e.code ++ (name ++ (displayText ++ (stackTrace ++ encodeBool nested)))) e

/-- A record without a cause, or one with its cause behind it. -/
inductive Form : Bytes → ServerException → Prop where
  | root {bs : Bytes} {record : ExceptionRecord} :
    RecordForm false bs record →
    Form bs (.root record)
  | causedBy {bs bs' : Bytes} {record : ExceptionRecord} {cause : ServerException} :
    RecordForm true bs record →
    Form bs' cause →
    Form (bs ++ bs') (.causedBy record cause)

/-- A record of an exception is spelt by its form and by whether another follows. -/
lemma spells_decodeRecord :
    (decodeRecord : Decoder ρ Error (ExceptionRecord ⊕ ExceptionRecord)).Spells fun bs =>
      Sum.elim (RecordForm true bs) (RecordForm false bs) := by
  refine .of_iff (.bind spells_decodeInt32 fun code => .bind spells_decodeText fun name =>
    .bind spells_decodeText fun displayText => .bind spells_decodeText fun stackTrace =>
    .bind spells_decodeBool fun nested => .pure _) fun bs found => ?_
  constructor
  · rintro ⟨_, code, _, rfl, rfl, _, name, _, rfl, named, _, displayText, _, rfl, told,
      _, stackTrace, _, rfl, traced, _, nested, _, rfl, rfl, rfl, rfl⟩
    have form : RecordForm nested _ ⟨code, name, displayText, stackTrace⟩ := .mk named told traced
    rw [List.append_nil]
    cases nested with
    | false => exact form
    | true => exact form
  · intro form
    obtain ⟨nested, record, ⟨named, told, traced⟩, rfl⟩ : ∃ nested record,
        RecordForm nested bs record ∧ found = if nested then .inl record else .inr record := by
      cases found with
      | inl record => exact ⟨true, record, form, rfl⟩
      | inr record => exact ⟨false, record, form, rfl⟩
    exact ⟨_, _, _, rfl, rfl, _, _, _, rfl, named, _, _, _, rfl, told, _, _, _, rfl, traced,
      _, nested, [], (List.append_nil _).symm, rfl, rfl, rfl⟩

/-- An exception is laid out as its outer records and then the last one. -/
lemma form_iff {e : ServerException} : Form bs e ↔
    ∃ (pieces : List (Bytes × ExceptionRecord)) (last : Bytes) (record : ExceptionRecord),
      bs = pieces.flatMap Prod.fst ++ last ∧ (∀ x ∈ pieces, RecordForm true x.1 x.2) ∧
      RecordForm false last record ∧ e = ofRecords (pieces.map Prod.snd) record := by
  constructor
  · intro form
    induction form with
    | @root bs record form => exact ⟨[], bs, record, rfl, nofun, form, rfl⟩
    | @causedBy bs _ record cause form _ ih =>
      obtain ⟨pieces, last, innermost, rfl, all, ends, rfl⟩ := ih
      refine ⟨(bs, record) :: pieces, last, innermost, ?_, List.forall_mem_cons.2 ⟨form, all⟩, ends,
        rfl⟩
      rw [List.flatMap_cons, List.append_assoc]
  · rintro ⟨pieces, last, record, rfl, all, ends, rfl⟩
    induction pieces with
    | nil => exact .root ends
    | cons x pieces ih =>
      obtain ⟨outermost, all⟩ := List.forall_mem_cons.1 all
      rw [List.flatMap_cons, List.append_assoc]
      exact .causedBy outermost (ih all)

/-- An exception is spelt by its form. -/
lemma spells_decode : (decode : Decoder ρ Error ServerException).Spells Form := by
  refine .of_iff (.gather_bind spells_decodeRecord ofRecords ?_ ?_) fun bs e => form_iff.symm
  · exact fun outer last => rfl
  · exact fun outer e => rfl

end ServerException

/-- A code in any form, and then what belongs to a packet with this code. -/
def PacketForm (code : UInt64) (G : Bytes → α → Prop) (bs : Bytes) (a : α) : Prop :=
  ∃ head body, bs = head ++ body ∧ Varint.Form head code ∧ G body a

namespace Packet

variable {r : Revision} {registry : Registry}

/-- A complete packet of a kind whose bodies have a form. -/
lemma complete_iff {kind : PacketKind} (make : α → Packet) {d : Decoder Feed Error α}
    {G : Bytes → α → Prop} (body : decodeBody r registry kind = (make <$> d).mapError .ofWire)
    (spells : d.Spells G) (sort : ∀ a, (make a).kind = kind) (inj : make.Injective) {a : α} :
    Complete r registry bs (make a) ↔ PacketForm kind.code G bs a := by
  have whole := (spells.map make).mapError ClientError.truncation_ofWire
  rw [Complete, sort, body]
  constructor
  · rintro ⟨head, body, rfl, coded, reads⟩
    obtain ⟨a', form, same⟩ := whole.reads_iff.1 reads
    obtain rfl := inj same
    exact ⟨head, body, rfl, coded, form⟩
  · rintro ⟨head, body, rfl, coded, form⟩
    exact ⟨head, body, rfl, coded, whole.complete ⟨a, form, rfl⟩⟩

/-- A packet of this kind is a greeting behind its code. -/
lemma complete_hello_iff {info : ServerInfo} :
    Complete r registry bs (.hello info) ↔ PacketForm 0 ServerInfo.Form bs info :=
  complete_iff .hello rfl ServerInfo.spells_decode (fun _ => rfl) fun _ _ => hello.inj

/-- A packet of this kind is an exception behind its code. -/
lemma complete_exception_iff {e : ServerException} :
    Complete r registry bs (.exception e) ↔ PacketForm 2 ServerException.Form bs e :=
  complete_iff .exception rfl ServerException.spells_decode (fun _ => rfl) fun _ _ => exception.inj

end Packet

end Columnar
