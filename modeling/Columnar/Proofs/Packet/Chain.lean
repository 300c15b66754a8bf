import Columnar.Proofs.Packet.Forms
import Columnar.Proofs.Packet.Reply
import Columnar.Proofs.Wire.Fails

/-!
# Exceptions, record by record

The bytes of any records in a row, each but the last one followed by its cause, are read as the
exception whose chain they are (`encode_eq`, `exists_of_chain`). Reading puts the last record below
the outer ones. It is the same to collect all records first and to link them from the last one on
(`decode_eq_decodeLinking`), where there would be no exception if there were no records. Main
statement: `decode_chain`.
-/

namespace Columnar

open ByteStream Wire

namespace Wire

variable {ρ : Type} [Reader ρ]

/-- The error is none that a value describes in words of its own. -/
def Undescribed (e : Error) : Prop := ∀ text, e ≠ .malformed (.described text)

/-- Taking bytes fails with no error that is described in words. -/
lemma undescribed_take (n : Nat) : (Decoder.take n : Decoder ρ Error Bytes).Fails Undescribed := by
  intro r e r' run
  change Decoder.takeOnto [] n r = _ at run
  generalize ([] : Bytes) = got at run
  fun_induction Decoder.takeOnto got n r with
  | case1 => cases run
  | case2 =>
    cases run
    intro text same
    cases same
  | case3 got n r _ b bs r₁ call ih => exact ih run
  | case4 got n r _ e' r₁ call _ ih => exact ih run
  | case5 got n r _ e' r₁ call _ =>
    cases run
    intro text same
    rw [Error.ofFailure] at same
    split at same <;> cases same

/-- Taking a byte fails with no such error. -/
lemma undescribed_byte : (Decoder.byte : Decoder ρ Error UInt8).Fails Undescribed :=
  .bind (undescribed_take 1) fun _ => .pure _

/-- The groups of a number fail with no such error. -/
lemma Varint.undescribed_decodeGroups (left : Nat) :
    (decodeGroups left : Decoder ρ Error Nat).Fails Undescribed := by
  induction left with
  | zero => exact .fail nofun
  | succ left ih =>
    refine Decoder.Fails.bind undescribed_byte fun b => ?_
    dsimp only
    split
    · exact .fail nofun
    · split
      · exact .pure _
      · exact Decoder.Fails.bind ih fun high => .pure _

/-- A signed word fails with no such error. -/
lemma undescribed_decodeInt32 : (decodeInt32 : Decoder ρ Error Int32).Fails Undescribed :=
  .map (.map (undescribed_take 4) _) _

/-- A truth value fails with no such error. -/
lemma undescribed_decodeBool : (decodeBool : Decoder ρ Error Bool).Fails Undescribed := by
  refine Decoder.Fails.bind undescribed_byte fun b => ?_
  split
  · exact .pure _
  · split
    · exact .pure _
    · exact .fail nofun

/-- A text fails with no such error. -/
lemma undescribed_decodeText : (decodeText : Decoder ρ Error String).Fails Undescribed := by
  refine Decoder.Fails.bind (.bind ?_ fun length => undescribed_take _) fun bs => ?_
  · exact .map (Varint.undescribed_decodeGroups _) _
  · cases Utf8.decode bs with
    | ok s => exact .pure s
    | error fault => exact .fail nofun

/-- A text that begins otherwise is another one. -/
lemma ne_of_head {s t : String} {c : Char} (h : s.toList.head? = some c)
    (other : t.toList.head? ≠ some c) : s ≠ t := by
  rintro rfl
  exact other h

/-- What is appended to a text does not change how it begins. -/
lemma head_append {s : String} {c : Char} (h : s.toList.head? = some c) (t : String) :
    (s ++ t).toList.head? = some c := by
  rw [String.toList_append, List.head?_append, h]
  rfl

/-- What is wrong with a value that does not describe it is said in other words. -/
lemma Undescribed.message_ne {reason : Malformation} (h : Undescribed (.malformed reason)) :
    reason.message ≠ "empty exception chain" := by
  cases reason with
  | varintTooLarge => decide
  | notABool byte => exact ne_of_head (c := 'I') (head_append (head_append rfl _) _) (by decide)
  | notUtf8 fault =>
    cases fault with
    | invalid length index =>
      exact ne_of_head (c := 'i') (head_append (head_append (head_append rfl _) _) _) (by decide)
    | incomplete index => exact ne_of_head (c := 'i') (head_append rfl _) (by decide)
  | described text => exact absurd rfl (h text)

end Wire

namespace ServerException

variable {ρ : Type} [Reader ρ]

/-- Asking for the cause again and again leads to these exceptions and then to no more. -/
inductive Causes : ServerException → List ServerException → Prop where
  | none {e : ServerException} :
    e.cause? = none →
    Causes e []
  | more {e cause : ServerException} {causes : List ServerException} :
    e.cause? = some cause →
    Causes cause causes →
    Causes e (cause :: causes)

/-- The bytes of records in a row, each of which but the last one is followed by its cause. -/
def encodeRecords : List ExceptionRecord → Bytes
  | [] => []
  | [record] => encodeRecord record false
  | record :: cause :: records => encodeRecord record true ++ encodeRecords (cause :: records)

/-- A chain begins with the record of the exception itself. -/
lemma chain_eq_cons (e : ServerException) : ∃ causes, e.chain = e.record :: causes := by
  cases e with
  | root record => exact ⟨[], rfl⟩
  | causedBy record cause => exact ⟨cause.chain, rfl⟩

/-- An exception is encoded record by record. -/
lemma encode_eq (e : ServerException) : e.encode = encodeRecords e.chain := by
  induction e with
  | root record => rfl
  | causedBy record cause ih =>
    obtain ⟨causes, chained⟩ := cause.chain_eq_cons
    rw [encode, chain, ih, chained]
    rfl

/-- Records in a row are the chain of an exception. -/
lemma exists_of_chain {records : List ExceptionRecord} (some : records ≠ []) :
    ∃ e : ServerException, e.chain = records := by
  induction records with
  | nil => exact absurd rfl some
  | cons record records ih =>
    cases records with
    | nil => exact ⟨.root record, rfl⟩
    | cons cause records =>
      obtain ⟨e, chained⟩ := ih (List.cons_ne_nil _ _)
      exact ⟨.causedBy record e, congrArg (record :: ·) chained⟩

/-- A chain ends with the root cause. -/
lemma getLast?_chain (e : ServerException) : e.chain.getLast? = some e.rootCause := by
  induction e with
  | root record => rfl
  | causedBy record cause ih =>
    obtain ⟨causes, chained⟩ := cause.chain_eq_cons
    rw [chain, rootCause, ← ih, chained]
    rfl

/-- The chain behind an exception is that of its causes. -/
lemma exists_causes (e : ServerException) :
    ∃ causes, Causes e causes ∧ causes.map record = e.chain.tail ∧
      e.sources = e.chain.tail.map ExceptionRecord.message := by
  induction e with
  | root record => exact ⟨[], .none rfl, rfl, rfl⟩
  | causedBy record cause ih =>
    obtain ⟨causes, asked, same, texts⟩ := ih
    obtain ⟨records, chained⟩ := cause.chain_eq_cons
    rw [chained] at same texts
    refine ⟨cause :: causes, .more rfl asked, ?_, ?_⟩
    · rw [chain, chained, List.map_cons, same]
      rfl
    · rw [chain, chained, sources, texts]
      rfl

/-- A record above what has been linked below it, if there is anything. -/
def above (below : Option ServerException) (record : ExceptionRecord) : ServerException :=
  below.elim (.root record) (.causedBy record)

/-- Takes the records off one by one, the last one first, and links each to those taken before. -/
def link? (records : List ExceptionRecord) : Option ServerException :=
  records.reverse.foldl (fun below record => some (above below record)) none

/-- A record is linked above those that follow it. -/
lemma link?_cons (record : ExceptionRecord) (records : List ExceptionRecord) :
    link? (record :: records) = some (above (link? records) record) := by
  rw [link?, List.reverse_cons, List.foldl_append]
  rfl

/-- The order is reversed once: what is linked is the exception with these records. -/
lemma link?_eq (outer : List ExceptionRecord) (last : ExceptionRecord) :
    link? (outer ++ [last]) = some (ofRecords outer last) := by
  induction outer with
  | nil => rfl
  | cons record outer ih =>
    rw [List.cons_append, link?_cons, ih]
    rfl

/-- Reads all records of an exception and then links them. -/
def decodeLinking : Decoder ρ Error ServerException := do
  match ← Decoder.gather decodeRecord consumes_decodeRecord with
  | (outer, .ok last) =>
    match link? (outer ++ [last]) with
    | some e => return e
    | none => .fail (.malformed (.described "empty exception chain"))
  | (_, .error e) => .fail e

/-- Reading record by record gives what reading all and linking them gives. -/
lemma decode_eq_decodeLinking : (decode : Decoder ρ Error ServerException) = decodeLinking := by
  apply Decoder.eq_of_run
  intro r
  refine congrArg (fun d : Decoder ρ Error ServerException => d.run r)
    (congrArg (Decoder.gather decodeRecord consumes_decodeRecord >>= ·) ?_)
  funext ⟨outer, last⟩
  cases last with
  | ok last => simp only [link?_eq]
  | error e => rfl

/-- An exception fails with no such error: its chain is never found empty. -/
lemma undescribed_decode : (decode : Decoder ρ Error ServerException).Fails Undescribed := by
  refine Decoder.Fails.gather_bind (P := Undescribed) ?_ ?_ ?_
  · refine Decoder.Fails.bind undescribed_decodeInt32 fun code => ?_
    refine Decoder.Fails.bind undescribed_decodeText fun name => ?_
    refine Decoder.Fails.bind undescribed_decodeText fun displayText => ?_
    refine Decoder.Fails.bind undescribed_decodeText fun stackTrace => ?_
    exact Decoder.Fails.bind undescribed_decodeBool fun nested => .pure _
  · exact fun outer last => .pure _
  · exact fun outer e sort => .fail sort

/-- A truth value that is false has ended the bytes of an exception. -/
lemma Form.ends {bs : Bytes} {e : ServerException} (form : Form bs e) :
    ∃ before, bs = before ++ encodeBool false := by
  induction form with
  | @root bs record form =>
    obtain @⟨name, displayText, stackTrace⟩ := form
    refine ⟨encodeInt32 record.code ++ (name ++ (displayText ++ stackTrace)), ?_⟩
    simp only [List.append_assoc]
  | causedBy form _ ih =>
    obtain ⟨before, rfl⟩ := ih
    exact ⟨_, (List.append_assoc ..).symm⟩

variable [Observable ρ]

/-- Whatever records stand in the stream, however many, they are read as the exception with this
chain, and what follows them is left; where the stream ends within them it is truncated. Over every
stream an exception is read exactly if records stand there of which a false truth value ends the
last one, and it is never reported that there are none. -/
theorem decode_chain :
    (∀ {records : List ExceptionRecord} {input : ρ} {rest : Feed}, records ≠ [] →
      (∀ record ∈ records, record.Fits) →
      unread input = .ofBytes (encodeRecords records) ++ rest →
      ∃ e input', (decode : Decoder ρ Error _).run input = (.ok e, input') ∧ unread input' = rest ∧
        e.chain = records ∧ e.depth = records.length ∧ records.getLast? = some e.rootCause ∧
        (∃ causes, Causes e causes ∧ causes.map record = records.tail) ∧
        e.sources = records.tail.map ExceptionRecord.message) ∧
    (∀ {records : List ExceptionRecord} {p : Bytes} {input : ρ}, (∀ record ∈ records, record.Fits) →
      CutShort p (encodeRecords records) → unread input = .ofBytes p →
      ∃ input', (decode : Decoder ρ Error _).run input = (.error .truncated, input')) ∧
    (∀ {input input' : ρ} {found : Except Error ServerException},
      (decode : Decoder ρ Error _).run input = (found, input') →
      (∀ e rest, found = .ok e ∧ unread input' = rest ↔ Decoder.Begins Form (unread input) rest e) ∧
      ∀ reason, found = .error (.malformed reason) → reason.message ≠ "empty exception chain") ∧
    (∀ {bs : Bytes} {e : ServerException}, Form bs e → ∃ before, bs = before ++ encodeBool false) ∧
    (decode : Decoder ρ Error ServerException) = decodeLinking := by
  refine ⟨?_, ?_, ?_, Form.ends, decode_eq_decodeLinking⟩
  · intro records input rest some fits here
    obtain ⟨e, rfl⟩ := exists_of_chain some
    rw [← encode_eq] at here
    obtain ⟨input', run, left⟩ := (reads_decode fits).whole here
    obtain ⟨causes, asked, same, texts⟩ := e.exists_causes
    exact ⟨e, input', run, left, rfl, rfl, e.getLast?_chain, ⟨causes, asked, same⟩, texts⟩
  · intro records p input fits c here
    obtain ⟨e, rfl⟩ : ∃ e : ServerException, e.chain = records := by
      apply exists_of_chain
      rintro rfl
      exact c.not_nil
    rw [← encode_eq] at c
    obtain ⟨error, input', run, cut⟩ := (reads_decode fits).short c here
    cases cut
    exact ⟨input', run⟩
  · intro input input' found run
    refine ⟨fun e rest => spells_decode.ok_iff run, ?_⟩
    rintro reason rfl
    exact (undescribed_decode _ _ _ run).message_ne

/-- Three records, of which one has no words at all. -/
def mishap : List ExceptionRecord :=
  [⟨60, "DB::Exception", "Table t does not exist", "at parse"⟩, ⟨81, "Inner", "é", ""⟩,
    ⟨-1, "", "", ""⟩]

/-- The three records are read in their order, and a byte that follows them is left. -/
theorem decode_chain_mishap :
    (mishap ≠ [] ∧ (∀ record ∈ mishap, record.Fits) ∧
      unread (Feed.ofBytes (encodeRecords mishap ++ [7])) =
        .ofBytes (encodeRecords mishap) ++ .ofBytes [7]) ∧
    ∃ e input', (decode : Decoder Feed Error _).run (.ofBytes (encodeRecords mishap ++ [7])) =
        (.ok e, input') ∧ unread input' = .ofBytes [7] ∧ e.chain = mishap ∧ e.depth = 3 := by
  have some : mishap ≠ [] := List.cons_ne_nil _ _
  have fits : ∀ record ∈ mishap, record.Fits := by
    rw [mishap, List.forall_mem_cons, List.forall_mem_cons, List.forall_mem_singleton]
    exact ⟨⟨by decide, by decide, by decide⟩, ⟨by decide, by decide, by decide⟩,
      ⟨by decide, by decide, by decide⟩⟩
  have here : unread (Feed.ofBytes (encodeRecords mishap ++ [7])) =
      .ofBytes (encodeRecords mishap) ++ .ofBytes [7] :=
    (Feed.calm_ofBytes _).trans (Feed.ofBytes_append _ _)
  obtain ⟨whole, _⟩ := decode_chain (ρ := Feed)
  obtain ⟨e, input', run, left, chained, depth, _⟩ := whole some fits here
  exact ⟨⟨some, fits, here⟩, e, input', run, left, chained, depth⟩

end ServerException

end Columnar
