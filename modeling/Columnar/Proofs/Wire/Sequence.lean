import Columnar.Proofs.ByteStream.Obliging
import Columnar.Proofs.Wire.Values

/-!
# Values one after the other

Values of any kinds that are written one after the other need nothing between them: reading the same
kinds gives the same values and leaves what follows (`reads_decodeEach`), and where the bytes end too
early the values that are whole are read and the next one is found truncated (`decodeEach_short`).
Main statement: `decodeEach_exact`.
-/

namespace Columnar.Wire

open ByteStream

/-- The value has an encoding. -/
def Value.Fits (v : Value) : Prop := v.kind.Fits v.value

instance (v : Value) : Decidable v.Fits := inferInstanceAs (Decidable (v.kind.Fits v.value))

/-- The bytes of values one after the other. -/
def encodeEach (vs : List Value) : Bytes := vs.flatMap Value.encode

/-- Values are encoded one after the other. -/
lemma encodeEach_append (vs vs' : List Value) :
    encodeEach (vs ++ vs') = encodeEach vs ++ encodeEach vs' :=
  List.flatMap_append

/-- Fewer values have a beginning of the encoding. -/
lemma prefix_encodeEach {vs vs' : List Value} (h : vs <+: vs') :
    encodeEach vs <+: encodeEach vs' := by
  obtain ⟨more, rfl⟩ := h
  rw [encodeEach_append]
  exact List.prefix_append _ _

/-- Writes values one after the other onto a sink, until one cannot be written. -/
def writeEach : List Value → Sink → Except Error Unit × Sink
  | [], s => (.ok (), s)
  | v :: vs, s =>
    match v.write s with
    | (.ok (), s') => writeEach vs s'
    | (.error e, s') => (.error e, s')

/-- An obliging sink takes a value and remains obliging. -/
lemma Value.write_obliging {s : Sink} (obliging : s.Obliging) (v : Value) :
    ∃ s', v.write s = (.ok (), s') ∧ s'.accepted = s.accepted ++ v.encode ∧ s'.Obliging := by
  obtain ⟨s', writes, accepted, obliges⟩ := obliging.writeAll v.encode
  refine ⟨s', ?_, accepted, obliges⟩
  rw [Value.write, writes]
  rfl

/-- An obliging sink takes all the values. -/
lemma writeEach_obliging (vs : List Value) {s : Sink} (obliging : s.Obliging) :
    ∃ s', writeEach vs s = (.ok (), s') ∧ s'.accepted = s.accepted ++ encodeEach vs := by
  induction vs generalizing s with
  | nil => exact ⟨s, rfl, (List.append_nil _).symm⟩
  | cons v vs ih =>
    obtain ⟨s₁, writes, accepted, obliges⟩ := v.write_obliging obliging
    obtain ⟨s', goes, accepted'⟩ := ih obliges
    refine ⟨s', ?_, ?_⟩
    · rw [writeEach, writes]
      exact goes
    · rw [accepted', accepted, List.append_assoc]
      rfl

variable {ρ : Type} [Reader ρ]

/-- Reads a value of the kind, and hands it on with its kind. -/
def decodeValue (k : Kind) : Decoder ρ Error Value := Value.mk k <$> k.decode

/-- Reads a value of each kind in turn; an error comes with the values read before it. -/
def decodeEach : List Kind → Decoder ρ (Error × List Value) (List Value)
  | [] => pure []
  | k :: ks => do
    let v ← (decodeValue k).mapError fun e => (e, [])
    let vs ← (decodeEach ks).mapError fun (e, vs) => (e, v :: vs)
    return v :: vs

/-- Where the first value fails there are no values before it. -/
lemma run_decodeEach_error {k : Kind} {r r' : ρ} {e : Error}
    (run : (decodeValue k).run r = (.error e, r')) (ks : List Kind) :
    (decodeEach (k :: ks)).run r = (.error (e, []), r') := by
  rw [decodeEach]
  exact Decoder.run_bind_error (Decoder.run_mapError run)

/-- Where the first value is there, it comes before the others and before their error. -/
lemma run_decodeEach_ok {k : Kind} {r r₁ r' : ρ} {v : Value}
    (run : (decodeValue k).run r = (.ok v, r₁)) {ks : List Kind}
    {result : Except (Error × List Value) (List Value)}
    (goes : (decodeEach ks).run r₁ = (result, r')) :
    (decodeEach (k :: ks)).run r =
      ((result.map (v :: ·)).mapError fun (e, vs) => (e, v :: vs), r') := by
  rw [decodeEach, Decoder.run_bind_ok (Decoder.run_mapError run)]
  have renamed := Decoder.run_mapError (f := fun (e, vs) => (e, v :: vs)) goes
  cases result with
  | ok vs => rw [Decoder.run_bind_ok renamed]; rfl
  | error e => rw [Decoder.run_bind_error renamed]; rfl

variable [Observable ρ]

/-- A value that fits is read as it was written. -/
lemma Value.reads_decodeValue {v : Value} (h : v.Fits) :
    (decodeValue v.kind : Decoder ρ Error Value).Reads v.encode v :=
  (Kind.reads_decode h).map (Value.mk v.kind)

/-- Values that fit are read as they were written. -/
lemma reads_decodeEach {vs : List Value} (fits : ∀ v ∈ vs, v.Fits) :
    (decodeEach (vs.map Value.kind) : Decoder ρ _ _).Reads (encodeEach vs) vs := by
  induction vs with
  | nil => exact .pure []
  | cons v vs ih =>
    obtain ⟨first, others⟩ := List.forall_mem_cons.1 fits
    refine Decoder.Reads.bind ((Value.reads_decodeValue first).mapError ?_) ?_
    · exact fun e cut => cut
    · refine Decoder.Reads.bind_pure ((ih others).mapError ?_) (.pure _)
      exact fun e cut => cut

/-- The cut falls within one of the values; those before it are read. -/
lemma decodeEach_short {vs : List Value} (fits : ∀ v ∈ vs, v.Fits) {p : Bytes}
    (c : CutShort p (encodeEach vs)) {r : ρ} (here : unread r = .ofBytes p) :
    ∃ done next later q r', vs = done ++ next :: later ∧ p = encodeEach done ++ q ∧
      CutShort q next.encode ∧
      (decodeEach (vs.map Value.kind)).run r = (.error (.truncated, done), r') := by
  induction vs generalizing p r with
  | nil => exact c.not_nil.elim
  | cons v vs ih =>
    obtain ⟨first, others⟩ := List.forall_mem_cons.1 fits
    have read := Value.reads_decodeValue (ρ := ρ) first
    rcases c.append with within | ⟨q, rfl, beyond⟩
    · obtain ⟨e, r', run, rfl⟩ := read.short within here
      exact ⟨[], v, vs, p, r', rfl, rfl, within, run_decodeEach_error run _⟩
    · rw [Feed.ofBytes_append] at here
      obtain ⟨r₁, run, left⟩ := read.whole here
      obtain ⟨done, next, later, q, r', rfl, rfl, within, goes⟩ := ih others beyond left
      refine ⟨v :: done, next, later, q, r', rfl, ?_, within, run_decodeEach_ok run goes⟩
      exact (List.append_assoc ..).symm

/-- Where the bytes end within a value, the bytes of a beginning of the values are all there exactly
if it does not reach that value. -/
lemma encodeEach_prefix_iff {done later : List Value} {next : Value} {q : Bytes}
    (c : CutShort q next.encode) {vs : List Value} (begins : vs <+: done ++ next :: later) :
    encodeEach vs <+: encodeEach done ++ q ↔ vs <+: done := by
  constructor
  · intro whole
    rcases List.prefix_or_prefix_of_prefix begins (List.prefix_append done _) with before | beyond
    · exact before
    · obtain ⟨more, rfl⟩ := beyond
      rw [List.prefix_append_right_inj] at begins
      cases more with
      | nil => simp
      | cons v more =>
        -- The value in which the bytes end would have to be there as a whole.
        obtain ⟨rfl, _⟩ := List.cons_prefix_cons.1 begins
        rw [encodeEach_append, List.prefix_append_right_inj] at whole
        have all : v.encode <+: q := (List.prefix_append _ _).trans whole
        exact absurd c.length_lt (Nat.not_lt.2 all.length_le)
  · intro before
    exact (prefix_encodeEach before).trans (List.prefix_append _ _)

/-- Values of any kinds that are written one after the other are read back in order, and what follows
their bytes is left. Where the stream ends before the last of these bytes, the values whose bytes
have all come are read, and the one after them is reported as truncated. -/
theorem decodeEach_exact {vs : List Value} (fits : ∀ v ∈ vs, v.Fits) {sink : Sink}
    (obliging : sink.Obliging) :
    ∃ sink', writeEach vs sink = (.ok (), sink') ∧
      sink'.accepted = sink.accepted ++ encodeEach vs ∧
      (∀ (input : ρ) (rest : Feed), unread input = .ofBytes (encodeEach vs) ++ rest →
        ∃ input', (decodeEach (vs.map Value.kind)).run input = (.ok vs, input') ∧
          unread input' = rest) ∧
      ∀ (input : ρ) (p : Bytes), p <+: encodeEach vs → p ≠ encodeEach vs →
        unread input = .ofBytes p →
        ∃ found input', (decodeEach (vs.map Value.kind)).run input =
            (.error (.truncated, found), input') ∧
          found <+: vs ∧ ∀ whole, whole <+: vs → (encodeEach whole <+: p ↔ whole <+: found) := by
  obtain ⟨sink', writes, accepted⟩ := writeEach_obliging vs obliging
  refine ⟨sink', writes, accepted, fun input rest here => ?_,
    fun input p begins short here => ?_⟩
  · exact (reads_decodeEach fits).whole here
  · obtain ⟨done, next, later, q, input', rfl, rfl, within, run⟩ :=
      decodeEach_short fits ⟨begins, short⟩ here
    refine ⟨done, input', run, List.prefix_append _ _, fun whole begins => ?_⟩
    exact encodeEach_prefix_iff within begins

/-- A value of each sort: of a length of its own, with a length before it, and of fixed width. -/
def mixture : List Value :=
  [⟨.varint, 300⟩, ⟨.text, "é"⟩, ⟨.bool, true⟩, ⟨.scalar .float32, 0x7FC00001⟩]

/-- A mixture of values of all kinds is read back, and no more than its whole values from a
beginning. -/
theorem decodeEach_exact_mixture :
    (∀ v ∈ mixture, v.Fits) ∧
      Sink.Obliging { writes := [.accept 3, .failure ⟨.interrupted, "again"⟩] } ∧
      ∃ sink', writeEach mixture
            { writes := [.accept 3, .failure ⟨.interrupted, "again"⟩] } = (.ok (), sink') ∧
        sink'.accepted = encodeEach mixture ∧
        (∃ input', (decodeEach (mixture.map Value.kind)).run (Feed.ofBytes (encodeEach mixture)) =
            (.ok mixture, input') ∧ unread input' = []) ∧
        ∃ input', (decodeEach (mixture.map Value.kind)).run
            (Feed.ofBytes ((encodeEach mixture).take 8)) =
          (.error (.truncated, mixture.take 3), input') := by
  have fits : ∀ v ∈ mixture, v.Fits := by
    simp only [mixture, List.forall_mem_cons]
    exact ⟨trivial, by decide, trivial, trivial, List.forall_mem_nil _⟩
  have obliging : Sink.Obliging { writes := [.accept 3, .failure ⟨.interrupted, "again"⟩] } :=
    ⟨by simp [WriteEntry.Obliging], List.forall_mem_nil _⟩
  obtain ⟨sink', writes, accepted, whole, short⟩ := decodeEach_exact (ρ := Feed) fits obliging
  refine ⟨fits, obliging, sink', writes, accepted, whole _ [] (unread_ofBytes _), ?_⟩
  -- Of the four bytes of the last value only two have come.
  have bytes : encodeEach mixture =
      [0xAC, 0x02, 0x02, 0xC3, 0xA9, 0x01, 0x01, 0x00, 0xC0, 0x7F] := by decide +kernel
  have three : encodeEach (mixture.take 3) = [0xAC, 0x02, 0x02, 0xC3, 0xA9, 0x01] := by
    decide +kernel
  have begins : (encodeEach mixture).take 8 <+: encodeEach mixture := List.take_prefix _ _
  have cut : (encodeEach mixture).take 8 ≠ encodeEach mixture := by rw [bytes]; decide
  obtain ⟨found, input', run, among, contained⟩ := short _ _ begins cut (Feed.calm_ofBytes _)
  have least : mixture.take 3 <+: found :=
    (contained _ (List.take_prefix 3 mixture)).1 (by rw [bytes, three]; decide)
  have most : ¬mixture <+: found := mt (contained _ List.prefix_rfl).2 (by rw [bytes]; decide)
  have short : found.length < mixture.length :=
    Nat.lt_of_not_le fun le => most (among.eq_of_length_le le ▸ List.prefix_rfl)
  obtain rfl := least.eq_of_length_le (Nat.le_of_lt_succ short)
  exact ⟨input', run⟩

end Columnar.Wire
