import Columnar.Proofs.Wire.Agrees
import Mathlib.Algebra.GroupWithZero.Nat

/-!
# Grammars of decoders

`d.Spells G` says that the decoder `d` reads what the grammar `G` spells and nothing else: what it
has read when it succeeds is spelt so, and wherever something is spelt so it is read. A grammar says
of bytes and a value whether the bytes spell the value; there may be several spellings of one value.
-/

namespace Columnar.Wire.Decoder

open ByteStream

variable {ρ : Type} [Reader ρ] [Observable ρ] {ε ε' α β ζ : Type} [Truncation ε] [Truncation ε']
  {G : Bytes → α → Prop}

/-- The decoder reads exactly what the grammar spells. -/
structure Spells (d : Decoder ρ ε α) (G : Bytes → α → Prop) : Prop where
  sound : ∀ {r s a}, d.run r = (.ok a, s) → ∃ bs, unread r = .ofBytes bs ++ unread s ∧ G bs a
  complete : ∀ {bs a}, G bs a → d.Reads bs a

/-- The stream begins with a spelling of the value, behind which comes the rest. -/
def Begins (G : Bytes → α → Prop) (stream rest : Feed) (a : α) : Prop :=
  ∃ bs, stream = .ofBytes bs ++ rest ∧ G bs a

namespace Spells

/-- What a run has found, and where it has stopped, is what the stream begins with. -/
lemma ok_iff {d : Decoder ρ ε α} (h : d.Spells G) {r s : ρ} {found : Except ε α}
    (run : d.run r = (found, s)) {a : α} {rest : Feed} :
    found = .ok a ∧ unread s = rest ↔ Begins G (unread r) rest a := by
  constructor
  · rintro ⟨rfl, rfl⟩
    exact h.sound run
  · rintro ⟨bs, here, spelt⟩
    obtain ⟨s', goes, left⟩ := (h.complete spelt).whole here
    cases run.symm.trans goes
    exact ⟨rfl, left⟩

/-- Where the bytes are all there is, what is read of them is what they spell. -/
lemma reads_iff {d : Decoder Feed ε α} (h : d.Spells G) {bs : Bytes} {a : α} :
    d.Reads bs a ↔ G bs a := by
  constructor
  · exact fun reads => reads.inv h.sound
  · exact h.complete

/-- A decoder spells any form that says the same. -/
lemma of_iff {d : Decoder ρ ε α} {G' : Bytes → α → Prop} (h : d.Spells G)
    (same : ∀ bs a, G bs a ↔ G' bs a) : d.Spells G' where
  sound run := by
    obtain ⟨bs, here, spelt⟩ := h.sound run
    exact ⟨bs, here, (same _ _).1 spelt⟩
  complete spelt := h.complete ((same _ _).2 spelt)

/-- A decoder that reads nothing spells its value by no bytes. -/
lemma pure (a : α) : (Pure.pure a : Decoder ρ ε α).Spells fun bs a' => bs = [] ∧ a' = a where
  sound run := by
    cases run
    exact ⟨[], rfl, rfl, rfl⟩
  complete := by
    rintro bs a' ⟨rfl, rfl⟩
    exact .pure a'

/-- A decoder that fails spells nothing. -/
lemma fail (e : ε) : (Decoder.fail e : Decoder ρ ε α).Spells fun _ _ => False where
  sound run := nomatch run
  complete never := never.elim

omit [Truncation ε'] in
/-- A decoder that reads nothing and fails where there is no result. -/
lemma of_result {d : Decoder ρ ε α} {result : Except ε' α}
    (good : ∀ a, result = .ok a → d = Pure.pure a)
    (bad : ∀ e, result = .error e → ∃ e', d = .fail e') :
    d.Spells fun bs a => bs = [] ∧ result = .ok a := by
  cases result with
  | ok a =>
    rw [good a rfl]
    refine of_iff (pure a) fun bs a' => and_congr_right fun _ => ?_
    rw [Except.ok.injEq, eq_comm]
  | error e =>
    obtain ⟨e', rfl⟩ := bad e rfl
    exact of_iff (fail e') fun bs a => ⟨False.elim, fun spelt => nomatch spelt.2⟩

/-- A known result is spelt by no bytes if it is a value. -/
lemma ofExcept (result : Except ε α) :
    (Decoder.ofExcept result : Decoder ρ ε α).Spells fun bs a => bs = [] ∧ result = .ok a := by
  refine of_result (fun a settled => ?_) fun e settled => ⟨e, ?_⟩ <;> rw [settled] <;> rfl

/-- A decoder of which one knows only that it agrees with itself over feeds. -/
lemma of_agrees {d : Decoder ρ ε α} {d' : Decoder Feed ε α} (there : d.Agrees d')
    (back : d'.Agrees d) : d.Spells d'.Reads where
  sound run := there.ok run
  complete reads := back.reads reads

/-- A spelling and then one of what its value asks for. -/
def Sequel (G : Bytes → α → Prop) (H : α → Bytes → β → Prop) (bs : Bytes) (b : β) : Prop :=
  ∃ first a second, bs = first ++ second ∧ G first a ∧ H a second b

/-- Two parts spell their forms one after the other. -/
lemma bind {d : Decoder ρ ε α} {f : α → Decoder ρ ε β} {H : α → Bytes → β → Prop}
    (first : d.Spells G) (next : ∀ a, (f a).Spells (H a)) : (d >>= f).Spells (Sequel G H) where
  sound {r s b} run := by
    rcases run_bind_inv run with ⟨a, r₁, run, goes⟩ | ⟨e, _, eq⟩
    · obtain ⟨bs, here, spelt⟩ := first.sound run
      obtain ⟨bs', left, spelt'⟩ := (next a).sound goes
      refine ⟨bs ++ bs', ?_, bs, a, bs', rfl, spelt, spelt'⟩
      rw [here, left, Feed.ofBytes_append, List.append_assoc]
    · cases eq
  complete := by
    rintro bs b ⟨bs₁, a, bs₂, rfl, spelt, spelt'⟩
    exact (first.complete spelt).bind ((next a).complete spelt')

/-- A change of the value changes what is spelt. -/
lemma map {d : Decoder ρ ε α} (h : d.Spells G) (f : α → β) :
    (f <$> d).Spells fun bs b => ∃ a, G bs a ∧ b = f a where
  sound run := by
    obtain ⟨result, ran, eq⟩ := run_map_inv run
    cases result with
    | error e => cases eq
    | ok a =>
      cases eq
      obtain ⟨bs, here, spelt⟩ := h.sound ran
      exact ⟨bs, here, a, spelt, rfl⟩
  complete := by
    rintro bs b ⟨a, spelt, rfl⟩
    exact (h.complete spelt).map f

/-- A change of the errors changes nothing of what is spelt. -/
lemma mapError {d : Decoder ρ ε α} {f : ε → ε'} (h : d.Spells G)
    (kept : ∀ e, IsTruncation e → IsTruncation (f e)) : (d.mapError f).Spells G where
  sound run := by
    obtain ⟨result, ran, eq⟩ := run_mapError_inv run
    cases result with
    | error e => cases eq
    | ok a =>
      cases eq
      exact h.sound ran
  complete spelt := (h.complete spelt).mapError kept

/-- Bytes spell themselves. -/
lemma take (n : Nat) :
    (Decoder.take n : Decoder ρ Error Bytes).Spells fun bs got => bs.length = n ∧ got = bs where
  sound {r s bs} run := by
    obtain ⟨len, here⟩ := Reads.take_inv run
    exact ⟨bs, here, len, rfl⟩
  complete := by
    rintro bs got ⟨len, rfl⟩
    exact .take len

/-- A byte spells itself. -/
lemma byte : (Decoder.byte : Decoder ρ Error UInt8).Spells fun bs b => bs = [b] where
  sound run := by
    obtain ⟨bs, here, first, got, second, rfl, ⟨len, rfl⟩, rfl, rfl⟩ :=
      (bind (take 1) fun got => pure (got.headD 0)).sound run
    obtain ⟨b, rfl⟩ := List.length_eq_one_iff.1 len
    exact ⟨_, here, rfl⟩
  complete := by
    rintro bs b rfl
    exact .byte b

/-- Spellings of the values of a list, one after the other. -/
inductive Listed (G : Bytes → α → Prop) : Bytes → List α → Prop where
  | nil : Listed G [] []
  | cons {bs bs' : Bytes} {a : α} {as : List α} :
    G bs a →
    Listed G bs' as →
    Listed G (bs ++ bs') (a :: as)

namespace Listed

/-- No values are listed by no bytes. -/
lemma nil_iff {bs : Bytes} : Listed G bs [] ↔ bs = [] := by
  constructor
  · rintro ⟨⟩
    rfl
  · rintro rfl
    exact .nil

/-- A list is spelt in pieces, one for each value. -/
lemma iff_pieces {bs : Bytes} {as : List α} :
    Listed G bs as ↔ ∃ pieces : List (Bytes × α), bs = pieces.flatMap Prod.fst ∧
      (∀ x ∈ pieces, G x.1 x.2) ∧ as = pieces.map Prod.snd := by
  constructor
  · intro listed
    induction listed with
    | nil => exact ⟨[], rfl, nofun, rfl⟩
    | @cons bs _ a _ spelt _ ih =>
      obtain ⟨pieces, rfl, all, rfl⟩ := ih
      exact ⟨(bs, a) :: pieces, rfl, List.forall_mem_cons.2 ⟨spelt, all⟩, rfl⟩
  · rintro ⟨pieces, rfl, all, rfl⟩
    induction pieces with
    | nil => exact .nil
    | cons x pieces ih =>
      obtain ⟨spelt, all⟩ := List.forall_mem_cons.1 all
      exact .cons spelt (ih all)

/-- Every value of the list has a spelling. -/
lemma exists_of_mem {bs : Bytes} {as : List α} (listed : Listed G bs as) :
    ∀ a ∈ as, ∃ bs, G bs a := by
  induction listed with
  | nil => exact nofun
  | cons spelt _ ih => exact List.forall_mem_cons.2 ⟨⟨_, spelt⟩, ih⟩

/-- Where no value is worth more than the bytes that spell it, no list is. -/
lemma sum_le {bs : Bytes} {as : List α} (listed : Listed G bs as) (f : α → Nat)
    (least : ∀ {bs a}, G bs a → f a ≤ bs.length) : (as.map f).sum ≤ bs.length := by
  induction listed with
  | nil => exact Nat.le_refl _
  | cons spelt _ ih =>
    rw [List.map_cons, List.sum_cons, List.length_append]
    exact Nat.add_le_add (least spelt) ih

/-- Where the bytes of every value spell it, those of a list spell the list. -/
lemma flatMap {enc : α → Bytes} {as : List α} (each : ∀ a ∈ as, G (enc a) a) :
    Listed G (as.flatMap enc) as := by
  induction as with
  | nil => exact .nil
  | cons a as ih =>
    obtain ⟨spelt, each⟩ := List.forall_mem_cons.1 each
    exact .cons spelt (ih each)

/-- Where every value has one spelling only, so has a list of them. -/
lemma eq_flatMap {enc : α → Bytes} {bs : Bytes} {as : List α}
    (listed : Listed (fun bs a => bs = enc a) bs as) : bs = as.flatMap enc := by
  induction listed with
  | nil => rfl
  | cons spelt _ ih => rw [List.flatMap_cons, ← spelt, ← ih]

end Listed

/-- Values are spelt one after the other, behind those that have been gathered. -/
lemma manyFrom {d : Decoder ρ ε α} (each : d.Spells G) (n : Nat) (got : Array α) :
    (d.manyFrom n got).Spells fun bs found =>
      ∃ as : List α, as.length = n ∧ Listed G bs as ∧ found = got ++ as.toArray := by
  induction n generalizing got with
  | zero =>
    refine of_iff (pure got) fun bs found => ?_
    constructor
    · rintro ⟨rfl, rfl⟩
      exact ⟨[], rfl, .nil, Array.append_empty.symm⟩
    · rintro ⟨as, none, listed, rfl⟩
      obtain rfl := List.eq_nil_of_length_eq_zero none
      exact ⟨Listed.nil_iff.1 listed, Array.append_empty⟩
  | succ n ih =>
    have same (got : Array α) (a : α) (as : List α) :
        got.push a ++ as.toArray = got ++ (a :: as).toArray := Array.ext' (by simp)
    rw [manyFrom_succ]
    -- What has been gathered grows at its end, the list at its front.
    refine of_iff (bind (each.mapError fun e cut => cut) fun a => ih (got.push a)) fun bs found => ?_
    constructor
    · rintro ⟨first, a, second, rfl, spelt, as, rfl, listed, rfl⟩
      exact ⟨a :: as, rfl, .cons spelt listed, same got a as⟩
    · rintro ⟨as, count, listed, rfl⟩
      cases listed with
      | nil => cases count
      | @cons first second a as spelt listed =>
        exact ⟨first, a, second, rfl, spelt, as, Nat.succ.inj count, listed, (same got a as).symm⟩

/-- Values are spelt one after the other. -/
lemma many {d : Decoder ρ ε α} (each : d.Spells G) (n : Nat) :
    (d.many n).Spells fun bs found => found.size = n ∧ Listed G bs found.toList := by
  have spells : (d.many n).Spells _ := manyFrom each n #[]
  refine of_iff spells fun bs found => ?_
  constructor
  · rintro ⟨as, count, listed, rfl⟩
    rw [Array.empty_append]
    exact ⟨count, listed⟩
  · rintro ⟨count, listed⟩
    exact ⟨found.toList, count, listed, by rw [Array.empty_append]⟩

/-- Spellings of values that are gathered, and then of the one that ends them. -/
lemma gather_bind {d : Decoder ρ ε (α ⊕ β)} {c : d.Consumes} {G : Bytes → α ⊕ β → Prop}
    (each : d.Spells G) {k : List α × Except ε β → Decoder ρ ε ζ} (value : List α → β → ζ)
    (good : ∀ as b, k (as, .ok b) = Pure.pure (value as b))
    (bad : ∀ as e, k (as, .error e) = .fail e) :
    (gather d c >>= k).Spells fun bs z => ∃ (pieces : List (Bytes × α)) (last : Bytes) (b : β),
      bs = pieces.flatMap Prod.fst ++ last ∧ (∀ x ∈ pieces, G x.1 (.inl x.2)) ∧
      G last (.inr b) ∧ z = value (pieces.map Prod.snd) b where
  sound {r s z} run := by
    obtain ⟨pieces, r₁, all, here, ⟨b, ran, eq⟩ | ⟨e, _, eq⟩⟩ :=
      gather_bind_inv value good bad (P := fun x => G x.1 (.inl x.2)) each.sound run
    · cases eq
      obtain ⟨last, left, spelt⟩ := each.sound ran
      refine ⟨_, ?_, pieces, last, b, rfl, all, spelt, rfl⟩
      rw [here, left, Feed.ofBytes_append, List.append_assoc]
    · cases eq
  complete := by
    rintro bs z ⟨pieces, last, b, rfl, all, spelt, rfl⟩
    exact .gather_bind Prod.snd (fun x mem => each.complete (all x mem)) (each.complete spelt)
      (good _ b) bad

end Spells

end Columnar.Wire.Decoder
