import Columnar.Proofs.Wire.Reads

/-!
# Decoders that agree

Two decoders agree if what the one reads is a value for the other, and if the other reports what the
one reports where the same stands in its stream: always if the same follows, and unless the error is
a truncation whatever follows. A decoder is always one of a family, one for each kind of reader, and
agreement of all members says that nothing but the bytes and the failures of a stream decides what
is read, and none of them beyond what has been used.
-/

namespace Columnar.Wire.Decoder

open ByteStream

variable {ρ σ : Type} [Reader ρ] [Reader σ] {ε ε' α β ζ : Type}

/-- Reads `n` more values onto those in `got`. -/
def manyFrom (d : Decoder ρ ε α) (n : Nat) (got : Array α) : Decoder ρ (ε × Array α) (Array α) where
  run := manyOnto d n got
  shrinks := shrinks_manyOnto d n got

/-- Many values are one value and then the others. -/
lemma manyFrom_succ (d : Decoder ρ ε α) (n : Nat) (got : Array α) :
    d.manyFrom (n + 1) got =
      d.mapError (fun e => (e, got)) >>= fun a => d.manyFrom n (got.push a) := by
  apply eq_of_run
  intro r
  obtain ⟨result, r₁, run⟩ : ∃ result r₁, d.run r = (result, r₁) := ⟨_, _, rfl⟩
  cases result with
  | ok a =>
    rw [run_bind_ok (run_mapError run)]
    simp only [manyFrom, manyOnto, run]
  | error e =>
    rw [run_bind_error (run_mapError run)]
    simp only [manyFrom, manyOnto, run]

variable [Observable ρ] [Observable σ] [Truncation ε] [Truncation ε']

/-- The decoder uses these items and reports the error, if then the stream goes on as given or if it
has not been found to end within a value. -/
def Refuses (d : Decoder ρ ε α) (used after : Feed) (e : ε) : Prop :=
  ∀ {r rest}, unread r = used ++ rest → rest = after ∨ ¬IsTruncation e →
    ∃ r', d.run r = (.error e, r') ∧ unread r' = rest

/-- The second decoder does whatever the first one does where the same stands in its stream. -/
structure Agrees (d : Decoder ρ ε α) (d' : Decoder σ ε α) : Prop where
  ok : ∀ {r s a}, d.run r = (.ok a, s) →
    ∃ bs, unread r = .ofBytes bs ++ unread s ∧ d'.Reads bs a
  error : ∀ {r s e}, d.run r = (.error e, s) →
    ∃ used, unread r = used ++ unread s ∧ d'.Refuses used (unread s) e

namespace Refuses

/-- A decoder that only fails refuses at once. -/
lemma fail (e : ε) (after : Feed) : (fail e : Decoder ρ ε α).Refuses [] after e := by
  intro r rest here _
  exact ⟨r, rfl, here⟩

/-- What is refused in the first part is refused in the whole. -/
lemma bind {d : Decoder ρ ε α} {used after : Feed} {e : ε} (h : d.Refuses used after e)
    (f : α → Decoder ρ ε β) : (d >>= f).Refuses used after e := by
  intro r rest here goes
  obtain ⟨r', run, left⟩ := h here goes
  exact ⟨r', run_bind_error run, left⟩

/-- What is refused is refused under another error, too. -/
lemma mapError {d : Decoder ρ ε α} {f : ε → ε'} {used after : Feed} {e : ε}
    (h : d.Refuses used after e) (kept : ∀ e, IsTruncation e → IsTruncation (f e)) :
    (d.mapError f).Refuses used after (f e) := by
  intro r rest here goes
  obtain ⟨r', run, left⟩ := h here (goes.imp_right (mt (kept e)))
  exact ⟨r', run_mapError run, left⟩

/-- A stream that stops before all bytes have come. -/
lemma take {n : Nat} {p : Bytes} (len : p.length < n) {rest : Feed} (stops : rest.Stops) :
    ∃ used, .ofBytes p ++ rest = used ++ rest.tail ∧
      (take n : Decoder ρ Error Bytes).Refuses used rest.tail (.ofStop rest) := by
  cases rest with
  | nil =>
    refine ⟨.ofBytes p, rfl, ?_⟩
    intro r rest here goes
    obtain rfl : rest = [] := goes.resolve_right (not_not_intro rfl)
    exact Reads.takeOnto_stopped [] n r here len Feed.stops_nil
  | cons item rest =>
    cases item with
    | byte b => exact absurd rfl (stops b rest)
    | failure e =>
      refine ⟨Feed.ofBytes p ++ [.failure e], ?_, ?_⟩
      · rw [List.append_assoc]
        rfl
      · intro r rest' here _
        rw [List.append_assoc] at here
        exact Reads.takeOnto_stopped [] n r here len (Feed.stops_failure e rest')

end Refuses

/-- What is refused behind a value that was read is refused behind its bytes. -/
lemma Reads.refuses_bind {d : Decoder ρ ε α} {f : α → Decoder ρ ε β} {bs : Bytes} {a : α}
    (first : d.Reads bs a) {used after : Feed} {e : ε} (h : (f a).Refuses used after e) :
    (d >>= f).Refuses (.ofBytes bs ++ used) after e := by
  intro r rest here goes
  rw [List.append_assoc] at here
  obtain ⟨r₁, run, left⟩ := first.whole here
  rw [run_bind_ok run]
  exact h left goes

namespace Agrees

/-- A decoder that reads nothing agrees with itself over any other reader. -/
lemma pure (a : α) : (Pure.pure a : Decoder ρ ε α).Agrees (Pure.pure a : Decoder σ ε α) where
  ok run := by
    cases run
    exact ⟨[], rfl, .pure a⟩
  error run := nomatch run

/-- A decoder that only fails agrees with itself over any other reader. -/
lemma fail (e : ε) : (Decoder.fail e : Decoder ρ ε α).Agrees (Decoder.fail e : Decoder σ ε α) where
  ok run := nomatch run
  error run := by
    cases run
    exact ⟨[], rfl, Refuses.fail e _⟩

/-- Decoders that agree part by part agree in the whole. -/
lemma bind {d : Decoder ρ ε α} {d' : Decoder σ ε α} {f : α → Decoder ρ ε β}
    {f' : α → Decoder σ ε β} (first : d.Agrees d') (next : ∀ a, (f a).Agrees (f' a)) :
    (d >>= f).Agrees (d' >>= f') where
  ok {r s b} run := by
    rcases run_bind_inv run with ⟨a, r₁, run, goes⟩ | ⟨e, _, eq⟩
    · obtain ⟨bs, here, reads⟩ := first.ok run
      obtain ⟨bs', left, reads'⟩ := (next a).ok goes
      refine ⟨bs ++ bs', ?_, reads.bind reads'⟩
      rw [here, left, Feed.ofBytes_append, List.append_assoc]
    · cases eq
  error {r s e} run := by
    rcases run_bind_inv run with ⟨a, r₁, run, goes⟩ | ⟨e', run, eq⟩
    · obtain ⟨bs, here, reads⟩ := first.ok run
      obtain ⟨used, left, refuses⟩ := (next a).error goes
      refine ⟨.ofBytes bs ++ used, ?_, reads.refuses_bind refuses⟩
      rw [here, left, List.append_assoc]
    · cases eq
      obtain ⟨used, here, refuses⟩ := first.error run
      exact ⟨used, here, refuses.bind f'⟩

/-- Decoders agree when what they read is changed alike. -/
lemma map {d : Decoder ρ ε α} {d' : Decoder σ ε α} (h : d.Agrees d') (f : α → β) :
    (f <$> d).Agrees (f <$> d') :=
  h.bind fun a => .pure (f a)

/-- Decoders agree when their errors are changed alike. -/
lemma mapError {d : Decoder ρ ε α} {d' : Decoder σ ε α} {f : ε → ε'} (h : d.Agrees d')
    (kept : ∀ e, IsTruncation e → IsTruncation (f e)) : (d.mapError f).Agrees (d'.mapError f) where
  ok {r s a} run := by
    obtain ⟨result, ran, eq⟩ := run_mapError_inv run
    cases result with
    | ok a' =>
      cases eq
      obtain ⟨bs, here, reads⟩ := h.ok ran
      exact ⟨bs, here, reads.mapError kept⟩
    | error e => cases eq
  error {r s e} run := by
    obtain ⟨result, ran, eq⟩ := run_mapError_inv run
    cases result with
    | ok a => cases eq
    | error e' =>
      cases eq
      obtain ⟨used, here, refuses⟩ := h.error ran
      exact ⟨used, here, Refuses.mapError refuses kept⟩

/-- A known result is the same over any reader. -/
lemma ofExcept (result : Except ε α) :
    (Decoder.ofExcept result : Decoder ρ ε α).Agrees (Decoder.ofExcept result : Decoder σ ε α) := by
  cases result with
  | ok a => exact .pure a
  | error e => exact .fail e

/-- What a decoder leaves is the end of what was there. -/
lemma suffix {d : Decoder ρ ε α} {d' : Decoder σ ε α} (h : d.Agrees d') {r s : ρ}
    {result : Except ε α} (run : d.run r = (result, s)) : unread s <:+ unread r := by
  cases result with
  | ok a =>
    obtain ⟨bs, here, _⟩ := h.ok run
    exact ⟨_, here.symm⟩
  | error e =>
    obtain ⟨used, here, _⟩ := h.error run
    exact ⟨used, here.symm⟩

/-- What is read from a feed is read from any reader. -/
lemma reads {d : Decoder Feed ε α} {d' : Decoder σ ε α} (h : d.Agrees d') {bs : Bytes} {a : α}
    (whole : d.Reads bs a) : d'.Reads bs a :=
  whole.inv h.ok

/-- Bytes are taken alike from any reader. -/
lemma take (n : Nat) :
    (Decoder.take n : Decoder ρ Error Bytes).Agrees (Decoder.take n : Decoder σ Error Bytes) where
  ok {r s bs} run := by
    obtain ⟨len, here⟩ := Reads.take_inv run
    exact ⟨bs, here, .take len⟩
  error {r s e} run := by
    obtain ⟨p, rest, here, some, stops, rfl, left⟩ := Reads.take_error_inv run
    obtain ⟨used, parts, refuses⟩ := Refuses.take (ρ := σ) some stops
    rw [left]
    exact ⟨used, here.trans parts, refuses⟩

/-- A byte is taken alike from any reader. -/
lemma byte : (Decoder.byte : Decoder ρ Error UInt8).Agrees (Decoder.byte : Decoder σ Error UInt8) :=
  bind (.take 1) fun _ => .pure _

/-- Steps that agree do so when they are repeated. -/
lemma iterate {τ : Type} {step : τ → Decoder ρ ε τ} {step' : τ → Decoder σ ε τ}
    (each : ∀ s, (step s).Agrees (step' s)) (n : Nat) (s : τ) :
    (iterate step n s).Agrees (iterate step' n s) := by
  induction n generalizing s with
  | zero => exact .pure s
  | succ n ih => exact bind (each s) ih

/-- Values that are read alike are gathered alike. -/
lemma manyFrom {d : Decoder ρ ε α} {d' : Decoder σ ε α} (each : d.Agrees d') (n : Nat)
    (got : Array α) : (d.manyFrom n got).Agrees (d'.manyFrom n got) := by
  induction n generalizing got with
  | zero => exact .pure got
  | succ n ih =>
    rw [manyFrom_succ, manyFrom_succ]
    refine bind (each.mapError ?_) fun a => ih (got.push a)
    exact fun e cut => cut

/-- Values that are read alike are read alike in number. -/
lemma many {d : Decoder ρ ε α} {d' : Decoder σ ε α} (each : d.Agrees d') (n : Nat) :
    (d.many n).Agrees (d'.many n) :=
  manyFrom each n #[]

end Agrees

section

variable {d : Decoder ρ ε (α ⊕ β)} {d' : Decoder σ ε (α ⊕ β)} {c : d.Consumes} {c' : d'.Consumes}

omit [Truncation ε] in
/-- What a repetition has read are values one after the other, and then it has ended with its last
value or failed. -/
lemma gatherOnto_inv {P : Bytes × α → Prop} (each : ∀ {r s a}, d.run r = (.ok (.inl a), s) →
      ∃ bs, unread r = .ofBytes bs ++ unread s ∧ P (bs, a))
    {got : Array α} {r s : ρ} {as : List α} {result : Except ε β}
    (run : gatherOnto d c got r = ((as, result), s)) :
    ∃ pieces : List (Bytes × α), ∃ r₁, as = got.toList ++ pieces.map Prod.snd ∧
      (∀ x ∈ pieces, P x) ∧
      unread r = .ofBytes (pieces.flatMap Prod.fst) ++ unread r₁ ∧
      d.run r₁ = (result.map .inr, s) := by
  fun_induction gatherOnto d c got r with
  | case1 got r a r₁ ran ih =>
    obtain ⟨bs, here, piece⟩ := each ran
    obtain ⟨pieces, r₂, rfl, all, left, last⟩ := ih run
    refine ⟨(bs, a) :: pieces, r₂, ?_, List.forall_mem_cons.2 ⟨piece, all⟩, ?_, last⟩
    · rw [Array.toList_push, List.append_assoc]
      rfl
    · rw [here, left, List.flatMap_cons, Feed.ofBytes_append, List.append_assoc]
  | case2 got r b r₁ ran =>
    cases run
    exact ⟨[], r, (List.append_nil _).symm, List.forall_mem_nil _, rfl, ran⟩
  | case3 got r e r₁ ran =>
    cases run
    exact ⟨[], r, (List.append_nil _).symm, List.forall_mem_nil _, rfl, ran⟩

/-- A repetition reports what its decoder reports after the values that can be read. -/
lemma Refuses.gatherOnto {pieces : List (Bytes × α)} (all : ∀ x ∈ pieces, d.Reads x.1 (.inl x.2))
    {used after : Feed} {e : ε} (h : d.Refuses used after e) (got : Array α) {r : ρ} {rest : Feed}
    (here : unread r = .ofBytes (pieces.flatMap Prod.fst) ++ used ++ rest)
    (goes : rest = after ∨ ¬IsTruncation e) :
    ∃ r', Decoder.gatherOnto d c got r =
        ((got.toList ++ pieces.map Prod.snd, .error e), r') ∧ unread r' = rest := by
  rw [List.append_assoc] at here
  obtain ⟨got', r₁, gathers, values, left⟩ := Reads.gatherOnto_append (h := c) all got here
  obtain ⟨r', run, left⟩ := h left goes
  exact ⟨r', by rw [gathers, gatherOnto_error run, values], left⟩

section

variable {k : List α × Except ε β → Decoder ρ ε ζ} (value : List α → β → ζ)
  (good : ∀ as b, k (as, .ok b) = Pure.pure (value as b)) (bad : ∀ as e, k (as, .error e) = .fail e)

include good bad in
omit [Truncation ε] in
/-- A repetition whose values make up one value has ended with a last value or with the error of its
decoder, and before that it has read values one after the other. -/
lemma gather_bind_inv {P : Bytes × α → Prop} (each : ∀ {r s a}, d.run r = (.ok (.inl a), s) →
      ∃ bs, unread r = .ofBytes bs ++ unread s ∧ P (bs, a))
    {r s : ρ} {result : Except ε ζ} (run : (gather d c >>= k).run r = (result, s)) :
    ∃ pieces : List (Bytes × α), ∃ r₁, (∀ x ∈ pieces, P x) ∧
      unread r = .ofBytes (pieces.flatMap Prod.fst) ++ unread r₁ ∧
      ((∃ b, d.run r₁ = (.ok (.inr b), s) ∧ result = .ok (value (pieces.map Prod.snd) b)) ∨
        ∃ e, d.run r₁ = (.error e, s) ∧ result = .error e) := by
  obtain ⟨⟨as, last⟩, s₁, gathered⟩ : ∃ found s₁, Decoder.gatherOnto d c #[] r = (found, s₁) :=
    ⟨_, _, rfl⟩
  obtain ⟨pieces, r₁, rfl, all, here, ran⟩ := gatherOnto_inv each gathered
  refine ⟨pieces, r₁, all, here, ?_⟩
  have goes : (k (pieces.map Prod.snd, last)).run s₁ = (result, s) := by
    rw [← run, run_bind_ok (run_gather gathered)]
    rfl
  cases last with
  | ok b =>
    rw [good] at goes
    cases goes
    exact .inl ⟨b, ran, rfl⟩
  | error e =>
    rw [bad] at goes
    cases goes
    exact .inr ⟨e, ran, rfl⟩

include bad in
/-- A repetition whose values make up one value reports what its decoder reports. -/
lemma Refuses.gather_bind {pieces : List (Bytes × α)} (all : ∀ x ∈ pieces, d.Reads x.1 (.inl x.2))
    {used after : Feed} {e : ε} (h : d.Refuses used after e) :
    (gather d c >>= k).Refuses (.ofBytes (pieces.flatMap Prod.fst) ++ used) after e := by
  intro r rest here goes
  obtain ⟨r', gathered, left⟩ := h.gatherOnto (c := c) all #[] here goes
  refine ⟨r', ?_, left⟩
  rw [run_bind_ok (run_gather gathered)]
  exact congrArg (·.run r') (bad _ e)

end

/-- A repetition whose values make up one value, if it does not fail. -/
lemma Agrees.gather_bind (each : d.Agrees d') {k : List α × Except ε β → Decoder ρ ε ζ}
    {k' : List α × Except ε β → Decoder σ ε ζ} (value : List α → β → ζ)
    (good : ∀ as b, k (as, .ok b) = Pure.pure (value as b))
    (good' : ∀ as b, k' (as, .ok b) = Pure.pure (value as b))
    (bad : ∀ as e, k (as, .error e) = .fail e) (bad' : ∀ as e, k' (as, .error e) = .fail e) :
    (gather d c >>= k).Agrees (gather d' c' >>= k') := by
  have parts {r s : ρ} {result : Except ε ζ} (run : (gather d c >>= k).run r = (result, s)) :=
    gather_bind_inv value good bad (P := fun x => d'.Reads x.1 (.inl x.2)) each.ok run
  constructor
  · intro r s z run
    obtain ⟨pieces, r₁, all, here, ⟨b, ran, eq⟩ | ⟨e, _, eq⟩⟩ := parts run
    · cases eq
      obtain ⟨bs, left, reads⟩ := each.ok ran
      refine ⟨pieces.flatMap Prod.fst ++ bs, ?_, .gather_bind Prod.snd all reads (good' _ b) bad'⟩
      rw [here, left, Feed.ofBytes_append, List.append_assoc]
    · cases eq
  · intro r s e run
    obtain ⟨pieces, r₁, all, here, ⟨b, _, eq⟩ | ⟨e', ran, eq⟩⟩ := parts run
    · cases eq
    · cases eq
      obtain ⟨used, left, refuses⟩ := each.error ran
      refine ⟨.ofBytes (pieces.flatMap Prod.fst) ++ used, ?_, refuses.gather_bind bad' all⟩
      rw [here, left, List.append_assoc]

end

end Columnar.Wire.Decoder
