import Columnar.Proofs.ByteStream.Unread
import Columnar.Wire.Decoder

/-!
# Reading what stands in the stream

`d.Reads bs a` says that `bs` is the whole of a value for the decoder `d`: where these bytes are
next in the stream, `d` reads `a` and leaves what follows them, and where the stream ends within
them, `d` reports a truncation. The relation composes as decoders do (`Reads.bind`,
`Reads.gather_bind`, ...), so what a packet of any shape needs is one line for each of its parts.
-/

namespace Columnar

/-- The first byte string is the second one cut short. -/
def CutShort (p bs : Bytes) : Prop := p <+: bs ∧ p ≠ bs

namespace CutShort

/-- Nothing can be cut from no bytes. -/
lemma not_nil {p : Bytes} (c : CutShort p []) : False := c.2 (List.prefix_nil.1 c.1)

/-- What has been cut is shorter. -/
lemma length_lt {p bs : Bytes} (c : CutShort p bs) : p.length < bs.length :=
  Nat.lt_of_le_of_ne c.1.length_le fun e => c.2 (c.1.eq_of_length e)

/-- The cut falls within the first part or within the second. -/
lemma append {p bs bs' : Bytes} (c : CutShort p (bs ++ bs')) :
    CutShort p bs ∨ ∃ q, p = bs ++ q ∧ CutShort q bs' := by
  obtain ⟨pre, ne⟩ := c
  rcases List.prefix_or_prefix_of_prefix pre (List.prefix_append bs bs') with within | beyond
  · by_cases e : p = bs
    · subst e
      refine .inr ⟨[], (List.append_nil p).symm, List.nil_prefix, ?_⟩
      rintro rfl
      exact ne (List.append_nil p).symm
    · exact .inl ⟨within, e⟩
  · obtain ⟨q, rfl⟩ := beyond
    refine .inr ⟨q, rfl, (List.prefix_append_right_inj bs).1 pre, ?_⟩
    rintro rfl
    exact ne rfl

/-- The cut falls within one of the parts, or within what follows all of them. -/
lemma flatMap {α : Type} {enc : α → Bytes} {xs : List α} {p bs : Bytes}
    (c : CutShort p (xs.flatMap enc ++ bs)) :
    (∃ done x later q, xs = done ++ x :: later ∧ p = done.flatMap enc ++ q ∧ CutShort q (enc x)) ∨
      ∃ q, p = xs.flatMap enc ++ q ∧ CutShort q bs := by
  induction xs generalizing p with
  | nil => exact .inr ⟨p, rfl, c⟩
  | cons x xs ih =>
    rw [List.flatMap_cons, List.append_assoc] at c
    rcases c.append with within | ⟨q, rfl, beyond⟩
    · exact .inl ⟨[], x, xs, p, rfl, rfl, within⟩
    · rcases ih beyond with ⟨done, y, later, q', rfl, rfl, within⟩ | ⟨q', rfl, within⟩
      · refine .inl ⟨x :: done, y, later, q', rfl, ?_, within⟩
        rw [List.flatMap_cons, List.append_assoc]
      · refine .inr ⟨q', ?_, within⟩
        rw [List.flatMap_cons, List.append_assoc]

end CutShort

namespace Wire

open ByteStream

/-- What is reported of a value at which the stream stops: the failure in front, or a truncation. -/
def Error.ofStop : Feed → Error
  | .failure e :: _ => .ofFailure e
  | _ => .truncated

/-- Errors some of which say that the stream ended within a value. -/
class Truncation (ε : Type) where
  IsTruncation : ε → Prop

export Truncation (IsTruncation)

instance : Truncation Error := ⟨fun e => e = .truncated⟩

/-- An error that comes with what was read before it. -/
instance {ε σ : Type} [Truncation ε] : Truncation (ε × σ) := ⟨fun e => IsTruncation e.1⟩

namespace Decoder

variable {ρ : Type} [Reader ρ] {ε ε' α β γ ζ : Type}

/-- After a success the rest of the program runs. -/
lemma run_bind_ok {d : Decoder ρ ε α} {f : α → Decoder ρ ε β} {r r' : ρ} {a : α}
    (h : d.run r = (.ok a, r')) : (d >>= f).run r = (f a).run r' := by
  show (d.bind f).run r = _
  simp only [Decoder.bind, h]

/-- After a failure nothing else runs. -/
lemma run_bind_error {d : Decoder ρ ε α} {f : α → Decoder ρ ε β} {r r' : ρ} {e : ε}
    (h : d.run r = (.error e, r')) : (d >>= f).run r = (.error e, r') := by
  show (d.bind f).run r = _
  simp only [Decoder.bind, h]

/-- A change of the errors changes the result and nothing else. -/
lemma run_mapError {d : Decoder ρ ε α} {f : ε → ε'} {r r' : ρ} {result : Except ε α}
    (h : d.run r = (result, r')) : (d.mapError f).run r = (result.mapError f, r') := by
  simp only [mapError, h]

/-- Decoders that run alike are equal. -/
lemma eq_of_run {d d' : Decoder ρ ε α} (h : ∀ r, d.run r = d'.run r) : d = d' := by
  cases d
  cases d'
  cases funext h
  rfl

/-- A run of two parts has passed the first or failed in it. -/
lemma run_bind_inv {d : Decoder ρ ε α} {f : α → Decoder ρ ε β} {r s : ρ} {result : Except ε β}
    (h : (d >>= f).run r = (result, s)) :
    (∃ a r₁, d.run r = (.ok a, r₁) ∧ (f a).run r₁ = (result, s)) ∨
      ∃ e, d.run r = (.error e, s) ∧ result = .error e := by
  obtain ⟨first, r₁, run⟩ : ∃ first r₁, d.run r = (first, r₁) := ⟨_, _, rfl⟩
  cases first with
  | ok a =>
    rw [run_bind_ok run] at h
    exact .inl ⟨a, r₁, run, h⟩
  | error e =>
    rw [run_bind_error run] at h
    cases h
    exact .inr ⟨e, run, rfl⟩

/-- A run with a changed value is a run of the decoder. -/
lemma run_map_inv {d : Decoder ρ ε α} {f : α → β} {r s : ρ} {result : Except ε β}
    (h : (f <$> d).run r = (result, s)) : ∃ first, d.run r = (first, s) ∧ result = first.map f := by
  rcases run_bind_inv h with ⟨a, r₁, run, goes⟩ | ⟨e, run, rfl⟩
  · cases goes
    exact ⟨.ok a, run, rfl⟩
  · exact ⟨.error e, run, rfl⟩

/-- A run with a changed error is a run of the decoder. -/
lemma run_mapError_inv {d : Decoder ρ ε α} {f : ε → ε'} {r s : ρ} {result : Except ε' α}
    (h : (d.mapError f).run r = (result, s)) :
    ∃ first, d.run r = (first, s) ∧ result = first.mapError f := by
  obtain ⟨first, r₁, run⟩ : ∃ first r₁, d.run r = (first, r₁) := ⟨_, _, rfl⟩
  rw [run_mapError run] at h
  cases h
  exact ⟨first, run, rfl⟩

/-- What is changed on the way can be changed in the end. -/
lemma mapError_map_bind (d : Decoder ρ ε α) (f : α → β)
    (h : ε → ε') (g : β → Decoder ρ ε' γ) :
    (f <$> d).mapError h >>= g = d.mapError h >>= fun a => g (f a) := by
  apply eq_of_run
  intro r
  obtain ⟨result, r₁, run⟩ : ∃ result r₁, d.run r = (result, r₁) := ⟨_, _, rfl⟩
  cases result with
  | ok a =>
    have mapped : (f <$> d).run r = (.ok (f a), r₁) := run_bind_ok run
    rw [run_bind_ok (run_mapError mapped), run_bind_ok (run_mapError run)]
  | error e =>
    have mapped : (f <$> d).run r = (.error e, r₁) := run_bind_error run
    rw [run_bind_error (run_mapError mapped), run_bind_error (run_mapError run)]

/-- The parts of a program can be put together in either order. -/
lemma bind_bind (d : Decoder ρ ε α) (f : α → Decoder ρ ε β) (g : β → Decoder ρ ε γ) :
    d >>= f >>= g = d >>= fun a => f a >>= g := by
  apply eq_of_run
  intro r
  obtain ⟨result, r₁, run⟩ : ∃ result r₁, d.run r = (result, r₁) := ⟨_, _, rfl⟩
  cases result with
  | error e => rw [run_bind_error run, run_bind_error (run_bind_error run)]
  | ok a =>
    obtain ⟨result, r₂, goes⟩ : ∃ result r₂, (f a).run r₁ = (result, r₂) := ⟨_, _, rfl⟩
    have both := (run_bind_ok run).trans goes
    rw [run_bind_ok run]
    cases result with
    | ok b => rw [run_bind_ok both, run_bind_ok goes]
    | error e => rw [run_bind_error both, run_bind_error goes]

/-- To return what was read changes nothing. -/
lemma bind_pure_self (d : Decoder ρ ε α) : d >>= pure = d := by
  apply eq_of_run
  intro r
  obtain ⟨result, r₁, run⟩ : ∃ result r₁, d.run r = (result, r₁) := ⟨_, _, rfl⟩
  cases result with
  | ok a =>
    rw [run_bind_ok run, run]
    rfl
  | error e => rw [run_bind_error run, run]

instance : LawfulMonad (Decoder ρ ε) := .mk' _ bind_pure_self (fun _ _ => rfl) bind_bind

/-- A step that goes on adds to what the loop gathers. -/
lemma gatherOnto_inl {d : Decoder ρ ε (α ⊕ β)} {h : d.Consumes} {got : Array α} {r r' : ρ} {a : α}
    (run : d.run r = (.ok (.inl a), r')) :
    gatherOnto d h got r = gatherOnto d h (got.push a) r' := by
  rw [gatherOnto]
  split <;> rename_i run' <;> cases run.symm.trans run'
  rfl

/-- A step that stops ends the loop well. -/
lemma gatherOnto_inr {d : Decoder ρ ε (α ⊕ β)} {h : d.Consumes} {got : Array α} {r r' : ρ} {b : β}
    (run : d.run r = (.ok (.inr b), r')) : gatherOnto d h got r = ((got.toList, .ok b), r') := by
  rw [gatherOnto]
  split <;> rename_i run' <;> cases run.symm.trans run'
  rfl

/-- A step that fails ends the loop badly. -/
lemma gatherOnto_error {d : Decoder ρ ε (α ⊕ β)} {h : d.Consumes} {got : Array α} {r r' : ρ} {e : ε}
    (run : d.run r = (.error e, r')) : gatherOnto d h got r = ((got.toList, .error e), r') := by
  rw [gatherOnto]
  split <;> rename_i run' <;> cases run.symm.trans run'
  rfl

/-- A loop as a decoder does not fail itself. -/
lemma run_gather {d : Decoder ρ ε (α ⊕ β)} {h : d.Consumes} {r r' : ρ} {found : List α × Except ε β}
    (run : gatherOnto d h #[] r = (found, r')) :
    (gather d h : Decoder ρ ε' _).run r = (.ok found, r') := by
  simp only [gather, run]

variable [Observable ρ]

/-- The bytes are a value for the decoder, which reports a truncation if the stream ends in them. -/
structure Reads [Truncation ε] (d : Decoder ρ ε α) (bs : Bytes) (a : α) : Prop where
  whole : ∀ {r rest}, unread r = .ofBytes bs ++ rest →
    ∃ r', d.run r = (.ok a, r') ∧ unread r' = rest
  short : ∀ {r p}, CutShort p bs → unread r = .ofBytes p →
    ∃ e r', d.run r = (.error e, r') ∧ IsTruncation e

namespace Reads

variable [Truncation ε] [Truncation ε']

/-- A decoder may read nothing. -/
lemma pure (a : α) : (Pure.pure a : Decoder ρ ε α).Reads [] a where
  whole {r _} h := ⟨r, rfl, h⟩
  short c _ := c.not_nil.elim

/-- What holds of the bytes that the decoder has read whenever it reads the value holds of these. -/
lemma inv {d : Decoder Feed ε α} {P : Bytes → Prop} {bs : Bytes} {a : α} (reads : d.Reads bs a)
    (sound : ∀ {r s}, d.run r = (.ok a, s) → ∃ bs, unread r = Feed.ofBytes bs ++ unread s ∧ P bs) :
    P bs := by
  obtain ⟨s, run, left⟩ := reads.whole (unread_ofBytes bs)
  obtain ⟨bs', all, holds⟩ := sound run
  rw [unread_ofBytes, left, List.append_nil, List.append_nil] at all
  obtain rfl := Feed.ofBytes_inj.1 all
  exact holds

/-- Bytes that are read part by part are read in the whole. -/
lemma bind {d : Decoder ρ ε α} {f : α → Decoder ρ ε β} {bs bs' : Bytes} {a : α} {b : β}
    (first : d.Reads bs a) (next : (f a).Reads bs' b) : (d >>= f).Reads (bs ++ bs') b where
  whole {r rest} h := by
    rw [Feed.ofBytes_append, List.append_assoc] at h
    obtain ⟨r', run, left⟩ := first.whole h
    rw [run_bind_ok run]
    exact next.whole left
  short {r p} c h := by
    rcases c.append with within | ⟨q, rfl, beyond⟩
    · obtain ⟨e, r', run, cut⟩ := first.short within h
      exact ⟨e, r', run_bind_error run, cut⟩
    · rw [Feed.ofBytes_append] at h
      obtain ⟨r', run, left⟩ := first.whole h
      rw [run_bind_ok run]
      exact next.short beyond left

/-- The last part need not take bytes. -/
lemma bind_pure {d : Decoder ρ ε α} {f : α → Decoder ρ ε β} {bs : Bytes} {a : α} {b : β}
    (first : d.Reads bs a) (next : (f a).Reads [] b) : (d >>= f).Reads bs b := by
  have both := first.bind next
  rwa [List.append_nil] at both

/-- What is read may be changed. -/
lemma map {d : Decoder ρ ε α} {bs : Bytes} {a : α} (h : d.Reads bs a) (f : α → β) :
    (f <$> d).Reads bs (f a) :=
  h.bind_pure (.pure (f a))

/-- The errors may be changed without harm to what is read. -/
lemma mapError {d : Decoder ρ ε α} {f : ε → ε'} {bs : Bytes} {a : α} (h : d.Reads bs a)
    (kept : ∀ e, IsTruncation e → IsTruncation (f e)) : (d.mapError f).Reads bs a where
  whole h' := by
    obtain ⟨r', run, left⟩ := h.whole h'
    exact ⟨r', run_mapError run, left⟩
  short c h' := by
    obtain ⟨e, r', run, cut⟩ := h.short c h'
    exact ⟨f e, r', run_mapError run, kept e cut⟩

/-- Bytes that are there are taken, behind those that have been. -/
lemma takeOnto_whole (got : Bytes) (n : Nat) (r : ρ) {bs : Bytes} {rest : Feed}
    (h : unread r = .ofBytes bs ++ rest) (len : bs.length = n) :
    ∃ r', takeOnto got n r = (.ok (got.reverse ++ bs), r') ∧ unread r' = rest := by
  -- One case for each way in which a call can end; what it delivers is taken off `bs`.
  fun_induction takeOnto got n r generalizing bs with
  | case1 got r =>
    obtain rfl := List.eq_nil_of_length_eq_zero len
    exact ⟨r, by rw [List.append_nil], h⟩
  | case2 got n r pos r' call =>
    obtain ⟨none_left, _⟩ := unread_of_read_nil (Nat.pos_of_ne_zero pos) call
    rw [none_left] at h
    obtain ⟨none_here, _⟩ := List.append_eq_nil_iff.1 h.symm
    rw [List.map_eq_nil_iff.1 none_here] at len
    exact absurd len.symm pos
  | case3 got n r pos b bs₁ r' call ih =>
    obtain ⟨le, given⟩ := unread_of_read_cons (Nat.pos_of_ne_zero pos) call
    obtain ⟨more, rfl, left⟩ := Feed.exists_of_ofBytes_append_eq (h.symm.trans given) (by omega)
    obtain ⟨r₁, run, left⟩ := ih left (by simp only [List.length_append] at len; omega)
    refine ⟨r₁, ?_, left⟩
    rw [run, List.reverse_append, List.reverse_reverse, List.append_assoc]
  | case4 got n r pos e r' call again ih =>
    have given := unread_of_read_error (Nat.pos_of_ne_zero pos) call
    rw [if_pos again] at given
    exact ih (given.symm.trans h) len
  | case5 got n r pos e r' call once =>
    have given := unread_of_read_error (Nat.pos_of_ne_zero pos) call
    rw [if_neg once, h] at given
    cases bs with
    | nil => exact absurd len.symm pos
    | cons b bs => cases given

/-- Where the stream stops before all bytes have come, that is what is reported. -/
lemma takeOnto_stopped (got : Bytes) (n : Nat) (r : ρ) {p : Bytes} {rest : Feed}
    (h : unread r = .ofBytes p ++ rest) (len : p.length < n) (stops : rest.Stops) :
    ∃ r', takeOnto got n r = (.error (.ofStop rest), r') ∧ unread r' = rest.tail := by
  -- The cases are those of `takeOnto_whole`; here the stop has to be found behind `p`.
  fun_induction takeOnto got n r generalizing p with
  | case1 got r => exact absurd len (Nat.not_lt_zero _)
  | case2 got n r pos r' call =>
    obtain ⟨none_left, ended⟩ := unread_of_read_nil (Nat.pos_of_ne_zero pos) call
    rw [none_left] at h
    obtain ⟨_, rfl⟩ := List.append_eq_nil_iff.1 h.symm
    exact ⟨r', rfl, ended⟩
  | case3 got n r pos b bs r' call ih =>
    obtain ⟨_, given⟩ := unread_of_read_cons (Nat.pos_of_ne_zero pos) call
    rcases Nat.le_total (b :: bs).length p.length with le | ge
    · obtain ⟨more, rfl, left⟩ := Feed.exists_of_ofBytes_append_eq (h.symm.trans given) le
      exact ih left (by simp only [List.length_append] at len; omega)
    · -- All that is there has been delivered, because the stream stops after it.
      obtain ⟨more, all, left⟩ := Feed.exists_of_ofBytes_append_eq (given.symm.trans h) ge
      cases more with
      | cons b' more => exact absurd left (stops b' _)
      | nil =>
        rw [List.append_nil] at all
        subst all
        exact ih (p := []) left.symm (Nat.sub_pos_of_lt len)
  | case4 got n r pos e r' call again ih =>
    have given := unread_of_read_error (Nat.pos_of_ne_zero pos) call
    rw [if_pos again] at given
    exact ih (given.symm.trans h) len
  | case5 got n r pos e r' call once =>
    have given := unread_of_read_error (Nat.pos_of_ne_zero pos) call
    rw [if_neg once, h] at given
    cases p with
    | cons b p => cases given
    | nil =>
      obtain rfl : rest = .failure e :: unread r' := given
      exact ⟨r', rfl, rfl⟩

/-- Bytes that are there are taken. -/
lemma take {n : Nat} {bs : Bytes} (len : bs.length = n) :
    (Decoder.take n : Decoder ρ Error Bytes).Reads bs bs where
  whole {r _} h := takeOnto_whole [] n r h len
  short {r _} c h := by
    have ended := h.trans (List.append_nil _).symm
    obtain ⟨r', run, _⟩ := takeOnto_stopped [] n r ended (len ▸ c.length_lt) Feed.stops_nil
    exact ⟨.truncated, r', run, rfl⟩

/-- Bytes that have been taken were all there. -/
lemma take_inv {n : Nat} {r s : ρ} {bs : Bytes}
    (run : (Decoder.take n : Decoder ρ Error Bytes).run r = (.ok bs, s)) :
    bs.length = n ∧ unread r = .ofBytes bs ++ unread s := by
  obtain ⟨p, rest, here, all | ⟨some, stops⟩⟩ := Feed.exists_front n (unread r)
  · obtain ⟨r', whole, left⟩ := takeOnto_whole [] n r here all
    cases run.symm.trans whole
    exact ⟨all, left ▸ here⟩
  · obtain ⟨r', stopped, _⟩ := takeOnto_stopped [] n r here some stops
    cases run.symm.trans stopped

/-- Where not all bytes could be taken, the stream has stopped before the last of them. -/
lemma take_error_inv {n : Nat} {r s : ρ} {e : Error}
    (run : (Decoder.take n : Decoder ρ Error Bytes).run r = (.error e, s)) :
    ∃ p rest, unread r = .ofBytes p ++ rest ∧ p.length < n ∧ rest.Stops ∧ e = .ofStop rest ∧
      unread s = rest.tail := by
  obtain ⟨p, rest, here, all | ⟨some, stops⟩⟩ := Feed.exists_front n (unread r)
  · obtain ⟨r', whole, _⟩ := takeOnto_whole [] n r here all
    cases run.symm.trans whole
  · obtain ⟨r', stopped, left⟩ := takeOnto_stopped [] n r here some stops
    cases run.symm.trans stopped
    exact ⟨p, rest, here, some, stops, rfl, left⟩

/-- A byte that is there is taken. -/
lemma byte (b : UInt8) : (Decoder.byte : Decoder ρ Error UInt8).Reads [b] b := by
  have one : (Decoder.take 1 : Decoder ρ Error Bytes).Reads [b] [b] := take rfl
  exact one.bind_pure (.pure b)

/-- A byte cannot be taken just where the stream stops. -/
lemma byte_error_inv {r s : ρ} {e : Error}
    (run : (Decoder.byte : Decoder ρ Error UInt8).run r = (.error e, s)) :
    (unread r).Stops ∧ e = .ofStop (unread r) := by
  rcases run_bind_inv run with ⟨got, r₁, _, ends⟩ | ⟨e', taken, eq⟩
  · cases ends
  · cases eq
    obtain ⟨p, rest, here, none, stops, rfl, _⟩ := take_error_inv taken
    obtain rfl := List.eq_nil_of_length_eq_zero (Nat.lt_one_iff.1 none)
    rw [here]
    exact ⟨stops, rfl⟩

/-- Values that are there are all gathered, behind those that have been. -/
lemma manyOnto_whole {d : Decoder ρ ε α} {enc : α → Bytes} {xs : List α}
    (each : ∀ x ∈ xs, d.Reads (enc x) x) (got : Array α) {r : ρ} {rest : Feed}
    (here : unread r = .ofBytes (xs.flatMap enc) ++ rest) :
    ∃ r', manyOnto d xs.length got r = (.ok (got ++ xs.toArray), r') ∧ unread r' = rest := by
  induction xs generalizing got r with
  | nil => exact ⟨r, by rw [Array.append_empty]; rfl, here⟩
  | cons x xs ih =>
    rw [List.flatMap_cons, Feed.ofBytes_append, List.append_assoc] at here
    obtain ⟨r₁, run, left⟩ := (each x List.mem_cons_self).whole here
    obtain ⟨r', goes, left⟩ :=
      ih (fun x' mem => each x' (List.mem_cons_of_mem x mem)) (got.push x) left
    refine ⟨r', ?_, left⟩
    have same : got.push x ++ xs.toArray = got ++ (x :: xs).toArray := Array.ext' (by simp)
    rw [List.length_cons, manyOnto, run, ← same]
    exact goes

/-- Values whose last bytes are missing are not gathered. -/
lemma manyOnto_short {d : Decoder ρ ε α} {enc : α → Bytes} {xs : List α}
    (each : ∀ x ∈ xs, d.Reads (enc x) x) (got : Array α) {r : ρ} {p : Bytes}
    (c : CutShort p (xs.flatMap enc)) (here : unread r = .ofBytes p) :
    ∃ e r', manyOnto d xs.length got r = (.error e, r') ∧ IsTruncation e := by
  induction xs generalizing got r p with
  | nil => exact c.not_nil.elim
  | cons x xs ih =>
    rw [List.flatMap_cons] at c
    rw [List.length_cons, manyOnto]
    rcases c.append with within | ⟨q, rfl, beyond⟩
    · obtain ⟨e, r', run, cut⟩ := (each x List.mem_cons_self).short within here
      rw [run]
      exact ⟨(e, got), r', rfl, cut⟩
    · rw [Feed.ofBytes_append] at here
      obtain ⟨r₁, run, left⟩ := (each x List.mem_cons_self).whole here
      rw [run]
      exact ih (fun x' mem => each x' (List.mem_cons_of_mem x mem)) (got.push x) beyond left

/-- Values that are there are all read. -/
lemma many {d : Decoder ρ ε α} {enc : α → Bytes} {xs : List α}
    (each : ∀ x ∈ xs, d.Reads (enc x) x) :
    (d.many xs.length).Reads (xs.flatMap enc) xs.toArray where
  whole {r _} here := by
    obtain ⟨r', run, left⟩ := manyOnto_whole each #[] here
    rw [Array.empty_append] at run
    exact ⟨r', run, left⟩
  short c here := manyOnto_short each #[] c here

/-- Repeating a step no times reads nothing. -/
lemma iterate_zero {σ : Type} {step : σ → Decoder ρ ε σ} (s : σ) :
    (iterate step 0 s).Reads [] s where
  whole {r _} h := ⟨r, rfl, h⟩
  short c _ := c.not_nil.elim

/-- Repeating a step takes it and then repeats it. -/
lemma iterate_succ {σ : Type} {step : σ → Decoder ρ ε σ} {n : Nat} {s s' s'' : σ} {bs bs' : Bytes}
    (first : (step s).Reads bs s') (next : (iterate step n s').Reads bs' s'') :
    (iterate step (n + 1) s).Reads (bs ++ bs') s'' := by
  have same : iterate step (n + 1) s = step s >>= iterate step n := rfl
  rw [same]
  exact first.bind next

variable {d : Decoder ρ ε (α ⊕ β)} {h : d.Consumes} {enc : γ → Bytes} {xs : List γ}

/-- A repetition reads what stands in front of it and then goes on. -/
lemma gatherOnto_append {value : γ → α} (each : ∀ x ∈ xs, d.Reads (enc x) (.inl (value x)))
    (got : Array α) {r : ρ} {rest : Feed} (here : unread r = .ofBytes (xs.flatMap enc) ++ rest) :
    ∃ got' r', gatherOnto d h got r = gatherOnto d h got' r' ∧
      got'.toList = got.toList ++ xs.map value ∧ unread r' = rest := by
  induction xs generalizing got r with
  | nil => exact ⟨got, r, rfl, (List.append_nil _).symm, here⟩
  | cons x xs ih =>
    rw [List.flatMap_cons, Feed.ofBytes_append, List.append_assoc] at here
    obtain ⟨r₁, run, left⟩ := (each x List.mem_cons_self).whole here
    obtain ⟨got', r', goes, values, left⟩ :=
      ih (fun x' mem => each x' (List.mem_cons_of_mem x mem)) (got.push (value x)) left
    refine ⟨got', r', ?_, ?_, left⟩
    · rw [← goes]
      exact gatherOnto_inl run
    · rw [values, Array.toList_push, List.append_assoc]
      rfl

/-- A repetition that is cut short hands on what it had read until then. -/
lemma gatherOnto_short {value : γ → α} (each : ∀ x ∈ xs, d.Reads (enc x) (.inl (value x)))
    (got : Array α) {r : ρ} {q bs : Bytes} {s : α ⊕ β} (next : d.Reads bs s) (c : CutShort q bs)
    (here : unread r = .ofBytes (xs.flatMap enc ++ q)) :
    ∃ e r', gatherOnto d h got r = ((got.toList ++ xs.map value, .error e), r') ∧
      IsTruncation e := by
  rw [Feed.ofBytes_append] at here
  obtain ⟨got', r₁, goes, values, left⟩ := gatherOnto_append (h := h) each got here
  obtain ⟨e, r', run, cut⟩ := next.short c left
  refine ⟨e, r', ?_, cut⟩
  rw [goes, gatherOnto_error run, values]

/-- A repetition whose values make up one value, if none of them is missing. -/
lemma gather_bind (value : γ → α) {k : List α × Except ε β → Decoder ρ ε ζ} {bs : Bytes} {b : β}
    {z : ζ} (each : ∀ x ∈ xs, d.Reads (enc x) (.inl (value x))) (last : d.Reads bs (.inr b))
    (good : k (xs.map value, .ok b) = Pure.pure z) (bad : ∀ as e, k (as, .error e) = .fail e) :
    (gather d h >>= k).Reads (xs.flatMap enc ++ bs) z where
  whole {r rest} here := by
    rw [Feed.ofBytes_append, List.append_assoc] at here
    obtain ⟨got', r₁, goes, values, left⟩ := gatherOnto_append (h := h) each #[] here
    obtain ⟨r', run, left⟩ := last.whole left
    have gathered : gatherOnto d h #[] r = ((xs.map value, .ok b), r') := by
      rw [goes, gatherOnto_inr run, values]
      rfl
    refine ⟨r', ?_, left⟩
    rw [run_bind_ok (run_gather gathered), good]
    rfl
  short {r p} c here := by
    suffices ∃ as e r', gatherOnto d h #[] r = ((as, .error e), r') ∧ IsTruncation e by
      obtain ⟨as, e, r', goes, cut⟩ := this
      refine ⟨e, r', ?_, cut⟩
      rw [run_bind_ok (run_gather goes), bad]
      rfl
    -- The cut falls within one of the values that are gathered, or within what ends them.
    rcases c.flatMap with ⟨done, x, later, q, rfl, rfl, within⟩ | ⟨q, rfl, within⟩
    · have before : ∀ x' ∈ done, d.Reads (enc x') (.inl (value x')) := fun x' mem =>
        each x' (List.mem_append_left _ mem)
      have next := each x (List.mem_append_right _ List.mem_cons_self)
      obtain ⟨e, r', goes, cut⟩ := gatherOnto_short (h := h) before #[] next within here
      exact ⟨_, e, r', goes, cut⟩
    · obtain ⟨e, r', goes, cut⟩ := gatherOnto_short (h := h) each #[] last within here
      exact ⟨_, e, r', goes, cut⟩

end Reads

end Decoder

end Wire

end Columnar
