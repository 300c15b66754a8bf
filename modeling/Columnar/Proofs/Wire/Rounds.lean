import Columnar.Proofs.Wire.Agrees
import Mathlib.Algebra.BigOperators.Group.List.Basic

/-!
# Loops, round by round

No loop of a decoder has a bound of its own that a stream could not exceed, so what ends every one
of them is the stream: each round that does not fail takes bytes which no other round takes. `Rounds`
are rounds that have not failed, with the bytes that each of them took, and `InRounds` says that a
loop is made of such rounds and fails as soon as one of them does. `Within` says that a decoder runs
in the course of another one, which then fails where it fails (`Within.fails`).
-/

namespace Columnar

open ByteStream

/-- How many bytes the feed still has. -/
def ByteStream.Feed.bytes (feed : Feed) : Nat := feed.countP fun i => !isFailure i

/-- Two feeds hold the bytes of both. -/
@[simp] lemma ByteStream.Feed.bytes_append (feed feed' : Feed) :
    bytes (feed ++ feed') = bytes feed + bytes feed' :=
  List.countP_append

/-- A feed of bytes holds all of them. -/
@[simp] lemma ByteStream.Feed.bytes_ofBytes (bs : Bytes) : bytes (.ofBytes bs) = bs.length := by
  induction bs with
  | nil => rfl
  | cons b bs ih =>
    rw [ofBytes_cons, List.length_cons, ← ih]
    exact List.countP_cons_of_pos rfl

/-- The end of a feed has no more bytes than the feed. -/
lemma ByteStream.Feed.bytes_le {feed feed' : Feed} (ends : feed <:+ feed') :
    bytes feed ≤ bytes feed' :=
  ends.sublist.countP_le

/-- Parts none of which is empty are at most as many as there are bytes in them. -/
lemma length_le_length_flatten {parts : List Bytes} (each : ∀ bs ∈ parts, bs ≠ []) :
    parts.length ≤ parts.flatten.length := by
  rw [List.length_flatten, ← List.length_map List.length]
  apply List.length_le_sum_of_one_le
  intro n mem
  obtain ⟨bs, among, rfl⟩ := List.mem_map.1 mem
  exact List.length_pos_iff.2 (each bs among)

namespace Wire.Decoder

variable {ρ : Type} [Reader ρ] {ε ε' α β γ τ : Type}

/-- To read with the inner decoder from `s` is part of reading with the outer one from the reader
given. -/
inductive Within (inner : Decoder ρ ε α) (s : ρ) : {ε' α' : Type} → Decoder ρ ε' α' → ρ → Prop where
  | self : Within inner s inner s
  | first {ε' α' β : Type} {d : Decoder ρ ε' α'} {f : α' → Decoder ρ ε' β} {r : ρ} :
    Within inner s d r →
    Within inner s (d >>= f) r
  | next {ε' α' β : Type} {d : Decoder ρ ε' α'} {f : α' → Decoder ρ ε' β} {r r₁ : ρ} {a : α'} :
    d.run r = (.ok a, r₁) →
    Within inner s (f a) r₁ →
    Within inner s (d >>= f) r
  | renamed {ε' ε'' α' : Type} {d : Decoder ρ ε' α'} {f : ε' → ε''} {r : ρ} :
    Within inner s d r →
    Within inner s (d.mapError f) r

/-- What runs within a part runs within the whole. -/
lemma Within.trans {inner : Decoder ρ ε α} {part : Decoder ρ ε' β} {s r₀ : ρ}
    (inside : Within inner s part r₀) {ε'' γ : Type} {outer : Decoder ρ ε'' γ} {r : ρ}
    (within : Within part r₀ outer r) : Within inner s outer r := by
  induction within with
  | self => exact inside
  | first within ih => exact .first ih
  | next run within ih => exact .next run ih
  | renamed within ih => exact .renamed ih

/-- Whatever fails within a decoder is the last thing that the decoder does. -/
lemma Within.fails {inner : Decoder ρ ε α} {s s' : ρ} {e : ε}
    (run : inner.run s = (.error e, s')) {outer : Decoder ρ ε' β} {r : ρ}
    (within : Within inner s outer r) : ∃ e', outer.run r = (.error e', s') := by
  induction within with
  | self => exact ⟨e, run⟩
  | first within ih =>
    obtain ⟨e', ran⟩ := ih
    exact ⟨e', run_bind_error ran⟩
  | next ran within ih =>
    obtain ⟨e', goes⟩ := ih
    exact ⟨e', (run_bind_ok ran).trans goes⟩
  | @renamed ε' ε'' α' d f r within ih =>
    obtain ⟨e', ran⟩ := ih
    exact ⟨f e', run_mapError ran⟩

/-- Reads values until one ends the repetition, and keeps that one only. -/
def gatherLast (d : Decoder ρ ε (α ⊕ β)) (c : d.Consumes) : Decoder ρ ε β :=
  gather d c >>= fun found => .ofExcept found.2

/-- What a loop has gathered before changes neither its end nor the rest of the stream. -/
lemma gatherOnto_got (d : Decoder ρ ε (α ⊕ β)) (c : d.Consumes) (got got' : Array α) (r : ρ) :
    (gatherOnto d c got r).1.2 = (gatherOnto d c got' r).1.2 ∧
      (gatherOnto d c got r).2 = (gatherOnto d c got' r).2 := by
  fun_induction gatherOnto d c got r generalizing got' with
  | case1 got r a r₁ ran ih =>
    rw [gatherOnto_inl ran]
    exact ih (got'.push a)
  | case2 got r b r₁ ran =>
    rw [gatherOnto_inr ran]
    exact ⟨rfl, rfl⟩
  | case3 got r e r₁ ran =>
    rw [gatherOnto_error ran]
    exact ⟨rfl, rfl⟩

/-- Of a loop that gathers the end may be kept only. -/
lemma run_gatherLast {d : Decoder ρ ε (α ⊕ β)} {c : d.Consumes} (got : Array α) {r s : ρ}
    {as : List α} {last : Except ε β} (run : gatherOnto d c got r = ((as, last), s)) :
    (gatherLast d c).run r = (last, s) := by
  obtain ⟨⟨as', last'⟩, s', gathered⟩ : ∃ found s', gatherOnto d c #[] r = (found, s') :=
    ⟨_, _, rfl⟩
  have same := gatherOnto_got d c got #[] r
  rw [run, gathered] at same
  obtain ⟨rfl, rfl⟩ := same
  rw [gatherLast, run_bind_ok (run_gather gathered)]
  cases last <;> rfl

variable [Observable ρ]

/-- Whatever the decoder reads has been at least one byte of the stream. -/
def TakesBytes (d : Decoder ρ ε α) : Prop :=
  ∀ r s a, d.run r = (.ok a, s) → ∃ bs, bs ≠ [] ∧ unread r = .ofBytes bs ++ unread s

/-- Where the stream has ended nothing can be taken. -/
lemma TakesBytes.fails {d : Decoder ρ ε α} (takes : d.TakesBytes) {r : ρ}
    (nothing : ByteStream.unread r = []) : ∃ e s, d.run r = (.error e, s) := by
  obtain ⟨result, s, run⟩ : ∃ result s, d.run r = (result, s) := ⟨_, _, rfl⟩
  cases result with
  | error e => exact ⟨e, s, run⟩
  | ok a =>
    obtain ⟨bs, some, here⟩ := takes _ _ _ run
    rw [nothing] at here
    obtain ⟨none, _⟩ := List.append_eq_nil_iff.1 here.symm
    exact absurd (List.map_eq_nil_iff.1 none) some

/-- Rounds of a loop that have not failed, one after the other, each from the state that the one
before it led to, and the bytes that each of them took. -/
inductive Rounds (round : τ → Decoder ρ ε α) (next : α → τ) : τ → ρ → List Bytes → τ → ρ → Prop where
  | none (t : τ) (r : ρ) : Rounds round next t r [] t r
  | more {t t' : τ} {r r₁ r' : ρ} {a : α} {bs : Bytes} {taken : List Bytes} :
    (round t).run r = (.ok a, r₁) →
    bs ≠ [] →
    unread r = .ofBytes bs ++ unread r₁ →
    Rounds round next (next a) r₁ taken t' r' →
    Rounds round next t r (bs :: taken) t' r'

/-- The loop, begun in a state, is made of rounds that take bytes of their own, and it ends with
an error as soon as a round does. -/
inductive InRounds (round : τ → Decoder ρ ε α) (next : α → τ) (loop : Decoder ρ ε' β) (t : τ)
    (r : ρ) : Prop where
  | ended {taken : List Bytes} {t' : τ} {r' : ρ} {b : β} :
    Rounds round next t r taken t' r' →
    loop.run r = (.ok b, r') →
    InRounds round next loop t r
  | failed {taken : List Bytes} {t₁ : τ} {r₁ r' : ρ} {e : ε} {e' : ε'} :
    Rounds round next t r taken t₁ r₁ →
    (round t₁).run r₁ = (.error e, r') →
    loop.run r = (.error e', r') →
    InRounds round next loop t r

section

variable {round : τ → Decoder ρ ε α} {next : α → τ} {loop : Decoder ρ ε' β} {t t' : τ} {r r' : ρ}
  {taken : List Bytes}

/-- What the rounds took stands in the stream, one part after the other and none of them empty. -/
lemma Rounds.unread (rounds : Rounds round next t r taken t' r') :
    ByteStream.unread r = .ofBytes taken.flatten ++ ByteStream.unread r' ∧
      ∀ bs ∈ taken, bs ≠ [] := by
  induction rounds with
  | none t r => exact ⟨rfl, List.forall_mem_nil _⟩
  | more run some here rounds ih =>
    refine ⟨?_, List.forall_mem_cons.2 ⟨some, ih.2⟩⟩
    rw [here, ih.1, List.flatten_cons, Feed.ofBytes_append, List.append_assoc]

/-- There are no more rounds than the stream has bytes. -/
lemma Rounds.length_le (rounds : Rounds round next t r taken t' r') :
    taken.length + (ByteStream.unread r').bytes ≤ (ByteStream.unread r).bytes := by
  obtain ⟨here, each⟩ := rounds.unread
  have many := length_le_length_flatten each
  rw [here, Feed.bytes_append, Feed.bytes_ofBytes]
  omega

namespace InRounds

/-- Rounds remain rounds when the errors of their loop are changed. -/
lemma mapError (h : InRounds round next loop t r) (f : ε' → γ) :
    InRounds round next (loop.mapError f) t r := by
  cases h with
  | ended rounds run => exact .ended rounds (run_mapError run)
  | failed rounds fails run => exact .failed rounds fails (run_mapError run)

/-- Rounds remain rounds when the value of their loop is changed. -/
lemma bind_pure (h : InRounds round next loop t r) (f : β → γ) :
    InRounds round next (loop >>= fun b => Pure.pure (f b)) t r := by
  cases h with
  | ended rounds run => exact .ended rounds (run_bind_ok run)
  | failed rounds fails run => exact .failed rounds fails (run_bind_error run)

/-- One round more, in front. -/
lemma cons {a : α} {r₁ : ρ} {bs : Bytes} {loop' : Decoder ρ ε' β}
    (run : (round t).run r = (.ok a, r₁)) (some : bs ≠ [])
    (here : ByteStream.unread r = .ofBytes bs ++ ByteStream.unread r₁)
    (goes : loop.run r = loop'.run r₁) (h : InRounds round next loop' (next a) r₁) :
    InRounds round next loop t r := by
  cases h with
  | ended rounds ran => exact .ended (.more run some here rounds) (goes.trans ran)
  | failed rounds fails ran => exact .failed (.more run some here rounds) fails (goes.trans ran)

end InRounds

end

end Wire.Decoder

end Columnar
