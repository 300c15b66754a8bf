import Columnar.Proofs.Wire.Forms
import Mathlib.Algebra.BigOperators.Ring.List

/-!
# Varints, byte by byte

The bytes of a varint are said without the recursion that reads them: all but the last have the
highest bit set, there are at most ten of them, and their groups of seven bits, each shifted to its
place, add up to the number (`form_iff`). Of all forms of a number the one that is written is the
shortest (`encodeNat_shortest`). What else can come of reading is told by the place where the stream
stops (`decodeGroups_error`). Main statement: `decode_exact`.
-/

namespace Columnar

open ByteStream

/-- The feed is at its end, or a call reports that it is. -/
def ByteStream.Feed.Ends : Feed → Prop
  | [] => True
  | .byte _ :: _ => False
  | .failure e :: _ => e.kind = .unexpectedEof

namespace Wire

/-- The error where a stream stops is a truncation if the stream ends there. -/
lemma Error.ofStop_eq_truncated_iff {rest : Feed} (stops : rest.Stops) :
    ofStop rest = .truncated ↔ rest.Ends := by
  cases rest with
  | nil => exact iff_of_true rfl trivial
  | cons item rest =>
    cases item with
    | byte b => exact absurd rfl (stops b rest)
    | failure e =>
      rw [ofStop, ofFailure, Feed.Ends]
      split <;> rename_i sort
      · exact iff_of_true rfl sort
      · exact iff_of_false nofun sort

/-- The error where a stream stops is a failure if the stream has failed there. -/
lemma Error.ofStop_eq_failed_iff {rest : Feed} {e : Failure} :
    ofStop rest = .failed e ↔ ∃ rest', rest = .failure e :: rest' ∧ e.kind ≠ .unexpectedEof := by
  constructor
  · intro failed
    cases rest with
    | nil => cases failed
    | cons item rest =>
      cases item with
      | byte b => cases failed
      | failure e' =>
        rw [ofStop, ofFailure] at failed
        split at failed
        · cases failed
        · rename_i sort
          cases failed
          exact ⟨rest, rfl, sort⟩
  · rintro ⟨rest', rfl, sort⟩
    exact if_neg sort

namespace Varint

/-- All bytes but the last one have the highest bit set. -/
def Continued (bs : Bytes) : Prop :=
  ∃ front last, bs = front ++ [last] ∧ (∀ b ∈ front, 128 ≤ b.toNat) ∧ last.toNat < 128

/-- The groups of seven bits, each shifted past those before it, added up. -/
def total (bs : Bytes) : Nat := (bs.mapIdx fun i b => (b.toNat % 128) <<< (7 * i)).sum

/-- At most ten bytes, with the highest bit set in all but the last, whose groups add up to the
number. -/
def Spelling (bs : Bytes) (v : UInt64) : Prop :=
  (1 ≤ bs.length ∧ bs.length ≤ 10) ∧ Continued bs ∧ total bs = v.toNat

/-- No bytes are no complete number. -/
lemma not_continued_nil : ¬Continued [] := by
  rintro ⟨front, last, none, _⟩
  exact List.append_ne_nil_of_right_ne_nil front (List.cons_ne_nil last []) none.symm

/-- A byte completes a number or is continued. -/
lemma continued_cons {b : UInt8} {bs : Bytes} :
    Continued (b :: bs) ↔ b.toNat < 128 ∧ bs = [] ∨ 128 ≤ b.toNat ∧ Continued bs := by
  constructor
  · rintro ⟨front, last, same, more, ends⟩
    cases front with
    | nil =>
      cases same
      exact .inl ⟨ends, rfl⟩
    | cons b' front =>
      cases same
      obtain ⟨first, more⟩ := List.forall_mem_cons.1 more
      exact .inr ⟨first, front, last, rfl, more, ends⟩
  · rintro (⟨ends, rfl⟩ | ⟨first, front, last, rfl, more, ends⟩)
    · exact ⟨[], b, rfl, List.forall_mem_nil _, ends⟩
    · exact ⟨b :: front, last, rfl, List.forall_mem_cons.2 ⟨first, more⟩, ends⟩

/-- A byte adds its seven bits to the total of the others. -/
lemma total_cons (b : UInt8) (bs : Bytes) : total (b :: bs) = b.toNat % 128 + 128 * total bs := by
  have shifted (i : Nat) (b : UInt8) :
      (b.toNat % 128) <<< (7 * (i + 1)) = 128 * ((b.toNat % 128) <<< (7 * i)) := by
    rw [Nat.shiftLeft_eq, Nat.shiftLeft_eq, Nat.mul_succ, Nat.pow_add, ← Nat.mul_assoc, Nat.mul_comm]
  rw [total, List.mapIdx_cons, List.sum_cons, Nat.mul_zero, Nat.shiftLeft_zero]
  simp only [total, shifted, List.mapIdx_eq_zipIdx_map, List.sum_map_mul_left]

/-- Groups are complete bytes that make the total. -/
lemma groups_iff {bs : Bytes} {n : Nat} : Groups bs n ↔ Continued bs ∧ total bs = n := by
  induction bs generalizing n with
  | nil => exact iff_of_false not_groups_nil fun h => not_continued_nil h.1
  | cons b bs ih =>
    rw [groups_cons, continued_cons, total_cons]
    constructor
    · rintro (⟨low, rfl, rfl⟩ | ⟨more, high, groups, rfl⟩)
      · exact ⟨.inl ⟨low, rfl⟩, Nat.mod_eq_of_lt low⟩
      · obtain ⟨continued, rfl⟩ := ih.1 groups
        exact ⟨.inr ⟨more, continued⟩, rfl⟩
    · rintro ⟨⟨low, rfl⟩ | ⟨more, continued⟩, rfl⟩
      · exact .inl ⟨low, rfl, Nat.mod_eq_of_lt low⟩
      · exact .inr ⟨more, _, ih.2 ⟨continued, rfl⟩, rfl⟩

/-- The form of a number is its spelling. -/
lemma form_iff {bs : Bytes} {v : UInt64} : Form bs v ↔ Spelling bs v := by
  rw [Form, Spelling, groups_iff]
  constructor
  · rintro ⟨⟨continued, sum⟩, most⟩
    refine ⟨⟨List.length_pos_iff.2 ?_, most⟩, continued, sum⟩
    rintro rfl
    exact not_continued_nil continued
  · rintro ⟨⟨_, most⟩, spelt⟩
    exact ⟨spelt, most⟩

/-- Of the forms of a number, however long, none is shorter than the written one and no other is as
short. -/
lemma encodeNat_shortest {bs : Bytes} {n : Nat} (groups : Groups bs n) :
    (encodeNat n).length ≤ bs.length ∧ (bs.length = (encodeNat n).length → bs = encodeNat n) := by
  induction groups with
  | @last b low =>
    rw [encodeNat, if_pos low, UInt8.ofNat_toNat]
    exact ⟨Nat.le_refl _, fun _ => rfl⟩
  | @more b bs n high groups ih =>
    have byte := b.toNat_lt
    rw [encodeNat]
    split <;> rename_i size
    · -- No group is left for the other bytes, but there is at least one of them.
      have some : 0 < bs.length := List.length_pos_iff.2 fun none => not_groups_nil (none ▸ groups)
      simp only [List.length_cons, List.length_nil]
      omega
    · have low : (b.toNat % 128 + 128 * n) % 128 + 128 = b.toNat := by omega
      have rest : (b.toNat % 128 + 128 * n) / 128 = n := by omega
      rw [low, rest, UInt8.ofNat_toNat, List.length_cons, List.length_cons]
      refine ⟨Nat.succ_le_succ ih.1, fun same => ?_⟩
      rw [ih.2 (Nat.succ.inj same)]

variable {ρ : Type} [Reader ρ] [Observable ρ]

/-- The written form is a form of the number. -/
lemma form_encode (v : UInt64) : Form (encode v) v :=
  (spells_decode (ρ := Feed)).reads_iff.1 (reads_decode v)

/-- The stream begins with fewer than `left` bytes, all with the highest bit set, and then stops. -/
def Unfinished (left : Nat) (stream rest : Feed) : Prop :=
  rest.Stops ∧ ∃ bs, stream = .ofBytes bs ++ rest ∧ bs.length < left ∧ ∀ b ∈ bs, 128 ≤ b.toNat

/-- Where the stream stops within a varint, that is what is reported. -/
lemma decodeGroups_unfinished {left : Nat} {r : ρ} {rest : Feed}
    (h : Unfinished left (unread r) rest) :
    ∃ s, (decodeGroups left : Decoder ρ Error Nat).run r = (.error (.ofStop rest), s) := by
  obtain ⟨stops, bs, here, short, more⟩ := h
  induction left generalizing r bs with
  | zero => exact absurd short (Nat.not_lt_zero _)
  | succ left ih =>
    cases bs with
    | nil =>
      obtain ⟨s, run, _⟩ := Decoder.Reads.takeOnto_stopped [] 1 r here Nat.one_pos stops
      exact ⟨s, Decoder.run_bind_error (Decoder.run_bind_error run)⟩
    | cons b bs =>
      obtain ⟨first, more⟩ := List.forall_mem_cons.1 more
      have later : bs.length < left := Nat.lt_of_succ_lt_succ short
      have next : unread r = .ofBytes [b] ++ (.ofBytes bs ++ rest) := here
      obtain ⟨r₁, run, left⟩ := (Decoder.Reads.byte b).whole next
      obtain ⟨s, goes⟩ := ih bs left later more
      refine ⟨s, ?_⟩
      rw [decodeGroups, Decoder.run_bind_ok run, if_neg (by omega), if_neg (by omega)]
      exact Decoder.run_bind_error goes

/-- Reading fails where the stream stops within a varint, and else after all the bytes that a varint
can have. -/
lemma decodeGroups_error {left : Nat} {r s : ρ} {e : Error}
    (run : (decodeGroups left : Decoder ρ Error Nat).run r = (.error e, s)) :
    (∃ rest, Unfinished left (unread r) rest ∧ e = .ofStop rest) ∨
      e = .malformed .varintTooLarge ∧
        ∃ bs, bs.length = left ∧ unread r = .ofBytes bs ++ unread s := by
  -- Each byte that is continued takes one from the room that is left; without room it is too large.
  induction left generalizing r with
  | zero =>
    cases run
    exact .inr ⟨rfl, [], rfl, rfl⟩
  | succ left ih =>
    rw [decodeGroups] at run
    rcases Decoder.run_bind_inv run with ⟨b, r₁, first, goes⟩ | ⟨e', first, eq⟩
    · obtain ⟨_, here, rfl⟩ := Decoder.Spells.byte.sound first
      dsimp only at goes
      split at goes
      · rename_i large
        cases goes
        exact .inr ⟨rfl, [b], congrArg Nat.succ large.1.symm, here⟩
      · split at goes
        · cases goes
        · rename_i more
          rcases Decoder.run_bind_inv goes with ⟨high, r₂, _, ends⟩ | ⟨e', fails, eq⟩
          · cases ends
          · cases eq
            rcases ih fails with ⟨rest, ⟨stops, bs, left, short, all⟩, rfl⟩ | ⟨rfl, bs, rfl, left⟩
            · refine .inl ⟨rest, ⟨stops, b :: bs, ?_, Nat.succ_lt_succ short, ?_⟩, rfl⟩
              · rw [here, left]
                rfl
              · exact List.forall_mem_cons.2 ⟨Nat.not_lt.1 more, all⟩
            · refine .inr ⟨rfl, b :: bs, rfl, ?_⟩
              rw [here, left]
              rfl
    · cases eq
      obtain ⟨stops, rfl⟩ := Decoder.Reads.byte_error_inv first
      exact .inl ⟨unread r, ⟨stops, [], rfl, left.succ_pos, List.forall_mem_nil _⟩, rfl⟩

/-- Over every stream a varint is read exactly if at most ten bytes in front spell a number of 64
bits, and then these bytes are used and no others; the stream has ended within the varint, or failed
there, exactly if fewer than ten bytes with the highest bit set are all that came; and in every other
case ten bytes are used that are too large for a number. The written form of a number has at most
ten bytes, spells the number, and is shorter than any other bytes that spell it. -/
theorem decode_exact (input : ρ) :
    ∃ found input', (decode : Decoder ρ Error UInt64).run input = (found, input') ∧
      (∀ v rest, found = .ok v ∧ unread input' = rest ↔
        Decoder.Begins Spelling (unread input) rest v) ∧
      (found = .error .truncated ↔ ∃ rest, Unfinished 10 (unread input) rest ∧ rest.Ends) ∧
      (∀ e, found = .error (.failed e) ↔
        ∃ rest, Unfinished 10 (unread input) (.failure e :: rest) ∧ e.kind ≠ .unexpectedEof) ∧
      ((¬∃ v rest, Decoder.Begins Spelling (unread input) rest v) →
        (¬∃ rest, Unfinished 10 (unread input) rest) →
        found = .error (.malformed .varintTooLarge) ∧
          ∃ bs, bs.length = 10 ∧ unread input = .ofBytes bs ++ unread input') ∧
      ∀ v, (encode v).length ≤ 10 ∧ Spelling (encode v) v ∧
        ∀ bs, Spelling bs v → bs ≠ encode v → (encode v).length < bs.length := by
  obtain ⟨found, input', run⟩ : ∃ found input',
      (decode : Decoder ρ Error UInt64).run input = (found, input') := ⟨_, _, rfl⟩
  have spells : (decode : Decoder ρ Error UInt64).Spells Spelling :=
    spells_decode.of_iff fun bs v => form_iff
  have unfinished {rest : Feed} (h : Unfinished 10 (unread input) rest) :
      found = .error (.ofStop rest) := by
    obtain ⟨s, goes⟩ := decodeGroups_unfinished h
    cases run.symm.trans (Decoder.run_bind_error goes)
    rfl
  -- How it ends is read off the stream; the three kinds of error then exclude one another.
  have fails {e : Error} (h : found = .error e) :
      (∃ rest, Unfinished 10 (unread input) rest ∧ e = .ofStop rest) ∨
        e = .malformed .varintTooLarge ∧
          ∃ bs, bs.length = 10 ∧ unread input = .ofBytes bs ++ unread input' := by
    subst h
    obtain ⟨first, goes, eq⟩ := Decoder.run_map_inv run
    cases first with
    | ok n => cases eq
    | error e' =>
      cases eq
      exact decodeGroups_error goes
  refine ⟨found, input', run, fun v rest => spells.ok_iff run, ?_, ?_, ?_, ?_⟩
  · constructor
    · intro truncated
      rcases fails truncated with ⟨rest, stopped, eq⟩ | ⟨eq, _⟩
      · exact ⟨rest, stopped, (Error.ofStop_eq_truncated_iff stopped.1).1 eq.symm⟩
      · cases eq
    · rintro ⟨rest, stopped, ends⟩
      rw [unfinished stopped, (Error.ofStop_eq_truncated_iff stopped.1).2 ends]
  · intro e
    constructor
    · intro failed
      rcases fails failed with ⟨rest, stopped, eq⟩ | ⟨eq, _⟩
      · obtain ⟨rest', rfl, sort⟩ := Error.ofStop_eq_failed_iff.1 eq.symm
        exact ⟨rest', stopped, sort⟩
      · cases eq
    · rintro ⟨rest, stopped, sort⟩
      rw [unfinished stopped, Error.ofStop_eq_failed_iff.2 ⟨rest, rfl, sort⟩]
  · intro unspelt finished
    cases found with
    | ok v => exact absurd ⟨v, _, (spells.ok_iff run).1 ⟨rfl, rfl⟩⟩ unspelt
    | error e =>
      rcases fails rfl with ⟨rest, stopped, _⟩ | ⟨rfl, taken⟩
      · exact absurd ⟨rest, stopped⟩ finished
      · exact ⟨rfl, taken⟩
  · intro v
    have form := form_encode v
    refine ⟨form.2, form_iff.1 form, fun bs spelt other => ?_⟩
    obtain ⟨least, only⟩ := encodeNat_shortest (form_iff.2 spelt).1
    exact Nat.lt_of_le_of_ne least fun same => other (only same.symm)

/-- More bytes with the highest bit set than a varint can have. -/
def endless : Bytes := List.replicate 11 0xFF

/-- Of the eleven bytes the first ten are used, because no number begins with them. -/
theorem decode_exact_endless :
    (¬∃ v rest, Decoder.Begins Spelling (unread (Feed.ofBytes endless)) rest v) ∧
      (¬∃ rest, Unfinished 10 (unread (Feed.ofBytes endless)) rest) ∧
      ∃ input', (decode : Decoder Feed Error UInt64).run (.ofBytes endless) =
          (.error (.malformed .varintTooLarge), input') ∧
        ∃ bs, bs.length = 10 ∧ unread (Feed.ofBytes endless) = .ofBytes bs ++ unread input' := by
  have unspelt : ¬∃ v rest, Decoder.Begins Spelling (unread (Feed.ofBytes endless)) rest v := by
    rintro ⟨v, rest, _, here, _, ⟨front, last, rfl, _, ends⟩, _⟩
    have mem : Item.byte last ∈ unread (Feed.ofBytes endless) := by
      rw [here]
      simp
    rw [unread_ofBytes, List.append_nil, Feed.ofBytes, List.mem_map_of_injective] at mem
    · obtain rfl := List.eq_of_mem_replicate mem
      exact absurd ends (by decide)
    · exact fun _ _ same => Item.byte.inj same
  have finished : ¬∃ rest, Unfinished 10 (unread (Feed.ofBytes endless)) rest := by
    rintro ⟨rest, stops, bs, here, short, _⟩
    obtain ⟨more, all, rfl⟩ := Feed.exists_of_ofBytes_append_eq ((unread_ofBytes _).symm.trans here)
      (Nat.le_of_lt (Nat.lt_of_lt_of_le short (by decide)))
    cases more with
    | nil =>
      have len := congrArg List.length all
      rw [List.append_nil] at len
      exact absurd (len ▸ short) (by decide)
    | cons b more => exact stops b _ rfl
  obtain ⟨found, input', run, _, _, _, malformed, _⟩ := decode_exact (Feed.ofBytes endless)
  obtain ⟨rfl, taken⟩ := malformed unspelt finished
  exact ⟨unspelt, finished, input', run, taken⟩

end Varint

end Wire

end Columnar
