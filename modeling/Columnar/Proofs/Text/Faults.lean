import Columnar.Proofs.Text.WellFormed
import Columnar.Proofs.Wire.Reads
import Mathlib.Order.Bounds.Defs

/-!
# Where bytes fail to be UTF-8

The fault that decoding reports is told from the bytes alone. It comes after the longest beginning
that encodes a text (`longestText_of_error`); whether the bytes end within a character or go on with
one that does not fit is decided by the characters that begin so (`unfinished_iff`), and so is the
number of bytes that are blamed (`longestBeginning_of_broken`). Main statement: `located`.
-/

namespace Columnar.Utf8

/-- The bytes of a character without some at the end. -/
def Unfinished (bs : Bytes) : Prop := ∃ c, CutShort bs (String.utf8EncodeChar c)

/-- So many bytes in front encode a text, and no longer beginning does. -/
def LongestText (bs : Bytes) : Nat → Prop :=
  IsGreatest {n | n ≤ bs.length ∧ ∃ s, bs.take n = encode s}

/-- So many bytes in front begin a character, and no longer beginning does. -/
def LongestBeginning (bs : Bytes) : Nat → Prop :=
  IsGreatest {n | n ≤ bs.length ∧ ∃ c, bs.take n <+: String.utf8EncodeChar c}

/-- The fault of bytes that encode no text, and its words. For a sequence that is broken off one byte
is blamed at least, and three at most because with four it would be complete. -/
inductive Located (bs : Bytes) : Fault → String → Prop where
  | incomplete {i : Nat} :
    LongestText bs i →
    Unfinished (bs.drop i) →
    Located bs (.incomplete i) ("incomplete utf-8 byte sequence from index " ++ toString i)
  | invalid {i n : Nat} :
    LongestText bs i →
    ¬Unfinished (bs.drop i) →
    LongestBeginning (bs.drop i) n →
    n ≤ 3 →
    Located bs (.invalid (max 1 n) i)
      ("invalid utf-8 sequence of " ++ toString (max 1 n) ++ " bytes from index " ++ toString i)

/-- There are at most three ranges, and none of them is empty. -/
lemma lead_followers {b : UInt8} {first : Lead} (known : lead b = some first) :
    first.followers.length ≤ 3 ∧ ∀ range ∈ first.followers, range.contains range.low := by
  rw [lead] at known
  split_ifs at known <;> obtain rfl := Option.some.inj known <;> dsimp only <;> decide

variable {length number n : Nat} {ranges : List ByteRange} {bs p q rest : Bytes} {b : UInt8}

/-- A character that was completed has taken one byte for each range. -/
lemma length_of_complete (h : follow length number ranges bs = .complete n rest) :
    bs.length = ranges.length + rest.length := by
  fun_induction follow length number ranges bs with
  | case1 =>
    cases h
    exact (Nat.zero_add _).symm
  | case2 => cases h
  | case3 length number range ranges b bs _ ih =>
    have := ih h
    simp only [List.length_cons]
    omega
  | case4 => cases h

/-- Before its last byte a sequence has not ended. -/
lemma unfinished_of_complete (h : follow length number ranges (p ++ b :: q) = .complete n []) :
    follow length number ranges p = .unfinished := by
  induction ranges generalizing length number p with
  | nil => cases p <;> cases h
  | cons range ranges ih =>
    cases p with
    | nil => rfl
    | cons b' p =>
      rw [List.cons_append, follow] at h
      split at h
      · rename_i inside
        rw [follow, if_pos inside]
        exact ih h
      · cases h

/-- A sequence that has not ended can be brought to its end. -/
lemma exists_complete (inhabited : ∀ range ∈ ranges, range.contains range.low)
    (h : follow length number ranges bs = .unfinished) :
    ∃ b more n, follow length number ranges (bs ++ b :: more) = .complete n [] := by
  induction ranges generalizing length number bs with
  | nil => cases h
  | cons range ranges ih =>
    obtain ⟨low, inhabited⟩ := List.forall_mem_cons.1 inhabited
    -- The lowest byte that the next range allows goes on where the bytes end.
    cases bs with
    | nil =>
      cases ranges with
      | nil => exact ⟨range.low, [], _, by rw [List.nil_append, follow, if_pos low, follow]⟩
      | cons next ranges =>
        have unfinished : follow (length + 1) (number * 64 + range.low.toNat % 64)
            (next :: ranges) [] = .unfinished := rfl
        obtain ⟨b, more, n, ends⟩ := ih inhabited unfinished
        exact ⟨range.low, b :: more, n, by rw [List.nil_append, follow, if_pos low]; exact ends⟩
    | cons b' bs =>
      rw [follow] at h
      split at h
      · rename_i inside
        obtain ⟨b, more, n, ends⟩ := ih inhabited h
        exact ⟨b, more, n, by rw [List.cons_append, follow, if_pos inside]; exact ends⟩
      · cases h

/-- A sequence breaks at a byte that it does not allow, whatever comes after this byte. -/
lemma exists_of_broken (h : follow length number ranges bs = .broken n) :
    ∃ p b q, bs = p ++ b :: q ∧ n = length + p.length ∧ p.length < ranges.length ∧
      follow length number ranges p = .unfinished ∧
      ∀ q, follow length number ranges (p ++ b :: q) = .broken n := by
  fun_induction follow length number ranges bs with
  | case1 => cases h
  | case2 => cases h
  | case3 length number range ranges b bs inside ih =>
    obtain ⟨p, b', q, rfl, rfl, short, before, breaks⟩ := ih h
    refine ⟨b :: p, b', q, rfl, ?_, Nat.succ_lt_succ short, ?_, fun q => ?_⟩
    · rw [List.length_cons]
      omega
    · rw [follow, if_pos inside, before]
    · rw [List.cons_append, follow, if_pos inside, breaks]
  | case4 length number range ranges b bs outside =>
    cases h
    exact ⟨[], b, bs, rfl, rfl, Nat.succ_pos _, rfl, fun q => if_neg outside⟩

/-- The bytes of a character are what its first byte announces. -/
lemma exists_of_prefix {c : Char} (h : b :: bs <+: String.utf8EncodeChar c) :
    ∃ q first, String.utf8EncodeChar c = b :: bs ++ q ∧ lead b = some first ∧
      follow 1 first.bits first.followers (bs ++ q) = .complete c.val.toNat [] := by
  obtain ⟨b', bs', first, same, known, _, followed⟩ := lead_encodeChar c
  obtain ⟨q, whole⟩ := h
  rw [same] at whole
  cases whole
  exact ⟨q, first, same, known, List.append_nil (bs ++ q) ▸ followed []⟩

/-- A character is unfinished just when its first byte leads and the others end too early. -/
lemma unfinished_iff :
    Unfinished (b :: bs) ↔
      ∃ first, lead b = some first ∧ follow 1 first.bits first.followers bs = .unfinished := by
  constructor
  · rintro ⟨c, begins, short⟩
    obtain ⟨q, first, same, known, ends⟩ := exists_of_prefix begins
    refine ⟨first, known, ?_⟩
    cases q with
    | nil => exact absurd ((List.append_nil _).symm.trans same.symm) short
    | cons b' q => exact unfinished_of_complete ends
  · rintro ⟨first, known, followed⟩
    obtain ⟨b', more, n, ends⟩ := exists_complete (lead_followers known).2 followed
    have whole := encodeChar_of_followed known ends
    rw [List.append_nil] at whole
    refine ⟨Char.ofNat n, ?_, ?_⟩ <;> rw [whole]
    · exact List.prefix_append (b :: bs) (b' :: more)
    · exact fun same => List.cons_ne_nil b' more (List.self_eq_append_right.1 same)

/-- A byte that no character begins with begins none. -/
lemma longestBeginning_of_none (unknown : lead b = none) : LongestBeginning (b :: bs) 0 := by
  constructor
  · exact ⟨Nat.zero_le _, 'x', List.nil_prefix⟩
  · rintro n ⟨_, c, begins⟩
    cases n with
    | zero => exact Nat.le_refl 0
    | succ n =>
      obtain ⟨_, first, _, known, _⟩ := exists_of_prefix begins
      cases unknown.symm.trans known

/-- The bytes before the one that breaks a sequence begin a character, those up to it do not. -/
lemma longestBeginning_of_broken {first : Lead} (known : lead b = some first)
    (h : follow 1 first.bits first.followers bs = .broken n) :
    LongestBeginning (b :: bs) n ∧ 1 ≤ n ∧ n ≤ 3 := by
  obtain ⟨p, b', q, rfl, rfl, short, before, breaks⟩ := exists_of_broken h
  have few := (lead_followers known).1
  refine ⟨⟨⟨?_, ?_⟩, ?_⟩, by omega, by omega⟩
  · simp only [List.length_cons, List.length_append]
    omega
  · obtain ⟨c, begins, _⟩ := unfinished_iff.2 ⟨first, known, before⟩
    refine ⟨c, ?_⟩
    rwa [Nat.add_comm, List.take_succ_cons, List.take_left]
  · rintro m ⟨_, c, begins⟩
    -- More bytes of the character would be followed past the byte that breaks the sequence.
    by_contra more
    obtain ⟨k, rfl⟩ : ∃ k, m = k + 1 + p.length + 1 := ⟨m - p.length - 2, by omega⟩
    rw [List.take_succ_cons, Nat.add_comm (k + 1), List.take_length_add_append,
      List.take_succ_cons] at begins
    obtain ⟨q', first', _, known', ends⟩ := exists_of_prefix begins
    cases known.symm.trans known'
    rw [List.append_assoc, List.cons_append, breaks] at ends
    cases ends

/-- The fault that decoding finds at a byte, of which so many have come before. -/
inductive Stuck (index : Nat) (b : UInt8) (bs : Bytes) : Fault → Prop where
  | unknown :
    lead b = none →
    Stuck index b bs (.invalid 1 index)
  | unfinished {first : Lead} :
    lead b = some first →
    follow 1 first.bits first.followers bs = .unfinished →
    Stuck index b bs (.incomplete index)
  | broken {first : Lead} {n : Nat} :
    lead b = some first →
    follow 1 first.bits first.followers bs = .broken n →
    Stuck index b bs (.invalid n index)

/-- The fault says where decoding got stuck. -/
lemma Stuck.index_eq {i j : Nat} {b b' : UInt8} {bs bs' : Bytes} {fault : Fault}
    (stuck : Stuck i b bs fault) (stuck' : Stuck j b' bs' fault) : i = j := by
  cases stuck <;> cases stuck' <;> rfl

/-- Decoding gets stuck behind the characters that it has decoded. -/
lemma decodeOnto_error {got : List Char} {index : Nat} {fault : Fault}
    (h : decodeOnto got index bs = .error fault) :
    ∃ (cs : List Char) (b : UInt8) (rest : Bytes),
      bs = cs.flatMap String.utf8EncodeChar ++ b :: rest ∧
      Stuck (index + (cs.flatMap String.utf8EncodeChar).length) b rest fault := by
  fun_induction decodeOnto got index bs with
  | case1 => cases h
  | case2 got index b bs unknown =>
    cases h
    exact ⟨[], b, bs, rfl, .unknown unknown⟩
  | case3 got index b bs first known unfinished =>
    cases h
    exact ⟨[], b, bs, rfl, .unfinished known unfinished⟩
  | case4 got index b bs first known n broken =>
    cases h
    exact ⟨[], b, bs, rfl, .broken known broken⟩
  | case5 got index b bs first known number rest complete ih =>
    obtain ⟨cs, b', rest', rfl, stuck⟩ := ih h
    have whole := encodeChar_of_followed known complete
    -- A whole character moves the index by the bytes that it was followed through.
    have count : (String.utf8EncodeChar (Char.ofNat number)).length =
        first.followers.length + 1 := by
      have all := congrArg List.length whole
      have := length_of_complete complete
      simp only [List.length_append, List.length_cons] at all this
      omega
    refine ⟨Char.ofNat number :: cs, b', rest', ?_, ?_⟩
    · rw [List.flatMap_cons, List.append_assoc, whole]
    · rwa [List.flatMap_cons, List.length_append, count, ← Nat.add_assoc, ← Nat.add_assoc]

/-- The fault of a text is found by going through it. -/
lemma decode_error_iff {fault : Fault} :
    decode bs = .error fault ↔ decodeOnto [] 0 bs = .error fault := by
  rw [decode]
  cases decodeOnto [] 0 bs with
  | ok cs => constructor <;> intro h <;> cases h
  | error fault' => constructor <;> intro h <;> cases h <;> rfl

/-- The bytes before the fault are the longest beginning that encodes a text. -/
lemma longestText_of_error {fault : Fault} (h : decode bs = .error fault) :
    ∃ i b rest, LongestText bs i ∧ bs.drop i = b :: rest ∧ Stuck i b rest fault := by
  rw [decode_error_iff] at h
  obtain ⟨cs, b, rest, rfl, stuck⟩ := decodeOnto_error h
  rw [Nat.zero_add] at stuck
  refine ⟨_, b, rest, ⟨⟨?_, String.ofList cs, ?_⟩, ?_⟩, List.drop_left, stuck⟩
  · rw [List.length_append]
    exact Nat.le_add_right _ _
  · rw [List.take_left, encode, String.toList_ofList]
  · rintro n ⟨within, s, text⟩
    -- Decoding goes through the text and so finds its fault behind it.
    have parts := List.take_append_drop n (cs.flatMap String.utf8EncodeChar ++ b :: rest)
    rw [text, encode] at parts
    rw [← parts, decodeOnto_flatMap] at h
    obtain ⟨cs', b', rest', _, stuck'⟩ := decodeOnto_error h
    have count : n = (s.toList.flatMap String.utf8EncodeChar).length := by
      rw [← encode, ← text, List.length_take_of_le within]
    have later := stuck.index_eq stuck'
    omega

/-- The fault of bytes that cannot be decoded. -/
lemma located {fault : Fault} (h : decode bs = .error fault) :
    Located bs fault fault.message := by
  obtain ⟨i, b, rest, longest, left, stuck⟩ := longestText_of_error h
  cases stuck with
  | unknown unknown =>
    refine .invalid longest (fun unfinished => ?_) (left ▸ longestBeginning_of_none unknown)
      (Nat.zero_le 3)
    obtain ⟨first, known, _⟩ := unfinished_iff.1 (left ▸ unfinished)
    cases unknown.symm.trans known
  | unfinished known unfinished =>
    exact .incomplete longest (left ▸ unfinished_iff.2 ⟨_, known, unfinished⟩)
  | @broken first n known broken =>
    obtain ⟨most, some, few⟩ := longestBeginning_of_broken known broken
    have blamed : max 1 n = n := Nat.max_eq_right some
    have told := Located.invalid longest (fun unfinished => ?_) (left ▸ most) few
    · rwa [blamed] at told
    · obtain ⟨first', known', unfinished⟩ := unfinished_iff.1 (left ▸ unfinished)
      cases known.symm.trans known'
      cases broken.symm.trans unfinished

end Columnar.Utf8
