import Columnar.Text.Blank
import Mathlib.Data.List.DropRight
import Mathlib.Tactic.Lemma

/-!
# Trimming

Dropping the characters of a class from the end of a text leaves a beginning of it that does not end
in one of them. A text is trimmed if no blank stands at either end of it; trimming takes blanks from
both ends and leaves a trimmed text (`exists_trim`), and this can be done in one way only
(`trim_of_split`).
-/

namespace Columnar.Text

variable {p : Char → Bool} {cs : List Char}

/-- No character of the class stands at the end. -/
def NoneTrailing (p : Char → Bool) (cs : List Char) : Prop := ∀ c ∈ cs.getLast?, p c = false

instance (p : Char → Bool) (cs : List Char) : Decidable (NoneTrailing p cs) :=
  inferInstanceAs (Decidable (∀ c ∈ cs.getLast?, p c = false))

/-- It is the last character that decides about the end. -/
lemma noneTrailing_concat {c : Char} : NoneTrailing p (cs ++ [c]) ↔ p c = false := by
  rw [NoneTrailing, List.getLast?_concat]
  exact ⟨fun none => none c rfl, fun other c' same => Option.some.inj same ▸ other⟩

/-- Where no character is such, none is at the end. -/
lemma noneTrailing_of_forall (none : ∀ c ∈ cs, p c = false) : NoneTrailing p cs :=
  fun c last => none c (List.mem_of_getLast? last)

/-- Characters in front do not change the end. -/
lemma noneTrailing_append {cs' : List Char} (some : cs' ≠ []) (none : NoneTrailing p cs') :
    NoneTrailing p (cs ++ cs') := by
  rw [NoneTrailing, List.getLast?_append_of_ne_nil cs some]
  exact none

/-- Nothing is dropped just where nothing such is at the end. -/
lemma dropTrailing_eq_self_iff : dropTrailing p cs = cs ↔ NoneTrailing p cs := by
  have same : dropTrailing p cs = cs.rdropWhile p := rfl
  rw [same]
  rcases cs.eq_nil_or_concat' with rfl | ⟨cs, c, rfl⟩
  · exact ⟨fun _ => nofun, fun _ => rfl⟩
  · rw [List.rdropWhile_eq_self_iff, noneTrailing_concat, ← Bool.not_eq_true]
    simp

/-- After dropping nothing such is left at the end. -/
lemma noneTrailing_dropTrailing (p : Char → Bool) (cs : List Char) :
    NoneTrailing p (dropTrailing p cs) :=
  dropTrailing_eq_self_iff.1 (List.rdropWhile_idempotent p cs)

/-- What is dropped are characters of the class. -/
lemma exists_dropTrailing (p : Char → Bool) (cs : List Char) :
    ∃ tail, cs = dropTrailing p cs ++ tail ∧ ∀ c ∈ tail, p c = true :=
  ⟨cs.rtakeWhile p, List.rdropWhile_append_rtakeWhile.symm, fun _ mem => List.mem_rtakeWhile_imp mem⟩

/-- A tail of nothing else is dropped with the rest. -/
lemma dropTrailing_append {tail : List Char} (all : ∀ c ∈ tail, p c = true) :
    dropTrailing p (cs ++ tail) = dropTrailing p cs := by
  rw [dropTrailing, List.reverse_append, List.dropWhile_append_of_pos]
  · rfl
  · exact fun c mem => all c (List.mem_reverse.1 mem)

/-- A text without such characters at its end, and then such characters, is taken apart again. -/
lemma dropTrailing_of_split {tail : List Char} (none : NoneTrailing p cs)
    (all : ∀ c ∈ tail, p c = true) : dropTrailing p (cs ++ tail) = cs := by
  rw [dropTrailing_append all]
  exact dropTrailing_eq_self_iff.2 none

/-- No blank stands at either end. -/
structure Trimmed (cs : List Char) : Prop where
  head : ∀ c ∈ cs.head?, isBlank c = false
  last : NoneTrailing isBlank cs

/-- Blanks around a trimmed text are what is taken away. -/
lemma trim_of_split {before mid after : List Char} (blank : ∀ c ∈ before, isBlank c = true)
    (trimmed : Trimmed mid) (blank' : ∀ c ∈ after, isBlank c = true) :
    trim (before ++ (mid ++ after)) = mid := by
  rw [trim, List.dropWhile_append_of_pos blank]
  cases mid with
  | nil =>
    have none : after.dropWhile isBlank = [] := List.dropWhile_eq_nil_iff.2 blank'
    rw [List.nil_append, none]
    rfl
  | cons c mid =>
    have shown : ¬isBlank c = true := by
      rw [trimmed.head c rfl]
      exact Bool.false_ne_true
    rw [List.cons_append, List.dropWhile_cons_of_neg shown, ← List.cons_append]
    exact dropTrailing_of_split trimmed.last blank'

/-- Trimming takes nothing from what is not blank, and of what stands before it only blanks. -/
lemma trim_of_shown {before shown after : List Char} (some : shown ≠ [])
    (visible : ∀ c ∈ shown, isBlank c = false) (blank : ∀ c ∈ after, isBlank c = true) :
    trim (before ++ (shown ++ after)) = before.dropWhile isBlank ++ shown := by
  have stops : (shown ++ after).dropWhile isBlank = shown ++ after := by
    obtain ⟨c, shown, rfl⟩ := List.exists_cons_of_ne_nil some
    exact List.dropWhile_cons_of_neg (by simp [visible c List.mem_cons_self])
  have front : (before ++ (shown ++ after)).dropWhile isBlank =
      before.dropWhile isBlank ++ shown ++ after := by
    rw [List.dropWhile_append, stops, List.append_assoc]
    split
    · rename_i none
      rw [List.isEmpty_iff.1 none, List.nil_append]
    · rfl
  rw [trim, front]
  exact dropTrailing_of_split (noneTrailing_append some (noneTrailing_of_forall visible)) blank

/-- What is trimmed stays as it is. -/
lemma trim_eq_self (trimmed : Trimmed cs) : trim cs = cs := by
  have split : trim ([] ++ (cs ++ [])) = cs := trim_of_split nofun trimmed nofun
  rwa [List.nil_append, List.append_nil] at split

/-- Trimming takes blanks from both ends. -/
lemma exists_trim (cs : List Char) : ∃ before after, cs = before ++ (trim cs ++ after) ∧
    (∀ c ∈ before, isBlank c = true) ∧ Trimmed (trim cs) ∧ ∀ c ∈ after, isBlank c = true := by
  obtain ⟨after, split, blank'⟩ : ∃ after, cs.dropWhile isBlank = trim cs ++ after ∧
    ∀ c ∈ after, isBlank c = true := exists_dropTrailing isBlank (cs.dropWhile isBlank)
  refine ⟨cs.takeWhile isBlank, after, ?_, fun c mem => List.mem_takeWhile_imp mem, ?_, blank'⟩
  · rw [← split, List.takeWhile_append_dropWhile]
  · refine ⟨fun c first => ?_, noneTrailing_dropTrailing _ _⟩
    -- A beginning of the text that is left behind the blanks in front starts as this text does.
    have starts : c ∈ (cs.dropWhile isBlank).head? := by
      rw [split, List.head?_append, Option.mem_def.1 first]
      rfl
    have stops := List.head?_dropWhile_not isBlank cs
    rw [Option.mem_def.1 starts] at stops
    exact stops

/-- Trimming leaves something trimmed. -/
lemma trimmed_trim (cs : List Char) : Trimmed (trim cs) := by
  obtain ⟨_, _, _, _, trimmed, _⟩ := exists_trim cs
  exact trimmed

/-- Trimming leaves nothing just of blanks. -/
lemma trim_eq_nil_iff : trim cs = [] ↔ ∀ c ∈ cs, isBlank c = true := by
  constructor
  · intro none
    obtain ⟨before, after, split, blank, _, blank'⟩ := exists_trim cs
    rw [none, List.nil_append] at split
    rw [split]
    exact List.forall_mem_append.2 ⟨blank, blank'⟩
  · intro blank
    have split : trim (cs ++ ([] ++ [])) = [] := trim_of_split blank ⟨nofun, nofun⟩ nofun
    rwa [List.append_nil, List.append_nil] at split

/-- Trimming makes nothing longer. -/
lemma length_trim_le (cs : List Char) : (trim cs).length ≤ cs.length := by
  obtain ⟨before, after, split, _⟩ := exists_trim cs
  have total := congrArg List.length split
  rw [List.length_append, List.length_append] at total
  omega

end Columnar.Text
