import Columnar.Proofs.Text.Trim
import Columnar.Shell.Command

/-!
# Queries that are typed

Of a line that is no command the blanks around it are dropped first and the semicolons at its end
after that. So what is sent begins as the line does and does not end in a semicolon, but a blank that
stands before the last semicolons of the line is left at its end, and where there is nothing before
them, nothing is left. Only of an `Unmixed` line does this make a proper query, which gives itself
when it is typed again. Main statement: `query_stable`.
-/

namespace Columnar.Shell

open Text

/-- There is something in the text besides blanks, no blank stands at either end of it, and no
semicolon at its end. -/
structure Proper (text : String) : Prop where
  inked : ∃ c ∈ text.toList, isBlank c = false
  trimmed : Trimmed text.toList
  bare : NoneTrailing (· == ';') text.toList

/-- There is a character in the line that is neither blank nor a semicolon, and behind the last such
character come semicolons first and then blanks. -/
def Unmixed (line : String) : Prop :=
  ∃ before c semicolons after, line.toList = before ++ (c :: (semicolons ++ after)) ∧
    isBlank c = false ∧ c ≠ ';' ∧ (∀ s ∈ semicolons, s = ';') ∧ ∀ a ∈ after, isBlank a = true

/-- What is left of a line without the blanks around it and then without the semicolons at its end. -/
def stem (line : String) : List Char := dropTrailing (· == ';') (trim line.toList)

variable {line text : String} {cs : List Char}

namespace Command

/-- No query is spelt like a command. -/
lemma ne_query_of_spelt {s : String} {command : Command}
    (spelt : spellings.lookup s = some command) : command ≠ .query text := by
  obtain ⟨first, later, split, _⟩ := List.lookup_eq_some_iff.1 spelt
  have listed : (s, command) ∈ spellings := split ▸ List.mem_append_right _ List.mem_cons_self
  rintro rfl
  simp [spellings] at listed

/-- A trimmed line is a query unless it is empty or begins with a dot. -/
lemma ofTrimmed_query_iff : ofTrimmed cs = .ok (.query text) ↔
    cs ≠ [] ∧ cs.head? ≠ some '.' ∧ text = String.ofList (dropTrailing (· == ';') cs) := by
  unfold ofTrimmed
  split
  · exact ⟨nofun, fun h => absurd rfl h.1⟩
  · split
    · rename_i spelt
      refine ⟨fun same => ?_, fun ⟨_, other, _⟩ => absurd rfl other⟩
      cases same
      exact absurd rfl (ne_query_of_spelt spelt)
    · exact ⟨nofun, fun ⟨_, other, _⟩ => absurd rfl other⟩
  · rename_i some other
    constructor
    · rintro ⟨⟩
      refine ⟨some, fun first => ?_, rfl⟩
      obtain ⟨cs, rfl⟩ := List.head?_eq_some_iff.1 first
      exact other cs rfl
    · rintro ⟨_, _, rfl⟩
      rfl

/-- A trimmed line is refused as empty just when it is. -/
lemma ofTrimmed_empty_iff : ofTrimmed cs = .error .empty ↔ cs = [] := by
  unfold ofTrimmed
  split
  · exact ⟨fun _ => rfl, fun _ => rfl⟩
  · split <;> exact ⟨nofun, nofun⟩
  · rename_i some _
    exact ⟨nofun, fun none => absurd none some⟩

/-- A line is a query just when its trimmed text is one, and its text is the stem. -/
lemma parse_query_iff : parse line = .ok (.query text) ↔
    trim line.toList ≠ [] ∧ (trim line.toList).head? ≠ some '.' ∧
      text = String.ofList (stem line) := ofTrimmed_query_iff

end Command

/-- What is left of a line begins as the line does behind its blanks. -/
lemma head?_stem (line : String) : ∀ c ∈ (stem line).head?, c ∈ (trim line.toList).head? := by
  intro c first
  obtain ⟨tail, split, _⟩ := exists_dropTrailing (· == ';') (trim line.toList)
  have starts : (trim line.toList).head? = (stem line).head?.or tail.head? := by
    rw [← List.head?_append]
    exact congrArg List.head? split
  rw [starts, Option.mem_def.1 first]
  rfl

/-- The stem is trimmed already if no blank is left at its end. -/
lemma trimmed_stem_iff : Trimmed (stem line) ↔ NoneTrailing isBlank (stem line) :=
  ⟨Trimmed.last, fun last => ⟨fun c first => (trimmed_trim _).head c (head?_stem line c first), last⟩⟩

/-- A line is unmixed just when its stem has characters and no blank at its end. -/
lemma unmixed_iff : Unmixed line ↔ stem line ≠ [] ∧ NoneTrailing isBlank (stem line) := by
  constructor
  · rintro ⟨before, c, semicolons, after, split, shown, other, semi, blank⟩
    have visible : ∀ d ∈ c :: semicolons, isBlank d = false := by
      refine List.forall_mem_cons.2 ⟨shown, fun s mem => ?_⟩
      rw [semi s mem]
      rfl
    -- Trimming stops at the character shown and the semicolons, dropping at the character.
    have left : stem line = before.dropWhile isBlank ++ [c] := by
      rw [stem, split, ← List.cons_append, trim_of_shown (List.cons_ne_nil _ _) visible blank,
        List.append_cons]
      exact dropTrailing_of_split (noneTrailing_concat.2 (beq_false_of_ne other))
        fun s mem => beq_of_eq (semi s mem)
    rw [left]
    exact ⟨List.append_ne_nil_of_right_ne_nil _ nofun, noneTrailing_concat.2 shown⟩
  · rintro ⟨inked, last⟩
    obtain ⟨before, after, split, _, _, blank⟩ := exists_trim line.toList
    obtain ⟨semicolons, split', semi⟩ : ∃ tail, trim line.toList = stem line ++ tail ∧
      ∀ c ∈ tail, (c == ';') = true := exists_dropTrailing _ _
    have bare : NoneTrailing (· == ';') (stem line) := noneTrailing_dropTrailing _ _
    obtain ⟨cs, c, whole⟩ := (List.eq_nil_or_concat' _).resolve_left inked
    rw [whole] at split' last bare
    have other := noneTrailing_concat.1 bare
    refine ⟨before ++ cs, c, semicolons, after, ?_, noneTrailing_concat.1 last,
      ne_of_beq_false other, fun s mem => eq_of_beq (semi s mem), blank⟩
    rw [split, split']
    simp only [List.append_assoc, List.cons_append, List.nil_append]

/-- Of the texts that begin like no command and do not end in a semicolon, those give themselves in
which there is something and which are trimmed. -/
lemma parse_ofList_iff (free : cs.head? ≠ some '.') (bare : NoneTrailing (· == ';') cs) :
    Command.parse (String.ofList cs) = .ok (.query (String.ofList cs)) ↔ cs ≠ [] ∧ Trimmed cs := by
  rw [Command.parse_query_iff, stem, String.toList_ofList]
  constructor
  · rintro ⟨inked, _, same⟩
    have same : cs = dropTrailing (· == ';') (trim cs) := String.ofList_injective same
    obtain ⟨tail, split, _⟩ := exists_dropTrailing (· == ';') (trim cs)
    rw [← same] at split
    -- Nothing is dropped from either end, or the text would be shorter than it is.
    have short := length_trim_le cs
    rw [split, List.length_append] at short
    obtain rfl : tail = [] := List.eq_nil_of_length_eq_zero (by omega)
    rw [List.append_nil] at split
    rw [split] at inked
    exact ⟨inked, split ▸ trimmed_trim cs⟩
  · rintro ⟨inked, trimmed⟩
    rw [trim_eq_self trimmed, dropTrailing_eq_self_iff.2 bare]
    exact ⟨inked, free, rfl⟩

/-- A text that ends in no semicolon is proper just when it is trimmed and has characters. -/
lemma proper_ofList_iff (bare : NoneTrailing (· == ';') cs) :
    Proper (String.ofList cs) ↔ cs ≠ [] ∧ Trimmed cs := by
  constructor
  · rintro ⟨⟨c, mem, _⟩, trimmed, _⟩
    rw [String.toList_ofList] at mem trimmed
    exact ⟨List.ne_nil_of_mem mem, trimmed⟩
  · rintro ⟨inked, trimmed⟩
    obtain ⟨c, cs, rfl⟩ := List.exists_cons_of_ne_nil inked
    rw [← String.toList_ofList (l := c :: cs)] at bare trimmed
    exact ⟨⟨c, by simp, trimmed.head c (by simp)⟩, trimmed, bare⟩

/-- A line is empty if there are only blanks in it. What is sent for any other line that is no
command begins with a character that is not blank and does not end in a semicolon. It is a proper
text, and gives itself when it is typed again, if nothing but semicolons and then blanks stand
behind the last character of the line that is neither, and only then. -/
theorem query_stable (line : String) :
    (Command.parse line = .error .empty ↔ ∀ c ∈ line.toList, isBlank c = true) ∧
    ∀ text, Command.parse line = .ok (.query text) →
      (∀ c ∈ text.toList.head?, isBlank c = false) ∧ NoneTrailing (· == ';') text.toList ∧
      (Proper text ↔ Unmixed line) ∧
      (Command.parse text = .ok (.query text) ↔ Unmixed line) := by
  refine ⟨Command.ofTrimmed_empty_iff.trans trim_eq_nil_iff, fun text typed => ?_⟩
  obtain ⟨_, free, rfl⟩ := Command.parse_query_iff.1 typed
  have bare : NoneTrailing (· == ';') (stem line) := noneTrailing_dropTrailing _ _
  have free' : (stem line).head? ≠ some '.' := fun first => free (head?_stem line _ first)
  rw [proper_ofList_iff bare, parse_ofList_iff free' bare, trimmed_stem_iff, ← unmixed_iff,
    String.toList_ofList]
  exact ⟨fun c first => (trimmed_trim _).head c (head?_stem line c first), bare, .rfl, .rfl⟩

/-- Blanks of other scripts around a line are dropped as well, and of the semicolons in it only those
at its end. -/
theorem query_stable_ideographic :
    Command.parse "\u3000SELECT ';' ;x;;\t\u2003" = .ok (.query "SELECT ';' ;x") ∧
      Unmixed "\u3000SELECT ';' ;x;;\t\u2003" ∧ Proper "SELECT ';' ;x" ∧
      Command.parse "SELECT ';' ;x" = .ok (.query "SELECT ';' ;x") := by
  have typed : Command.parse "\u3000SELECT ';' ;x;;\t\u2003" = .ok (.query "SELECT ';' ;x") := rfl
  have unmixed : Unmixed "\u3000SELECT ';' ;x;;\t\u2003" :=
    ⟨"\u3000SELECT ';' ;".toList, 'x', [';', ';'], ['\t', '\u2003'], rfl, rfl, by decide, by simp,
      List.all_eq_true.1 rfl⟩
  obtain ⟨_, _, proper, again⟩ := (query_stable _).2 _ typed
  exact ⟨typed, unmixed, proper.2 unmixed, again.2 unmixed⟩

/-- Of a lone semicolon a query without text is sent, which typed by itself would have been no command
at all, and a blank before the last semicolon is sent along, which would not be sent a second time. -/
theorem query_stable_semicolons :
    (Command.parse ";" = .ok (.query "") ∧ ¬Proper "" ∧ Command.parse "" = .error .empty) ∧
      Command.parse "SELECT 1 ;" = .ok (.query "SELECT 1 ") ∧ ¬Proper "SELECT 1 " ∧
      Command.parse "SELECT 1 " = .ok (.query "SELECT 1") := by
  refine ⟨⟨rfl, ?_, rfl⟩, rfl, ?_, rfl⟩
  · rintro ⟨⟨c, mem, _⟩, _⟩
    exact absurd mem List.not_mem_nil
  · rintro ⟨_, ⟨_, last⟩, _⟩
    exact absurd (last ' ' rfl) (by decide)

end Columnar.Shell
