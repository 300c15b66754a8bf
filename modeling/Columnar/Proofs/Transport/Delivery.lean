import Columnar.Proofs.ByteStream.Accepted
import Columnar.Proofs.Transport.Steps
import Mathlib.Data.List.Induction

/-!
# Flushing again

A flush that has failed can be tried again. If the sink had accepted nothing by then, or everything,
all that is written still reaches it once and in order. But if it had accepted a part, what waits is
kept as a whole all the same, and the next flush begins with that part again: such a flush is `Torn`.
As long as no flush comes after a torn one, what has been accepted and what waits make up what has
been written (`accounts_after`). Main statement: `delivered_once`.
-/

namespace Columnar.Transport

open ByteStream

variable {ρ : Type}

/-- A flush would fail here after the sink has accepted a part of what waits. -/
def Torn (t : Transport ρ) : Prop :=
  t.flush.2.staged ≠ [] ∧ t.flush.2.sink.accepted ≠ t.sink.accepted

instance (t : Transport ρ) : Decidable t.Torn := inferInstanceAs (Decidable (_ ∧ _))

/-- What the sink has accepted since it was the given one, and then what waits, are these bytes. -/
def Accounts (sink : Sink) (bs : Bytes) (t : Transport ρ) : Prop :=
  ∃ given, t.sink.accepted = sink.accepted ++ given ∧ given ++ t.staged = bs

/-- A new transport accounts for no bytes. -/
lemma accounts_ofStream (stream : ρ) (sink : Sink) : Accounts sink [] (ofStream stream sink) :=
  ⟨[], (List.append_nil _).symm, rfl⟩

/-- A flush hands pieces of what waits on to the sink, behind what was given to it before. -/
lemma Accounts.exists_flushes {sink : Sink} {bs : Bytes} {t : Transport ρ}
    (accounts : Accounts sink bs t) :
    ∃ given pieces, given ++ t.staged = bs ∧ t.sink.accepted = sink.accepted ++ given ∧
      t.Flushes pieces t.flush.1 t.flush.2 ∧
      t.flush.2.sink.accepted = sink.accepted ++ (given ++ pieces.flatten) := by
  obtain ⟨given, accepted, bytes⟩ := accounts
  obtain ⟨pieces, flushes⟩ : ∃ pieces, t.Flushes pieces t.flush.1 t.flush.2 :=
    flushes_of_flush rfl
  refine ⟨given, pieces, bytes, accepted, flushes, ?_⟩
  rw [Sink.accepted_of_pieces flushes.added, accepted, List.append_assoc]

/-- A flush hands on a beginning of what waits. -/
lemma Accounts.begins_flush {sink : Sink} {bs : Bytes} {t : Transport ρ}
    (accounts : Accounts sink bs t) :
    ∃ given, t.flush.2.sink.accepted = sink.accepted ++ given ∧ given <+: bs := by
  obtain ⟨given, pieces, rfl, _, flushes, handed⟩ := accounts.exists_flushes
  exact ⟨_, handed, (List.prefix_append_right_inj given).2 flushes.begins⟩

/-- A flush that goes well hands on all that waits. -/
lemma Accounts.whole_flush {sink : Sink} {bs : Bytes} {t : Transport ρ}
    (accounts : Accounts sink bs t) (ok : t.flush.1 = .ok ()) :
    t.flush.2.sink.accepted = sink.accepted ++ bs := by
  obtain ⟨given, pieces, rfl, _, flushes, handed⟩ := accounts.exists_flushes
  rw [ok] at flushes
  rw [handed, flushes.clear.2]

/-- A flush that is not torn loses and repeats nothing, also if it fails. -/
lemma Accounts.flush {sink : Sink} {bs : Bytes} {t : Transport ρ} (accounts : Accounts sink bs t)
    (whole : ¬t.Torn) : Accounts sink bs t.flush.2 := by
  obtain ⟨given, pieces, rfl, accepted, flushes, handed⟩ := accounts.exists_flushes
  rcases flushes.kept with ⟨clear, all⟩ | ⟨kept, _⟩
  · exact ⟨given ++ t.staged, by rw [handed, all], by rw [clear, List.append_nil]⟩
  · refine ⟨given, ?_, by rw [kept]⟩
    by_cases none_waits : t.flush.2.staged = []
    · -- A flush of nothing has nothing to be accepted.
      have begins := flushes.begins
      rw [← kept, none_waits, List.prefix_nil] at begins
      rw [handed, begins, List.append_nil]
    · have same : t.flush.2.sink.accepted = t.sink.accepted :=
        not_not.1 fun differs => whole ⟨none_waits, differs⟩
      rw [same, accepted]

variable [Reader ρ]

/-- A step accounts for its bytes unless it flushes after a torn flush. -/
lemma Accounts.step {sink : Sink} {bs : Bytes} {t : Transport ρ} (accounts : Accounts sink bs t)
    {s : Step} (whole : s = .flush → ¬t.Torn) : Accounts sink (bs ++ s.bytes) (t.step s) := by
  rcases eq_or_ne s .flush with rfl | other
  · have flushed := accounts.flush (whole rfl)
    rwa [← List.append_nil bs] at flushed
  · obtain ⟨given, accepted, rfl⟩ := accounts
    refine ⟨given, (congrArg Sink.accepted (t.sink_step other)).trans accepted, ?_⟩
    rw [t.staged_step other, List.append_assoc]

/-- No flush among the steps is torn, unless it is the last one. -/
def Unbroken : List Step → Transport ρ → Prop
  | [], _ => True
  | s :: steps, t => (s = .flush → .flush ∈ steps → ¬t.Torn) ∧ Unbroken steps (t.step s)

instance decidableUnbroken : (steps : List Step) → (t : Transport ρ) → Decidable (Unbroken steps t)
  | [], _ => .isTrue trivial
  | s :: steps, t =>
    have := decidableUnbroken steps (t.step s)
    inferInstanceAs (Decidable (_ ∧ _))

/-- What is unbroken is so at every earlier moment. -/
lemma Unbroken.past {past steps : List Step} {t : Transport ρ} (h : Unbroken steps t)
    (earlier : past <+: steps) : Unbroken past t := by
  induction steps generalizing past t with
  | nil =>
    rw [List.prefix_nil.1 earlier]
    trivial
  | cons s steps ih =>
    cases past with
    | nil => trivial
    | cons s' past =>
      obtain ⟨rfl, begins⟩ := List.cons_prefix_cons.1 earlier
      exact ⟨fun flushes again => h.1 flushes (begins.subset again), ih h.2 begins⟩

/-- Before a further flush every byte that has been written is accounted for. -/
lemma accounts_after {sink : Sink} {bs : Bytes} {t : Transport ρ} (accounts : Accounts sink bs t)
    {steps : List Step} (h : Unbroken (steps ++ [.flush]) t) :
    Accounts sink (bs ++ written steps) (t.after steps) := by
  induction steps generalizing bs t with
  | nil => rwa [← List.append_nil bs] at accounts
  | cons s steps ih =>
    have again : Step.flush ∈ steps ++ [.flush] := List.mem_append_right _ List.mem_cons_self
    have first := accounts.step fun flushes => h.1 flushes again
    rw [written, List.flatMap_cons, ← List.append_assoc]
    exact ih first h.2

/-- The sink has accepted a beginning of what has been written. -/
lemma begins_after {stream : ρ} {sink : Sink} {steps : List Step}
    (h : Unbroken steps (ofStream stream sink)) :
    ∃ given, ((ofStream stream sink).after steps).sink.accepted = sink.accepted ++ given ∧
      given <+: written steps := by
  -- The induction is from the end, where only the last step may be a torn flush.
  induction steps using List.reverseRecOn with
  | nil => exact ⟨[], (List.append_nil _).symm, List.nil_prefix⟩
  | append_singleton steps s ih =>
    rw [after_append, written_append]
    rcases eq_or_ne s .flush with rfl | other
    · obtain ⟨given, accepted, begins⟩ :=
        (accounts_after (accounts_ofStream stream sink) h).begins_flush
      exact ⟨given, accepted, begins.trans (List.prefix_append _ _)⟩
    · obtain ⟨given, accepted, begins⟩ := ih (h.past (List.prefix_append _ _))
      refine ⟨given, ?_, begins.trans (List.prefix_append _ _)⟩
      exact (congrArg Sink.accepted (sink_step _ other)).trans accepted

/-- As long as no flush is tried again after it was torn, the bytes that a stream has accepted are at
every moment a beginning of those that have been written to the transport, and after a flush that
went well they are all of them, also if flushes before it have failed. -/
theorem delivered_once {stream : ρ} {sink : Sink} {steps : List Step}
    (unbroken : Unbroken steps (ofStream stream sink)) {past : List Step} (earlier : past <+: steps) :
    (∃ given, ((ofStream stream sink).after past).sink.accepted = sink.accepted ++ given ∧
      given <+: written past) ∧
    ∀ before, past = before ++ [.flush] →
      ((ofStream stream sink).after before).flush.1 = .ok () →
      ((ofStream stream sink).after past).sink.accepted = sink.accepted ++ written past := by
  have h := unbroken.past earlier
  refine ⟨begins_after h, ?_⟩
  rintro before rfl ok
  have all := (accounts_after (accounts_ofStream stream sink) h).whole_flush ok
  rw [after_append, written_append]
  exact all.trans (congrArg _ (List.append_nil _).symm)

/-- A sink whose first write fails, which then takes one byte and all others, and whose first flush
fails. -/
def reluctant : Sink where
  writes := [.failure ⟨.connectionReset, "reset"⟩, .accept 1]
  flushes := [some ⟨.timedOut, "timed out"⟩]

/-- Two flushes fail, the one before anything is accepted and the other after everything is. -/
theorem delivered_once_retried :
    Unbroken [.write [1, 2], .flush, .write [3], .flush, .flush]
        (ofStream ([] : Feed) reluctant) ∧
      (∃ e, ((ofStream ([] : Feed) reluctant).after [.write [1, 2]]).flush.1 = .error e) ∧
      (∃ e, ((ofStream ([] : Feed) reluctant).after
        [.write [1, 2], .flush, .write [3]]).flush.1 = .error e) ∧
      ((ofStream ([] : Feed) reluctant).after
        [.write [1, 2], .flush, .write [3], .flush, .flush]).sink.accepted = [1, 2, 3] := by
  have unbroken : Unbroken [.write [1, 2], .flush, .write [3], .flush, .flush]
      (ofStream ([] : Feed) reluctant) := by decide
  obtain ⟨_, whole⟩ := delivered_once unbroken List.prefix_rfl
  exact ⟨unbroken, ⟨_, rfl⟩, ⟨_, rfl⟩, whole [.write [1, 2], .flush, .write [3], .flush] rfl rfl⟩

/-- A sink that takes one byte before a write fails. -/
def tearing : Sink where
  writes := [.accept 1, .failure ⟨.connectionReset, "reset"⟩]

/-- The byte that was accepted before the failure is accepted again, though the second flush goes
well, and what has been accepted is not what has been written. -/
theorem delivered_once_torn :
    ((ofStream ([] : Feed) tearing).after [.write [1, 2]]).Torn ∧
      ((ofStream ([] : Feed) tearing).after [.write [1, 2], .flush]).flush.1 = .ok () ∧
      ((ofStream ([] : Feed) tearing).after [.write [1, 2], .flush, .flush]).sink.accepted =
        [1, 1, 2] ∧
      ¬((ofStream ([] : Feed) tearing).after [.write [1, 2], .flush, .flush]).sink.accepted <+:
        written [.write [1, 2], .flush, .flush] := by
  decide

end Columnar.Transport
