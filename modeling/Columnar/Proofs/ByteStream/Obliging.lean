import Columnar.Transport
import Mathlib.Tactic.Lemma

/-!
# Writes that succeed

An obliging sink refuses nothing: its calls may accept a part at a time and may be interrupted, but
none accepts nothing, none fails and no flush fails. A transport over such a sink, as long as it is
not shut down, hands on all that is staged (`Transport.Obliging.flush`).
-/

namespace Columnar

open ByteStream

namespace ByteStream

/-- What is laid down for write calls refuses nothing that is tried again. -/
def WriteEntry.Obliging : WriteEntry → Prop
  | .accept _ => True
  | .nothing => False
  | .failure e => e.kind = .interrupted

namespace Sink

/-- No write and no flush is refused. -/
structure Obliging (s : Sink) : Prop where
  writes : ∀ entry ∈ s.writes, entry.Obliging
  flushes : ∀ f ∈ s.flushes, f = none

/-- Under obliging entries all bytes are written. -/
lemma Obliging.writeUnder {entries : List WriteEntry} (obliging : ∀ entry ∈ entries, entry.Obliging)
    (bs : Bytes) {s : Sink} (flushes : ∀ f ∈ s.flushes, f = none) :
    ∃ s', s.writeUnder bs entries = (.ok (), s') ∧ s'.accepted = s.accepted ++ bs ∧
      s'.Obliging := by
  induction entries generalizing bs s with
  | nil => exact ⟨_, rfl, accepted_accept _ _, nofun, flushes⟩
  | cons entry rest ih =>
    have later : ∀ entry' ∈ rest, entry'.Obliging := fun entry' mem =>
      obliging entry' (List.mem_cons_of_mem entry mem)
    cases entry with
    | accept n =>
      rw [Sink.writeUnder]
      cases dropped : bs.drop n with
      | nil =>
        refine ⟨_, rfl, accepted_accept _ _, ?_, flushes⟩
        intro entry' mem
        rcases List.mem_cons.1 mem with rfl | mem
        · trivial
        · exact later entry' mem
      | cons b left =>
        obtain ⟨s', writes, accepted, obliges⟩ := ih later (b :: left) (s := s.accept (bs.take n))
          flushes
        refine ⟨s', writes, ?_, obliges⟩
        rw [accepted, accepted_accept, List.append_assoc, ← dropped, List.take_append_drop]
    | nothing => exact (obliging .nothing List.mem_cons_self).elim
    | failure e =>
      have again : e.kind = .interrupted := obliging (.failure e) List.mem_cons_self
      rw [Sink.writeUnder, if_pos again]
      exact ih later bs flushes

/-- An obliging sink takes all bytes and stays obliging. -/
lemma Obliging.writeAll {s : Sink} (h : s.Obliging) (bs : Bytes) :
    ∃ s', s.writeAll bs = (.ok (), s') ∧ s'.accepted = s.accepted ++ bs ∧ s'.Obliging := by
  rw [Sink.writeAll]
  by_cases none_given : bs = []
  · rw [if_pos none_given, none_given]
    exact ⟨s, rfl, (List.append_nil _).symm, h⟩
  · rw [if_neg none_given]
    exact writeUnder h.writes bs h.flushes

/-- An obliging sink is flushed and stays obliging. -/
lemma Obliging.flush {s : Sink} (h : s.Obliging) :
    ∃ s', s.flush = (.ok (), s') ∧ s'.accepted = s.accepted ∧ s'.Obliging := by
  obtain ⟨writes, flushes, pieces⟩ := s
  cases flushes with
  | nil => exact ⟨_, rfl, rfl, h⟩
  | cons flush rest =>
    obtain rfl := h.flushes flush List.mem_cons_self
    exact ⟨_, rfl, rfl, h.writes, fun f mem => h.flushes f (List.mem_cons_of_mem none mem)⟩

end Sink

end ByteStream

namespace Transport

variable {ρ : Type}

/-- The transport is open and its sink refuses nothing. -/
structure Obliging (t : Transport ρ) : Prop where
  opened : t.shut = false
  sink : t.sink.Obliging

/-- Staging leaves a transport obliging. -/
lemma Obliging.stage {t : Transport ρ} (h : t.Obliging) (bs : Bytes) : (t.stage bs).Obliging :=
  ⟨h.opened, h.sink⟩

/-- An obliging transport hands on all that is staged. -/
lemma Obliging.flush {t : Transport ρ} (h : t.Obliging) :
    ∃ sink, t.flush = (.ok (), { t with sink, staged := [] }) ∧
      sink.accepted = t.sink.accepted ++ t.staged ∧ sink.Obliging := by
  obtain ⟨written, writes, accepted, obliging⟩ := h.sink.writeAll t.staged
  obtain ⟨flushed, flushes, same, obliging⟩ := obliging.flush
  have drains : t.drain = (.ok (), written) := by
    rw [drain, h.opened, if_neg (by simp), writes]
  refine ⟨flushed, ?_, same.trans accepted, obliging⟩
  rw [Transport.flush, drains]
  simp only [flushes]

end Transport

end Columnar
