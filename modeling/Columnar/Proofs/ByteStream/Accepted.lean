import Columnar.Transport
import Mathlib.Tactic.Lemma

/-!
# What a sink accepts

Writes that may be cut short, refused or interrupted hand bytes on in pieces. Whatever happens to the
calls, the pieces of one write are a beginning of what was given, in order, and all of it if the write
succeeds (`Sink.took_of_writeAll`). A flush of a transport then keeps everything that waited or
nothing, and nothing only if all of it was accepted (`Transport.flushes_of_flush`).
-/

namespace Columnar

open ByteStream

namespace ByteStream.Sink

/-- The pieces that the sink has accepted since it was another one, the earliest first. -/
def since (before after : Sink) : List Bytes :=
  (after.pieces.take (after.pieces.length - before.pieces.length)).reverse

/-- The pieces since an earlier moment are those that have been added. -/
lemma since_eq {s s' : Sink} {pieces : List Bytes} (h : s'.pieces = pieces.reverse ++ s.pieces) :
    s.since s' = pieces := by
  have count : s'.pieces.length - s.pieces.length = pieces.reverse.length := by
    rw [h, List.length_append, Nat.add_sub_cancel]
  rw [since, count, h, List.take_left, List.reverse_reverse]

/-- What is accepted grows by the pieces. -/
lemma accepted_of_pieces {s s' : Sink} {pieces : List Bytes}
    (h : s'.pieces = pieces.reverse ++ s.pieces) :
    s'.accepted = s.accepted ++ pieces.flatten := by
  rw [accepted, h, List.reverse_append, List.reverse_reverse, List.flatten_append, accepted]

/-- Of these bytes the pieces have been accepted, in order, and all of them if the calls went well. -/
structure Took (bs : Bytes) (s : Sink) (pieces : List Bytes) (result : Except Failure Unit)
    (s' : Sink) : Prop where
  added : s'.pieces = pieces.reverse ++ s.pieces
  begins : pieces.flatten <+: bs
  whole : result = .ok () → pieces.flatten = bs

/-- A write that fails at once takes nothing. -/
lemma Took.none (bs : Bytes) (s : Sink) (e : Failure) (writes : List WriteEntry) :
    Took bs s [] (.error e) { s with writes } :=
  ⟨rfl, List.nil_prefix, nofun⟩

/-- A write that is accepted at once takes one piece. -/
lemma Took.all (bs : Bytes) (s : Sink) (writes : List WriteEntry) :
    Took bs s [bs] (.ok ()) { s.accept bs with writes } :=
  ⟨rfl, List.flatten_singleton ▸ List.prefix_rfl, fun _ => List.flatten_singleton⟩

/-- A piece goes before those of the bytes that are left. -/
lemma Took.cons {bs rest : Bytes} {s s' : Sink} {pieces : List Bytes}
    {result : Except Failure Unit} (took : Took rest (s.accept bs) pieces result s') :
    Took (bs ++ rest) s (bs :: pieces) result s' where
  added := by rw [took.added, List.reverse_cons, List.append_assoc]; rfl
  begins := (List.prefix_append_right_inj bs).2 took.begins
  whole ok := by rw [List.flatten_cons, took.whole ok]

/-- Nothing is taken where nothing is given. -/
lemma Took.refl (s : Sink) : Took [] s [] (.ok ()) s := ⟨rfl, List.nil_prefix, fun _ => rfl⟩

/-- What is written after bytes that have all been accepted goes behind them. -/
lemma Took.trans {bs bs' : Bytes} {s s' s'' : Sink} {pieces pieces' : List Bytes}
    {result : Except Failure Unit} (first : Took bs s pieces (.ok ()) s')
    (next : Took bs' s' pieces' result s'') : Took (bs ++ bs') s (pieces ++ pieces') result s'' where
  added := by rw [next.added, first.added, List.reverse_append, List.append_assoc]
  begins := by
    rw [List.flatten_append, first.whole rfl]
    exact (List.prefix_append_right_inj bs).2 next.begins
  whole ok := by rw [List.flatten_append, first.whole rfl, next.whole ok]

/-- Nothing is written behind bytes that were refused. -/
lemma Took.stop {bs : Bytes} {s s' : Sink} {pieces : List Bytes} {e : Failure}
    (took : Took bs s pieces (.error e) s') (rest : Bytes) :
    Took (bs ++ rest) s pieces (.error e) s' where
  added := took.added
  begins := took.begins.trans (List.prefix_append bs rest)
  whole := nofun

/-- Whatever the entries say, the pieces of a write are a beginning of it. -/
lemma took_of_writeUnder {bs : Bytes} {s s' : Sink} {entries : List WriteEntry}
    {result : Except Failure Unit} (h : s.writeUnder bs entries = (result, s')) :
    ∃ pieces, Took bs s pieces result s' := by
  -- On the entries, because the sink answers its calls one by one.
  induction entries generalizing bs s with
  | nil =>
    cases h
    exact ⟨[bs], .all bs s []⟩
  | cons entry rest ih =>
    cases entry with
    | accept n =>
      rw [writeUnder] at h
      cases dropped : bs.drop n with
      | nil =>
        rw [dropped] at h
        cases h
        exact ⟨[bs], .all bs s _⟩
      | cons b left =>
        rw [dropped] at h
        obtain ⟨pieces, took⟩ := ih h
        have whole := took.cons
        rw [← dropped, List.take_append_drop] at whole
        exact ⟨bs.take n :: pieces, whole⟩
    | nothing =>
      cases h
      exact ⟨[], .none bs s _ rest⟩
    | failure e =>
      rw [writeUnder] at h
      split at h
      · exact ih h
      · cases h
        exact ⟨[], .none bs s e rest⟩

/-- Whatever happens to the calls, the pieces of a write are a beginning of it. -/
lemma took_of_writeAll {bs : Bytes} {s s' : Sink} {result : Except Failure Unit}
    (h : s.writeAll bs = (result, s')) : ∃ pieces, Took bs s pieces result s' := by
  rw [writeAll] at h
  split at h
  · rename_i none_given
    subst none_given
    cases h
    exact ⟨[], .refl s⟩
  · exact took_of_writeUnder h

/-- A flush hands no bytes on. -/
lemma pieces_flush {s s' : Sink} {result : Except Failure Unit} (h : s.flush = (result, s')) :
    s'.pieces = s.pieces := by
  rw [flush] at h
  split at h <;> cases h <;> rfl

end ByteStream.Sink

namespace Transport

variable {ρ : Type}

/-- These pieces of what waited have been accepted. Either this is all of it, or the flush fails and
all of it waits as before. -/
structure Flushes (t : Transport ρ) (pieces : List Bytes) (result : Except Failure Unit)
    (t' : Transport ρ) : Prop where
  added : t'.sink.pieces = pieces.reverse ++ t.sink.pieces
  begins : pieces.flatten <+: t.staged
  kept : t'.staged = [] ∧ pieces.flatten = t.staged ∨
    t'.staged = t.staged ∧ ∃ e, result = .error e

/-- A flush of the transport hands on pieces of what was staged. -/
lemma flushes_of_flush {t t' : Transport ρ} {result : Except Failure Unit}
    (h : t.flush = (result, t')) : ∃ pieces, t.Flushes pieces result t' := by
  obtain ⟨drained, sink, drains⟩ : ∃ drained sink, t.drain = (drained, sink) := ⟨_, _, rfl⟩
  obtain ⟨pieces, took⟩ : ∃ pieces, Sink.Took t.staged t.sink pieces drained sink := by
    rw [drain] at drains
    split at drains
    · cases drains
      exact ⟨[], .none t.staged t.sink _ t.sink.writes⟩
    · exact Sink.took_of_writeAll drains
  rw [flush, drains] at h
  cases drained with
  | error e =>
    cases h
    exact ⟨pieces, took.added, took.begins, .inr ⟨rfl, e, rfl⟩⟩
  | ok u =>
    -- The sink's own flush may fail, but only after everything has been accepted.
    obtain ⟨flushed, sink', flushes⟩ : ∃ flushed sink', sink.flush = (flushed, sink') :=
      ⟨_, _, rfl⟩
    simp only [flushes] at h
    cases h
    exact ⟨pieces, (Sink.pieces_flush flushes).trans took.added, took.begins,
      .inl ⟨rfl, took.whole rfl⟩⟩

/-- A flush that goes well has handed on all that was staged. -/
lemma Flushes.clear {t t' : Transport ρ} {pieces : List Bytes}
    (flushes : t.Flushes pieces (.ok ()) t') : t'.staged = [] ∧ pieces.flatten = t.staged := by
  rcases flushes.kept with clear | ⟨_, _, failed⟩
  · exact clear
  · cases failed

end Transport

end Columnar
