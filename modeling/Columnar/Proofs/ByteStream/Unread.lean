import Columnar.ByteStream.Buffered
import Columnar.ByteStream.Source
import Mathlib.Tactic.Lemma

/-!
# What is still unread

`Delivers` says how one call takes from a feed: a beginning of the bytes in front, the failure in
front, or nothing because the feed has ended. A reader all of whose calls take from a feed is
`Observable`: a feed is, a source is whatever its segments and its limit are, and a buffered reader
has what it holds and what the reader below has. Whoever reads again after an interruption sees
none, so what counts as `unread` are the bytes and the other failures.
-/

namespace Columnar.ByteStream

/-- How a call for at most `n` bytes takes from a feed. -/
def Delivers (n : Nat) (before : Feed) : Except Failure Bytes → Feed → Prop
  | .ok [], after => before = [] ∧ after = []
  | .ok (b :: bs), after => (b :: bs).length ≤ n ∧ before = .ofBytes (b :: bs) ++ after
  | .error e, after => before = .failure e :: after

/-- A reader that delivers a feed, however it cuts the feed into calls. -/
class Observable (ρ : Type) [Reader ρ] where
  feed : ρ → Feed
  delivers_read : ∀ {n} (r : ρ), 0 < n →
    Delivers n (feed r) (Reader.read n r).1 (feed (Reader.read n r).2)

/-- What is delivered to a small call is delivered to a larger one. -/
lemma Delivers.mono {n m : Nat} {before result after} (le : n ≤ m)
    (h : Delivers n before result after) : Delivers m before result after := by
  cases result with
  | error e => exact h
  | ok given =>
    cases given with
    | nil => exact h
    | cons b bs => exact ⟨Nat.le_trans h.1 le, h.2⟩

namespace Feed

/-- A byte is an item in front of the others. -/
@[simp] lemma ofBytes_cons (b : UInt8) (bs : Bytes) :
    ofBytes (b :: bs) = .byte b :: ofBytes bs := rfl

/-- Bytes behind each other are items behind each other. -/
@[simp] lemma ofBytes_append (bs bs' : Bytes) : ofBytes (bs ++ bs') = ofBytes bs ++ ofBytes bs' :=
  List.map_append

/-- Different bytes are different items. -/
lemma ofBytes_inj {bs bs' : Bytes} : ofBytes bs = ofBytes bs' ↔ bs = bs' :=
  List.map_inj_right fun _ _ same => Item.byte.inj same

/-- Of two feeds that are equal, the one that begins with fewer bytes goes on with the others. -/
lemma exists_of_ofBytes_append_eq {bs bs' : Bytes} {rest rest' : Feed}
    (e : ofBytes bs ++ rest = ofBytes bs' ++ rest') (le : bs'.length ≤ bs.length) :
    ∃ more, bs = bs' ++ more ∧ rest' = ofBytes more ++ rest := by
  induction bs' generalizing bs with
  | nil => exact ⟨bs, rfl, e.symm⟩
  | cons b' bs' ih =>
    cases bs with
    | nil => exact absurd le (Nat.not_succ_le_zero _)
    | cons b bs =>
      obtain ⟨same, tails⟩ := List.cons_eq_cons.1 e
      obtain ⟨more, rfl, left⟩ := ih tails (Nat.le_of_succ_le_succ le)
      cases same
      exact ⟨more, rfl, left⟩

/-- The bytes in front of a feed and what is behind them are the feed. -/
lemma front_append_drop (n : Nat) (feed : Feed) :
    ofBytes (front n feed) ++ feed.drop (front n feed).length = feed := by
  fun_induction front n feed with
  | case1 n b rest ih => exact congrArg (Item.byte b :: ·) ih
  | case2 => rfl

/-- No more bytes stand in front than were asked for. -/
lemma length_front (n : Nat) (feed : Feed) : (front n feed).length ≤ n := by
  fun_induction front n feed with
  | case1 n b rest ih => exact Nat.succ_le_succ ih
  | case2 => exact Nat.zero_le _

/-- The feed does not go on with a byte: it has ended or goes on with a failure. -/
def Stops (feed : Feed) : Prop := ∀ b rest, feed ≠ .byte b :: rest

/-- At the end of a feed no byte stands in front. -/
lemma stops_nil : Stops [] := nofun

/-- At a failure no byte stands in front. -/
lemma stops_failure (e : Failure) (rest : Feed) : Stops (.failure e :: rest) := nofun

/-- Of a feed either all the bytes that are asked for stand in front, or it stops before. -/
lemma exists_front (n : Nat) (feed : Feed) :
    ∃ bs rest, feed = ofBytes bs ++ rest ∧ (bs.length = n ∨ bs.length < n ∧ rest.Stops) := by
  induction n generalizing feed with
  | zero => exact ⟨[], feed, rfl, .inl rfl⟩
  | succ n ih =>
    cases feed with
    | nil => exact ⟨[], [], rfl, .inr ⟨n.succ_pos, stops_nil⟩⟩
    | cons item feed =>
      cases item with
      | failure e => exact ⟨[], .failure e :: feed, rfl, .inr ⟨n.succ_pos, stops_failure e feed⟩⟩
      | byte b =>
        obtain ⟨bs, rest, rfl, all | ⟨some, stops⟩⟩ := ih feed
        · exact ⟨b :: bs, rest, rfl, .inl (congrArg Nat.succ all)⟩
        · exact ⟨b :: bs, rest, rfl, .inr ⟨Nat.succ_lt_succ some, stops⟩⟩

/-- A feed delivers what stands in front of it. -/
lemma delivers_read {n : Nat} (feed : Feed) (pos : 0 < n) :
    Delivers n feed (read n feed).1 (read n feed).2 := by
  obtain ⟨n, rfl⟩ := Nat.exists_eq_succ_of_ne_zero (Nat.ne_of_gt pos)
  cases feed with
  | nil => exact ⟨rfl, rfl⟩
  | cons item rest =>
    cases item with
    | failure e => rfl
    | byte b => exact ⟨length_front (n + 1) (.byte b :: rest), (front_append_drop (n + 1) _).symm⟩

/-- A call may deliver any beginning of the bytes in front that is not empty. -/
lemma delivers_take {n : Nat} (b : UInt8) (bs : Bytes) (rest : Feed) (pos : 0 < n) :
    Delivers n (ofBytes (b :: bs) ++ rest) (.ok ((b :: bs).take n))
      (ofBytes ((b :: bs).drop n) ++ rest) := by
  obtain ⟨n, rfl⟩ := Nat.exists_eq_succ_of_ne_zero (Nat.ne_of_gt pos)
  refine ⟨Nat.succ_le_succ (List.length_take_le _ _), ?_⟩
  rw [← List.append_assoc, ← ofBytes_append, List.drop_succ_cons, List.cons_append,
    List.take_append_drop]

instance : Observable Feed where
  feed feed := feed
  delivers_read := delivers_read

end Feed

/-- The item is a call that fails. -/
def isFailure : Item → Bool
  | .byte _ => false
  | .failure _ => true

namespace Source

/-- A segmented source delivers what stands in front of its segments. -/
lemma delivers_readSegments {n : Nat} (segments : List Segment) (pos : 0 < n) :
    Delivers n (segments.flatMap Segment.feed) (readSegments n segments).1
      ((readSegments n segments).2.flatMap Segment.feed) := by
  induction segments with
  | nil => exact ⟨rfl, rfl⟩
  | cons segment rest ih =>
    cases segment with
    | failure e => rfl
    | bytes bs =>
      cases bs with
      | nil => exact ih
      | cons b bs => exact Feed.delivers_take b bs (rest.flatMap Segment.feed) pos

/-- A call for no bytes at all meets the failures in front and nothing else. -/
lemma delivers_readSegments_zero {m : Nat} (segments : List Segment) :
    Delivers m ((segments.flatMap Segment.feed).takeWhile isFailure) (readSegments 0 segments).1
      (((readSegments 0 segments).2.flatMap Segment.feed).takeWhile isFailure) := by
  induction segments with
  | nil => exact ⟨rfl, rfl⟩
  | cons segment rest ih =>
    cases segment with
    | failure e => rfl
    | bytes bs =>
      cases bs with
      | nil => exact ih
      | cons b bs => exact ⟨rfl, rfl⟩

/-- What the source delivers; one whose limit is no byte at all never gets past the first byte. -/
def feed (s : Source) : Feed :=
  if s.limit = some 0 then s.contents.takeWhile isFailure else s.contents

/-- No call is given more than it asked for. -/
lemma capped_le (s : Source) (n : Nat) : s.capped n ≤ n := by
  rw [capped]
  cases s.limit with
  | none => exact Nat.le_refl _
  | some m => exact Nat.min_le_left _ _

/-- A source that gives anything gives a byte at least. -/
lemma capped_pos (s : Source) {n : Nat} (pos : 0 < n) (h : s.limit ≠ some 0) : 0 < s.capped n := by
  rw [capped]
  cases e : s.limit with
  | none => exact pos
  | some m =>
    have : m ≠ 0 := by
      rintro rfl
      exact h e
    show 0 < min n m
    omega

instance : Observable Source where
  feed := feed
  delivers_read {n} s pos := by
    show Delivers n s.feed (readSegments (s.capped n) s.segments).1
      (feed { s with segments := (readSegments (s.capped n) s.segments).2 })
    by_cases h : s.limit = some 0
    · have none_asked : s.capped n = 0 := by simp [capped, h]
      simp only [feed, h, if_true, contents, none_asked]
      exact delivers_readSegments_zero s.segments
    · simp only [feed, h, if_false, contents]
      exact Delivers.mono (s.capped_le n) (delivers_readSegments s.segments (s.capped_pos pos h))

end Source

namespace Buffered

variable {ρ : Type} [Reader ρ] [Observable ρ]

/-- What is held and what the reader below delivers. -/
def feed (r : Buffered ρ) : Feed := .ofBytes r.held ++ Observable.feed r.inner

/-- A buffered reader delivers what is held and then what its source delivers. -/
lemma delivers_read {n : Nat} (r : Buffered ρ) (pos : 0 < n) :
    Delivers n (feed r) (read n r).1 (feed (read n r).2) := by
  obtain ⟨inner, held⟩ := r
  cases held with
  | cons b bs => exact Feed.delivers_take b bs (Observable.feed inner) pos
  | nil =>
    unfold read
    -- A large call goes past the buffer, a small one fills it first.
    by_cases large : capacity ≤ n
    · rw [if_neg (not_not_intro rfl), if_pos large]
      exact Observable.delivers_read inner pos
    · rw [if_neg (not_not_intro rfl), if_neg large]
      have filled := Observable.delivers_read inner (show 0 < capacity by decide)
      obtain ⟨result, inner', call⟩ : ∃ result inner', Reader.read capacity inner = (result, inner') :=
        ⟨_, _, rfl⟩
      rw [call] at filled ⊢
      cases result with
      | error e => exact filled
      | ok given =>
        cases given with
        | nil =>
          dsimp only
          rw [List.take_nil, List.drop_nil]
          exact filled
        | cons b bs =>
          show Delivers n (Observable.feed inner) _ _
          rw [filled.2]
          exact Feed.delivers_take b bs (Observable.feed inner') pos

instance : Observable (Buffered ρ) where
  feed := feed
  delivers_read := delivers_read

end Buffered

/-- The item is a call that fails because it was interrupted. -/
def isInterruption : Item → Bool
  | .byte _ => false
  | .failure e => e.kind == .interrupted

/-- The feed without interruptions. -/
def Feed.calm (feed : Feed) : Feed := feed.filter fun i => !isInterruption i

/-- Bytes alone are calm. -/
@[simp] lemma Feed.calm_ofBytes (bs : Bytes) : (ofBytes bs).calm = ofBytes bs := by
  induction bs with
  | nil => rfl
  | cons b bs ih => exact congrArg (Item.byte b :: ·) ih

/-- A feed is calmed part by part. -/
lemma Feed.calm_append (feed feed' : Feed) : (feed ++ feed').calm = feed.calm ++ feed'.calm :=
  List.filter_append ..

variable {ρ : Type} [Reader ρ] [Observable ρ]

/-- What the reader still has to deliver to whoever reads again after an interruption. -/
def unread (r : ρ) : Feed := (Observable.feed r).calm

/-- Bytes that are all there is, in the form in which what stands in front of a stream is stated. -/
lemma unread_ofBytes (bs : Bytes) : unread (Feed.ofBytes bs) = Feed.ofBytes bs ++ [] :=
  (Feed.calm_ofBytes bs).trans (List.append_nil _).symm

/-- A call that gives nothing has found the end. -/
lemma unread_of_read_nil {n : Nat} {r r' : ρ} (pos : 0 < n)
    (call : Reader.read n r = (.ok [], r')) : unread r = [] ∧ unread r' = [] := by
  have taken := Observable.delivers_read r pos
  rw [call] at taken
  exact ⟨congrArg Feed.calm taken.1, congrArg Feed.calm taken.2⟩

/-- A call that gives bytes has taken them from the front. -/
lemma unread_of_read_cons {n : Nat} {r r' : ρ} {b : UInt8} {bs : Bytes} (pos : 0 < n)
    (call : Reader.read n r = (.ok (b :: bs), r')) :
    (b :: bs).length ≤ n ∧ unread r = .ofBytes (b :: bs) ++ unread r' := by
  have taken := Observable.delivers_read r pos
  rw [call] at taken
  refine ⟨taken.1, ?_⟩
  rw [unread, taken.2, Feed.calm_append, Feed.calm_ofBytes]
  rfl

/-- A call that fails has met a failure, which is gone unless it is an interruption. -/
lemma unread_of_read_error {n : Nat} {r r' : ρ} {e : Failure} (pos : 0 < n)
    (call : Reader.read n r = (.error e, r')) :
    unread r = if e.kind = .interrupted then unread r' else .failure e :: unread r' := by
  have taken : Observable.feed r = .failure e :: Observable.feed r' := by
    have taken := Observable.delivers_read r pos
    rwa [call] at taken
  rw [unread, taken]
  by_cases h : e.kind = .interrupted
  · rw [if_pos h]
    exact List.filter_cons_of_neg (by simp [isInterruption, h])
  · rw [if_neg h]
    exact List.filter_cons_of_pos (by simp [isInterruption, h])

end Columnar.ByteStream
