import Columnar.Proofs.Connection.Events

/-!
# No look-ahead

A request that does not find the end of the stream within a packet looks at nothing beyond its own
response: whatever comes after the bytes that it has used, be it more bytes, the end of the stream
or a failure, it returns the same, writes the same, leaves the same state, and leaves what comes
after. Main statement: `looks_no_further`.
-/

namespace Columnar

open ByteStream

/-- What a settled request has used is a beginning of the bytes of its stream. -/
lemma ByteStream.Replays.exists_take {ρ : Type} [Reader ρ] [Observable ρ] {s : Bytes} {after : Feed}
    {settled : Prop} {again : ρ → ρ → Prop} (h : Replays (.ofBytes s) after settled again)
    (sound : settled) :
    ∃ n, n ≤ s.length ∧ after = .ofBytes (s.drop n) ∧
      ∀ r rest, unread r = .ofBytes (s.take n) ++ rest → ∃ r', again r r' ∧ unread r' = rest := by
  obtain ⟨used, here, h⟩ := h
  obtain ⟨bs, bs', rfl, rfl, rfl⟩ := List.map_eq_append_iff.1 here
  refine ⟨bs.length, ?_, ?_, ?_⟩
  · rw [List.length_append]
    exact Nat.le_add_right _ _
  · rw [List.drop_left]
    rfl
  · intro r rest next
    rw [List.take_left] at next
    exact h next (.inr sound)

namespace Connection

variable {ρ σ : Type} [Reader ρ] [Observable ρ] [Reader σ] [Observable σ]

/-- A handshake and a call that end otherwise than with a truncation depend on the bytes that they
have used and on nothing that comes after these. -/
theorem looks_no_further (s : Bytes) :
    (∀ {options : Options} {t t' : Transport ρ} {result : Except ClientError (Connection ρ)},
      ByteStream.unread t.input = .ofBytes s →
      handshake options t = (result, t') →
      result ≠ .error (.handshake (.transport .truncated)) →
      ∃ n, n ≤ s.length ∧ ByteStream.unread t'.input = .ofBytes (s.drop n) ∧
        ∀ (input : Buffered σ) (rest : Feed),
          ByteStream.unread input = .ofBytes (s.take n) ++ rest →
          ∃ input', handshake options (t.over input) =
              (result.map fun c => c.over input', t'.over input') ∧
            ByteStream.unread input' = rest) ∧
    ∀ {c c' : Connection ρ} {k : Call} {ids ids' : QueryIds} {answer : Answer},
      c.state = .idle →
      c.unread = .ofBytes s →
      c.call k ids = (answer, c', ids') →
      answer.result ≠ .error (.transport .truncated) →
      ∃ n, n ≤ s.length ∧ c'.unread = .ofBytes (s.drop n) ∧
        ∀ (input : Buffered σ) (rest : Feed),
          ByteStream.unread input = .ofBytes (s.take n) ++ rest →
          ∃ input', (c.over input).call k ids = (answer, c'.over input', ids') ∧
            ByteStream.unread input' = rest := by
  constructor
  · intro options t t' result here opened settled
    have replays := handshake_replays (σ := σ) opened
    rw [here] at replays
    exact replays.exists_take settled
  · intro c c' k ids ids' answer idle here called settled
    have replays := call_replays (σ := σ) (.inl idle) called
    rw [here] at replays
    exact replays.exists_take settled

/-- A stream that delivers the bytes one by one and then fails. -/
def dripping (bs : Bytes) : Buffered Source where
  inner := { segments := [.bytes bs, .failure ⟨.timedOut, "timed out"⟩], limit := some 1 }

/-- A dripping stream holds its bytes and then a failure. -/
lemma unread_dripping (bs : Bytes) :
    ByteStream.unread (dripping bs) = Feed.ofBytes bs ++ [.failure ⟨.timedOut, "timed out"⟩] := by
  have delivered : ByteStream.unread (dripping bs) =
      Feed.calm (Feed.ofBytes bs ++ [.failure ⟨.timedOut, "timed out"⟩]) := rfl
  rw [delivered, Feed.calm_append, Feed.calm_ofBytes]
  rfl

/-- A stream that fails after the last byte of a response disturbs neither handshake nor call. -/
theorem looks_no_further_failing :
    (∃ c t input, handshake { queryIds := ⟨0⟩ } (.ofStream (Feed.ofBytes elder.encode) {}) =
        (.ok c, t) ∧
      handshake { queryIds := ⟨0⟩ }
          ((Transport.ofStream (Feed.ofBytes elder.encode) {}).over (dripping elder.encode)) =
        (.ok (c.over input), t.over input) ∧
      ByteStream.unread input = [.failure ⟨.timedOut, "timed out"⟩]) ∧
    ∃ answer c ids input, failing.call Turn.failingQuery.call {} = (answer, c, ids) ∧
      answer.result = .ok (some .serverException) ∧
      (failing.over (dripping (Turn.failingQuery.encode elder.agreed))).call
          Turn.failingQuery.call {} = (answer, c.over input, ids) ∧
      ByteStream.unread input = [.failure ⟨.timedOut, "timed out"⟩] := by
  have obliging : Sink.Obliging {} := ⟨nofun, nofun⟩
  -- What has been used is all there is, because nothing is left of it.
  have used_up {s : Bytes} {n : Nat} (left : Feed.ofBytes (s.drop n) = []) : s.take n = s :=
    List.take_of_length_le (List.drop_eq_nil_iff.1 (List.map_eq_nil_iff.1 left))
  constructor
  · have here : ByteStream.unread (Feed.ofBytes elder.encode) = Feed.ofBytes elder.encode :=
      Feed.calm_ofBytes _
    obtain ⟨t, opened, _, left⟩ := handshake_whole { queryIds := ⟨0⟩ } elder_fits obliging
      (here.trans (List.append_nil _).symm)
    obtain ⟨n, _, after, again⟩ := (looks_no_further (σ := Source) _).1 here opened nofun
    rw [used_up (after.symm.trans left)] at again
    obtain ⟨input, opened', left'⟩ := again _ _ (unread_dripping _)
    exact ⟨_, t, input, opened, opened', left'⟩
  · have here : failing.unread = Feed.ofBytes (Turn.failingQuery.encode elder.agreed) :=
      Feed.calm_ofBytes _
    have knows : failing.registry.KnowsBuiltin := Registry.knowsBuiltin_builtin
    obtain ⟨t, ids, called, _, left⟩ := call_of_phased rfl knows ⟨rfl, obliging⟩
      Turn.failingQuery.phased (here.trans (List.append_nil _).symm) {}
    obtain ⟨n, _, after, again⟩ := (looks_no_further (σ := Source) _).2 rfl here called nofun
    rw [used_up (after.symm.trans left)] at again
    obtain ⟨input, called', left'⟩ := again _ _ (unread_dripping _)
    exact ⟨_, _, ids, input, called, rfl, called', left'⟩

end Connection

end Columnar
