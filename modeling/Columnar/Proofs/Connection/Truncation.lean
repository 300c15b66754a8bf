import Columnar.Proofs.Connection.Exchange
import Columnar.Proofs.Connection.Handshake

/-!
# Responses that are cut short

Where the stream ends within the response to a call, at whatever byte, the call fails with a
truncation and the connection is closed. Whoever made the call has learnt of the replies that had
come whole (`Reply.contained`), never that the response was at its end; and no row of an insert is
sent before the table has been described. Main statement: `truncation_fails`.
-/

namespace Columnar

open ByteStream

/-- The replies that lie within the first `n` bytes. -/
def Reply.contained (r : Revision) : (n : Nat) → List Reply → List Reply
  | _, [] => []
  | n, q :: qs =>
    if (q.encode r).length ≤ n then q :: contained r (n - (q.encode r).length) qs else []

namespace Reply

variable {r : Revision}

/-- As many bytes as some replies take, and more, contain these replies and what the rest contains. -/
lemma contained_append (n : Nat) (done later : List Reply) :
    contained r ((done.flatMap (encode r)).length + n) (done ++ later) =
      done ++ contained r n later := by
  induction done with
  | nil =>
    show contained r (0 + n) later = _
    rw [Nat.zero_add]
    rfl
  | cons q done ih =>
    have parts : ((q :: done).flatMap (encode r)).length + n =
        (q.encode r).length + ((done.flatMap (encode r)).length + n) := by
      rw [List.flatMap_cons, List.length_append, Nat.add_assoc]
    rw [parts, List.cons_append, contained, if_pos (Nat.le_add_right _ _),
      Nat.add_sub_cancel_left, ih]
    rfl

/-- Where the cut falls within a reply, the replies before it have come whole and no others. -/
lemma contained_cut {p : Bytes} {x : Reply} (cut : CutShort p (x.encode r))
    (done later : List Reply) :
    contained r (done.flatMap (encode r) ++ p).length (done ++ x :: later) = done := by
  rw [List.length_append, contained_append, contained, if_neg (Nat.not_le_of_lt cut.length_lt),
    List.append_nil]

end Reply

namespace Connection

variable {ρ : Type} [Reader ρ] [Observable ρ]

/-- Where the stream ends within what a phase is to take, the exchange fails, and of the replies
those before the last one can have been taken. -/
lemma exchange_cut {c : Connection ρ} (knows : c.registry.KnowsBuiltin)
    (obliging : c.transport.Obliging) (packets : List Request) (phase : Phase) {before : List Reply}
    {last : Reply} (midway : ∀ q ∈ before, phase.Takes false q) (closing : phase.Takes true last)
    {p : Bytes} (cut : CutShort p ((before ++ [last]).flatMap (Reply.encode c.revision)))
    (here : c.unread = .ofBytes p) :
    ∃ done t, done <+: before ∧ Reply.contained c.revision p.length (before ++ [last]) = done ∧
      c.exchange packets phase =
        ((done.map (Reply.packet c.revision), .error (.transport .truncated)),
          { c with transport := t }) ∧
      Sent c.transport (Request.encodeAll c.revision packets) t := by
  rw [List.flatMap_append, List.flatMap_singleton] at cut
  rcases cut.flatMap with ⟨done, x, rest, q, rfl, rfl, within⟩ | ⟨q, rfl, within⟩
  · have taken := midway x (List.mem_append_right done List.mem_cons_self)
    obtain ⟨t, exchanged, sent⟩ := exchange_short knows obliging packets phase
      (fun q mem => midway q (List.mem_append_left _ mem)) taken within here
    refine ⟨done, t, List.prefix_append done _, ?_, exchanged, sent⟩
    rw [List.append_assoc, List.cons_append]
    exact Reply.contained_cut within done _
  · obtain ⟨t, exchanged, sent⟩ := exchange_short knows obliging packets phase midway closing within
      here
    have came := Reply.contained_cut within before []
    exact ⟨before, t, List.prefix_refl before, came, exchanged, sent⟩

section

variable {c : Connection ρ} (idle : c.state = .idle) (knows : c.registry.KnowsBuiltin)
  (obliging : c.transport.Obliging)
include idle knows obliging

/-- A query whose response is cut reports the events before the cut and fails. -/
lemma execute_cut {query : Query} {before : List Reply} {last : Reply}
    (midway : ∀ q ∈ before, Phase.result.Takes false q) (closing : Phase.result.Takes true last)
    {p : Bytes} (cut : CutShort p ((before ++ [last]).flatMap (Reply.encode c.revision)))
    (here : c.unread = .ofBytes p) (ids : QueryIds) :
    ∃ done t, done <+: before ∧ Reply.contained c.revision p.length (before ++ [last]) = done ∧
      c.call (.execute query) ids =
        ({ events := done.filterMap (Reply.event? c.revision)
           result := .error (.transport .truncated) },
          { c with transport := t, state := .disconnected }, c.idsAfter ids) := by
  obtain ⟨done, t, some_of, whole, exchanged, _⟩ := exchange_cut (c := c.busy) knows obliging
    (c.opening ids query.text) .result midway closing cut here
  refine ⟨done, t, some_of, whole, ?_⟩
  rw [call_execute (execute_of_exchange idle exchanged), Event.ofResponse_error]
  rfl

/-- Where the stream ends before the table has been described, the rows are not sent. -/
lemma waiting_cut {table : String} {block : Block} {waiting : List Reply} {schema : Reply}
    (midway : ∀ q ∈ waiting, Phase.readiness.Takes false q)
    (closing : Phase.readiness.Takes true schema) {p : Bytes}
    (cut : CutShort p ((waiting ++ [schema]).flatMap (Reply.encode c.revision)))
    (here : c.unread = .ofBytes p) (ids : QueryIds) :
    ∃ t, c.call (.insert table block) ids =
        ({ result := .error (.transport .truncated) },
          { c with transport := t, state := .disconnected }, c.idsAfter ids) ∧
      Sent c.transport (Request.encodeAll c.revision (c.opening ids (insertQuery table))) t := by
  obtain ⟨done, t, _, _, exchanged, sent⟩ := exchange_cut (c := c.busy) knows obliging
    (c.opening ids (insertQuery table)) .readiness midway closing cut here
  refine ⟨t, ?_, sent⟩
  rw [call_insert (insert_of_error idle exchanged)]
  rfl

/-- An insert whose response is cut after the description fails when it has sent its rows. -/
lemma rows_cut {table : String} {block : Block} {waiting before : List Reply} {schema last : Reply}
    (midway : ∀ q ∈ waiting, Phase.readiness.Takes false q)
    (ready : Phase.readiness.Takes true schema) (described : schema.kind = .data)
    (later : ∀ q ∈ before, Phase.result.Takes false q) (closing : Phase.result.Takes true last)
    {p : Bytes} (cut : CutShort p ((before ++ [last]).flatMap (Reply.encode c.revision)))
    (here : c.unread =
      .ofBytes ((waiting ++ [schema]).flatMap (Reply.encode c.revision) ++ p)) (ids : QueryIds) :
    ∃ t, c.call (.insert table block) ids =
      ({ result := .error (.transport .truncated) },
        { c with transport := t, state := .disconnected }, c.idsAfter ids) := by
  rw [Feed.ofBytes_append] at here
  obtain ⟨t₁, exchanged, left, sent⟩ := exchange_whole (c := c.busy) knows obliging
    (c.opening ids (insertQuery table)) .readiness midway ready here
  obtain ⟨done, t, _, _, answered, _⟩ := exchange_cut (c := { c.busy with transport := t₁ }) knows
    sent.obliging (Request.insertRows block) .result later closing cut left
  refine ⟨t, ?_⟩
  have noException := Reply.packet_ne_exception described c.revision
  rw [call_insert (insert_of_ready idle noException exchanged answered)]
  rfl

/-- A ping whose response is cut fails. -/
lemma ping_cut {before : List Reply} {last : Reply}
    (midway : ∀ q ∈ before, Phase.pong.Takes false q) (closing : Phase.pong.Takes true last)
    {p : Bytes} (cut : CutShort p ((before ++ [last]).flatMap (Reply.encode c.revision)))
    (here : c.unread = .ofBytes p) (ids : QueryIds) :
    ∃ t, c.call .ping ids =
      ({ result := .error (.transport .truncated) },
        { c with transport := t, state := .disconnected }, ids) := by
  obtain ⟨done, t, _, _, exchanged, _⟩ := exchange_cut (c := c.busy) knows obliging [.ping] .pong
    midway closing cut here
  refine ⟨t, ?_⟩
  rw [call_ping (ping_of_exchange idle exchanged)]
  rfl

end

/-- Where the stream ends within the response to a call, the call fails and the connection is
closed; what had come whole has been learnt, and no rows are sent before the table is described. -/
theorem truncation_fails {c : Connection ρ} (idle : c.state = .idle)
    (knows : c.registry.KnowsBuiltin) (obliging : c.transport.Obliging) (x : Turn)
    {p : Bytes} (cut : CutShort p (x.encode c.revision)) (here : c.unread = .ofBytes p)
    (ids : QueryIds) :
    ∃ answer c' ids', c.call x.call ids = (answer, c', ids') ∧
      answer.result = .error (.transport .truncated) ∧ c'.state = .disconnected ∧
      (∀ query, x.call = .execute query →
        answer.events = (Reply.contained c.revision p.length x.replies).filterMap
          (Reply.event? c.revision) ∧
        .finish ∉ answer.events ∧ ∀ e, .exception e ∉ answer.events) ∧
      (∀ table block, x.call = .insert table block →
        (∀ q ∈ Reply.contained c.revision p.length x.replies, q.kind ≠ .data) →
        c'.transport.sink.accepted = c.transport.sink.accepted ++ (c.transport.staged ++
          Request.encodeAll c.revision (c.opening ids (insertQuery table)))) := by
  obtain ⟨k, replies, legal, fits⟩ := x
  dsimp only [Turn.encode] at cut ⊢
  cases legal.phased fits with
  | @execute query before last midway closing =>
    obtain ⟨done, t, some_of, whole, called⟩ :=
      execute_cut idle knows obliging midway closing cut here ids
    rw [whole]
    -- Of the replies that have come whole none ends the response.
    have not_closing {e : Event} (mem : e ∈ done.filterMap (Reply.event? c.revision)) :
        e ≠ .finish ∧ ∀ x, e ≠ .exception x := by
      obtain ⟨q, came, learnt⟩ := List.mem_filterMap.1 mem
      exact (midway q (some_of.subset came)).not_closing learnt
    refine ⟨_, _, _, called, rfl, rfl, fun _ _ => ⟨rfl, ?_, ?_⟩, nofun⟩
    · exact fun mem => (not_closing mem).1 rfl
    · exact fun e mem => (not_closing mem).2 e rfl
  | @refused table block waiting e midway closing =>
    obtain ⟨t, called, sent⟩ := waiting_cut idle knows obliging midway closing cut here ids
    refine ⟨_, _, _, called, rfl, rfl, nofun, ?_⟩
    rintro _ _ ⟨⟩ _
    exact sent.accepted
  | @taken table block waiting schema before last midway ready described later closing =>
    rw [List.flatMap_append] at cut
    rcases cut.append with within | ⟨q, rfl, beyond⟩
    · obtain ⟨t, called, sent⟩ := waiting_cut idle knows obliging midway ready within here ids
      refine ⟨_, _, _, called, rfl, rfl, nofun, ?_⟩
      rintro _ _ ⟨⟩ _
      exact sent.accepted
    · obtain ⟨t, called⟩ :=
        rows_cut idle knows obliging midway ready described later closing beyond here ids
      refine ⟨_, _, _, called, rfl, rfl, nofun, ?_⟩
      -- The description has come whole, so nothing is claimed of what was written.
      intro _ _ _ undescribed
      rw [List.length_append, Reply.contained_append] at undescribed
      have mem : schema ∈ waiting ++ [schema] := List.mem_append_right waiting List.mem_cons_self
      exact absurd described (undescribed schema (List.mem_append_left _ mem))
  | ping midway closing =>
    obtain ⟨t, called⟩ := ping_cut idle knows obliging midway closing cut here ids
    exact ⟨_, _, _, called, rfl, rfl, nofun, nofun⟩

/-- A connection on which the progress before a table's description is the last that comes. -/
def abandoned : Connection Feed where
  transport := .ofStream (.ofBytes (Reply.encode elder.agreed (.progress 0 0 0))) {}
  options := { queryIds := ⟨0⟩ }
  registry := .builtin
  server := elder.info
  revision := elder.agreed
  state := .idle

/-- An insert that is abandoned has sent its query and no row. -/
theorem truncation_fails_abandoned :
    ∃ answer c' ids', abandoned.call (.insert "twins" .twins) {} = (answer, c', ids') ∧
      answer.result = .error (.transport .truncated) ∧ c'.state = .disconnected ∧
      c'.transport.sink.accepted =
        Request.encodeAll elder.agreed (abandoned.opening {} (insertQuery "twins")) := by
  have knows : abandoned.registry.KnowsBuiltin := Registry.knowsBuiltin_builtin
  have obliging : abandoned.transport.Obliging := ⟨rfl, nofun, nofun⟩
  have described : Reply.encode elder.agreed (.data "" .twins) ≠ [] :=
    List.append_ne_nil_of_left_ne_nil (Wire.Varint.encodeNat_ne_nil _) _
  have cut : CutShort (Reply.encode elder.agreed (.progress 0 0 0))
      (Turn.takenInsert.encode elder.agreed) := by
    refine ⟨⟨_, rfl⟩, fun whole => ?_⟩
    obtain ⟨missing, _⟩ := List.append_eq_nil_iff.1 (List.self_eq_append_right.1 whole)
    exact described missing
  have came : Reply.contained elder.agreed (Reply.encode elder.agreed (.progress 0 0 0)).length
      Turn.takenInsert.replies = [.progress 0 0 0] := by
    have within : CutShort [] (Reply.encode elder.agreed (.data "" .twins)) :=
      ⟨List.nil_prefix, described.symm⟩
    have came := Reply.contained_cut within [.progress 0 0 0] [.endOfStream]
    rwa [List.flatMap_singleton, List.append_nil] at came
  obtain ⟨answer, c', ids', called, failed, closed, _, sent⟩ :=
    truncation_fails rfl knows obliging .takenInsert cut (Feed.calm_ofBytes _) {}
  refine ⟨answer, c', ids', called, failed, closed, sent "twins" .twins rfl ?_⟩
  intro q mem
  rw [show abandoned.revision = elder.agreed from rfl, came, List.mem_singleton] at mem
  rw [mem]
  exact nofun

end Connection

end Columnar
