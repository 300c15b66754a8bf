import Columnar.Proofs.Connection.Exchange
import Columnar.Proofs.Connection.Handshake

/-!
# Sessions

A session is a greeting and then calls, each with a response. Whatever replies the responses are
made of, and at whatever revision, a call takes its own response, no more and no less, and whoever
makes it learns what the replies say (`call_of_phased`), so a whole session runs as it should
however the stream cuts it into pieces (`session_runs`).
-/

namespace Columnar

open ByteStream

namespace Connection

variable {ρ : Type}

/-- A connection that was idle is so again when it has drained its response. -/
lemma settle_busy {c : Connection ρ} (idle : c.state = .idle) (t : Transport ρ) :
    settle true { c.busy with transport := t } = { c with transport := t } := by
  show { c with transport := t, state := .idle } = _
  rw [← idle]

variable [Reader ρ] [Observable ρ]

section

variable {c : Connection ρ} (idle : c.state = .idle) (knows : c.registry.KnowsBuiltin)
  (obliging : c.transport.Obliging)
include idle knows obliging

/-- A query over its whole response returns what is expected of it. -/
lemma execute_whole {query : Query} {before : List Reply} {last : Reply}
    (midway : ∀ q ∈ before, Phase.result.Takes false q) (closing : Phase.result.Takes true last)
    {rest : Feed} (here : c.unread =
      .ofBytes ((before ++ [last]).flatMap (Reply.encode c.revision)) ++ rest) (ids : QueryIds) :
    ∃ t, c.call (.execute query) ids =
        ((Call.execute query).expected c.options c.revision (before ++ [last]),
          { c with transport := t }, c.idsAfter ids) ∧
      t.Obliging ∧ ByteStream.unread t.input = rest := by
  obtain ⟨t, exchanged, left, sent⟩ := exchange_whole (c := c.busy) knows obliging
    (c.opening ids query.text) .result midway closing here
  refine ⟨t, ?_, sent.obliging, left⟩
  have run := call_execute (execute_of_exchange idle exchanged)
  rw [Event.ofResponse_packets, outcome_packet _ _ before] at run
  rw [run]
  show (_, settle true { c.busy with transport := t }, _) = _
  rw [settle_busy idle t]
  rfl

/-- An insert that is refused returns what is expected of it. -/
lemma refused_whole {table : String} {block : Block} {waiting : List Reply} {e : ServerException}
    (midway : ∀ q ∈ waiting, Phase.readiness.Takes false q)
    (closing : Phase.readiness.Takes true (.exception e)) {rest : Feed} (here : c.unread =
      .ofBytes ((waiting ++ [Reply.exception e]).flatMap (Reply.encode c.revision)) ++ rest)
    (ids : QueryIds) :
    ∃ t, c.call (.insert table block) ids =
        ((Call.insert table block).expected c.options c.revision (waiting ++ [.exception e]),
          { c with transport := t }, c.idsAfter ids) ∧
      t.Obliging ∧ ByteStream.unread t.input = rest := by
  obtain ⟨t, exchanged, left, sent⟩ := exchange_whole (c := c.busy) knows obliging
    (c.opening ids (insertQuery table)) .readiness midway closing here
  refine ⟨t, ?_, sent.obliging, left⟩
  rw [call_insert (insert_of_exception idle exchanged), settle_busy idle t, Call.expected,
    conclusion, List.getLast?_concat]
  rfl

/-- An insert that is taken returns what is expected of it. -/
lemma taken_whole {table : String} {block : Block} {waiting before : List Reply}
    {schema last : Reply} (midway : ∀ q ∈ waiting, Phase.readiness.Takes false q)
    (ready : Phase.readiness.Takes true schema) (described : schema.kind = .data)
    (later : ∀ q ∈ before, Phase.result.Takes false q) (closing : Phase.result.Takes true last)
    {rest : Feed} (here : c.unread = .ofBytes ((waiting ++ [schema] ++ (before ++ [last])).flatMap
      (Reply.encode c.revision)) ++ rest) (ids : QueryIds) :
    ∃ t, c.call (.insert table block) ids =
        ((Call.insert table block).expected c.options c.revision
          (waiting ++ [schema] ++ (before ++ [last])), { c with transport := t }, c.idsAfter ids) ∧
      t.Obliging ∧ ByteStream.unread t.input = rest := by
  rw [List.flatMap_append, Feed.ofBytes_append, List.append_assoc] at here
  obtain ⟨t₁, exchanged, left, sent⟩ := exchange_whole (c := c.busy) knows obliging
    (c.opening ids (insertQuery table)) .readiness midway ready here
  -- The second exchange begins where the first one has left the stream.
  obtain ⟨t, answered, left, sent⟩ := exchange_whole (c := { c.busy with transport := t₁ }) knows
    sent.obliging (Request.insertRows block) .result later closing left
  refine ⟨t, ?_, sent.obliging, left⟩
  have noException := Reply.packet_ne_exception described c.revision
  have run := call_insert (insert_of_ready idle noException exchanged answered)
  rw [outcome_packet _ _ (waiting ++ [schema] ++ before), List.append_assoc] at run
  rw [run]
  show (_, settle true { c.busy with transport := t }, _) = _
  rw [settle_busy idle t, map_map_none]
  rfl

/-- A ping over its whole response returns what is expected of it. -/
lemma ping_whole {before : List Reply} {last : Reply}
    (midway : ∀ q ∈ before, Phase.pong.Takes false q) (closing : Phase.pong.Takes true last)
    {rest : Feed} (here : c.unread =
      .ofBytes ((before ++ [last]).flatMap (Reply.encode c.revision)) ++ rest) (ids : QueryIds) :
    ∃ t, c.call .ping ids =
        (Call.ping.expected c.options c.revision (before ++ [last]),
          { c with transport := t }, ids) ∧
      t.Obliging ∧ ByteStream.unread t.input = rest := by
  obtain ⟨t, exchanged, left, sent⟩ := exchange_whole (c := c.busy) knows obliging [.ping] .pong
    midway closing here
  refine ⟨t, ?_, sent.obliging, left⟩
  have run := call_ping (ping_of_exchange idle exchanged) ids
  rw [outcome_packet _ _ before] at run
  rw [run]
  show (_, settle true { c.busy with transport := t }, _) = _
  rw [settle_busy idle t, map_map_none]
  rfl

/-- A call takes its own response and leaves what follows it. -/
lemma call_of_phased {k : Call} {replies : List Reply} (phased : Phased k replies) {rest : Feed}
    (here : c.unread = .ofBytes (replies.flatMap (Reply.encode c.revision)) ++ rest)
    (ids : QueryIds) :
    ∃ t ids', c.call k ids =
        (k.expected c.options c.revision replies, { c with transport := t }, ids') ∧
      t.Obliging ∧ ByteStream.unread t.input = rest := by
  cases phased with
  | execute midway closing =>
    obtain ⟨t, called, kept⟩ := execute_whole idle knows obliging midway closing here ids
    exact ⟨t, _, called, kept⟩
  | refused midway closing =>
    obtain ⟨t, called, kept⟩ := refused_whole idle knows obliging midway closing here ids
    exact ⟨t, _, called, kept⟩
  | taken midway ready described later closing =>
    obtain ⟨t, called, kept⟩ :=
      taken_whole idle knows obliging midway ready described later closing here ids
    exact ⟨t, _, called, kept⟩
  | ping midway closing =>
    obtain ⟨t, called, kept⟩ := ping_whole idle knows obliging midway closing here ids
    exact ⟨t, _, called, kept⟩

end

/-- The calls of a session take their own responses, one after the other. -/
lemma calls_of_turns {turns : List Turn} {c : Connection ρ} (idle : c.state = .idle)
    (knows : c.registry.KnowsBuiltin) (obliging : c.transport.Obliging) {rest : Feed}
    (here : c.unread = .ofBytes (turns.flatMap (Turn.encode c.revision)) ++ rest) (ids : QueryIds) :
    ∃ t ids', c.calls (turns.map Turn.call) ids =
        (turns.map (Turn.expected c.options c.revision), { c with transport := t }, ids') ∧
      ByteStream.unread t.input = rest := by
  -- Each call leaves an idle connection in front of the responses that are still to come.
  induction turns generalizing c ids with
  | nil => exact ⟨c.transport, ids, rfl, here⟩
  | cons x turns ih =>
    rw [List.flatMap_cons, Feed.ofBytes_append, List.append_assoc] at here
    obtain ⟨t, ids₁, first, obliges, left⟩ := call_of_phased idle knows obliging x.phased here ids
    obtain ⟨t', ids₂, others, left⟩ :=
      ih (c := { c with transport := t }) idle knows obliges left ids₁
    exact ⟨t', ids₂, calls_cons first others, left⟩

/-- Whatever revision the server has, the connection is opened and every call of the session takes
its own response. -/
theorem session_runs (options : Options) {g : Greeting} (fits : g.Fits) (turns : List Turn)
    {stream : ρ} {sink : Sink} (obliging : sink.Obliging) {rest : Feed} (ids : QueryIds)
    (here : ByteStream.unread stream =
      .ofBytes (g.encode ++ turns.flatMap (Turn.encode g.agreed)) ++ rest) :
    ∃ c t, handshake options (.ofStream stream sink) = (.ok c, t) ∧
      c.state = .idle ∧ c.server = g.info ∧ c.revision = g.agreed ∧
      ∀ done todo, turns = done ++ todo → ∃ c' ids',
        c.calls (done.map Turn.call) ids = (done.map (Turn.expected options g.agreed), c', ids') ∧
        c'.state = .idle ∧
        c'.unread = .ofBytes (todo.flatMap (Turn.encode g.agreed)) ++ rest := by
  rw [Feed.ofBytes_append, List.append_assoc] at here
  obtain ⟨t, opened, obliges, left⟩ := handshake_whole options fits obliging here
  refine ⟨_, t, opened, rfl, rfl, rfl, ?_⟩
  rintro done todo rfl
  rw [List.flatMap_append, Feed.ofBytes_append, List.append_assoc] at left
  obtain ⟨t', ids', called, left⟩ := calls_of_turns
    (c := ⟨t, options, .builtin, g.info, g.agreed, .idle⟩) rfl
    Registry.knowsBuiltin_builtin obliges left ids
  exact ⟨_, ids', called, rfl, left⟩

/-- What the server sends in a session of the two. -/
def elderStream : Feed :=
  .ofBytes (elder.encode ++ [.failingQuery, .takenInsert].flatMap (Turn.encode elder.agreed))

/-- Over the elder server a query fails and an insert succeeds. -/
theorem session_runs_elder :
    (elder.Fits ∧ Sink.Obliging {} ∧ ByteStream.unread elderStream = elderStream ++ []) ∧
    ∃ c t c' ids', handshake { queryIds := ⟨0⟩ } (.ofStream elderStream {}) = (.ok c, t) ∧
      c.calls [Turn.failingQuery.call, Turn.takenInsert.call] {} =
        ([Turn.failingQuery.expected { queryIds := ⟨0⟩ } ⟨51902⟩, { result := .ok none }],
          c', ids') ∧
      c'.state = .idle ∧ c'.unread = [] := by
  have obliging : Sink.Obliging {} := ⟨nofun, nofun⟩
  have here : ByteStream.unread elderStream = elderStream ++ [] :=
    (Feed.calm_ofBytes _).trans (List.append_nil _).symm
  refine ⟨⟨elder_fits, obliging, here⟩, ?_⟩
  obtain ⟨c, t, opened, _, _, _, run⟩ := session_runs { queryIds := ⟨0⟩ } elder_fits
    [.failingQuery, .takenInsert] obliging {} here
  obtain ⟨c', ids', called, idle, left⟩ := run _ [] (List.append_nil _).symm
  exact ⟨c, t, c', ids', opened, called, idle, left⟩

end Connection

end Columnar
