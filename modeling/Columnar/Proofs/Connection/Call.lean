import Columnar.Connection
import Mathlib.Tactic.Lemma

/-!
# Calls on a connection

`Call` is what can be asked of an idle connection, and `Connection.call` makes one call and says
what whoever made it learns: the events on the way, if it wants them, and the result. `Reached` are
the connections that a handshake and any calls after it lead to, whatever the stream does.
-/

namespace Columnar

open ByteStream

/-- What can be asked of a connection. -/
inductive Call where
  | execute (query : Query)
  | insert (table : String) (block : Block)
  | ping

/-- What is learnt from a call; only a query has an outcome and reports events. -/
structure Answer where
  events : List Event := []
  result : Except ClientError (Option Outcome)

namespace Connection

variable {ρ : Type}

/-- Only an idle connection can begin an exchange. -/
lemma start_of_idle {c : Connection ρ} (idle : c.state = .idle) :
    c.start = .ok { c with state := .inFlight } := by
  rw [start, idle]

/-- A disconnected connection refuses to begin an exchange and says that it is disconnected. -/
lemma start_of_disconnected {c : Connection ρ} (h : c.state = .disconnected) :
    c.start = .error .disconnected := by
  rw [start, h]

/-- A connection that is not idle refuses to begin one. -/
lemma start_of_other {c : Connection ρ} (other : c.state ≠ .idle) :
    ∃ e, c.start = .error e ∧ (e = .busy ∨ e = .disconnected) := by
  unfold start
  cases state : c.state with
  | idle => exact absurd state other
  | inFlight => exact ⟨.busy, rfl, .inl rfl⟩
  | disconnected => exact ⟨.disconnected, rfl, .inr rfl⟩
  | handshaking => exact ⟨.disconnected, rfl, .inr rfl⟩

/-- The connection during an exchange. -/
def busy (c : Connection ρ) : Connection ρ := { c with state := .inFlight }

/-- The packets that start a query under the next id. -/
def opening (c : Connection ρ) (ids : QueryIds) (text : String) : List Request :=
  Request.startQuery c.options (ids.draw c.options.queryIds).1 text

/-- The ids after one has been drawn for a query. -/
def idsAfter (c : Connection ρ) (ids : QueryIds) : QueryIds := (ids.draw c.options.queryIds).2

/-- A query is opened under the id that is drawn for it. -/
lemma draw_eq (c : Connection ρ) (ids : QueryIds) :
    ∃ id, ids.draw c.options.queryIds = (id, c.idsAfter ids) ∧
      ∀ text, c.opening ids text = Request.startQuery c.options id text :=
  ⟨(ids.draw c.options.queryIds).1, rfl, fun _ => rfl⟩

variable [Reader ρ]

/-- Makes a call. -/
def call (k : Call) (c : Connection ρ) (ids : QueryIds) : Answer × Connection ρ × QueryIds :=
  match k with
  | .execute query =>
    match c.execute query ids with
    | ((events, result), c, ids) => ({ events, result := result.map some }, c, ids)
  | .insert table block =>
    match c.insert table block ids with
    | (result, c, ids) => ({ result := result.map fun _ => none }, c, ids)
  | .ping =>
    match c.ping with
    | (result, c) => ({ result := result.map fun _ => none }, c, ids)

/-- Makes calls one after the other. -/
def calls : List Call → Connection ρ → QueryIds → List Answer × Connection ρ × QueryIds
  | [], c, ids => ([], c, ids)
  | k :: ks, c, ids =>
    match c.call k ids with
    | (answer, c, ids) =>
      match calls ks c ids with
      | (answers, c, ids) => (answer :: answers, c, ids)

/-- The connection has been opened; calls may have been made on it since, and its registry changed. -/
inductive Reached : Connection ρ → Prop where
  | opened {options : Options} {t t' : Transport ρ} {c : Connection ρ} :
    handshake options t = (.ok c, t') →
    Reached c
  | called {k : Call} {c c' : Connection ρ} {ids ids' : QueryIds} {answer : Answer} :
    Reached c →
    c.call k ids = (answer, c', ids') →
    Reached c'
  | registered {c : Connection ρ} (registry : Registry) :
    Reached c →
    Reached (c.withRegistry registry)

/-- A call and then the others, made one after the other. -/
lemma calls_cons {k : Call} {ks : List Call} {c c' c'' : Connection ρ} {ids ids' ids'' : QueryIds}
    {answer : Answer} {answers : List Answer} (first : c.call k ids = (answer, c', ids'))
    (rest : c'.calls ks ids' = (answers, c'', ids'')) :
    c.calls (k :: ks) ids = (answer :: answers, c'', ids'') := by
  simp only [calls, first, rest]

/-- The call of a query does what the query does. -/
lemma call_execute {query : Query} {c c' : Connection ρ} {ids ids' : QueryIds} {events : List Event}
    {result : Except ClientError Outcome} (h : c.execute query ids = ((events, result), c', ids')) :
    c.call (.execute query) ids = ({ events, result := result.map some }, c', ids') := by
  simp only [call, h]

/-- The call of an insert does what the insert does, and reports no event. -/
lemma call_insert {table : String} {block : Block} {c c' : Connection ρ} {ids ids' : QueryIds}
    {result : Except ClientError Unit} (h : c.insert table block ids = (result, c', ids')) :
    c.call (.insert table block) ids = ({ result := result.map fun _ => none }, c', ids') := by
  simp only [call, h]

/-- The call of a ping does what the ping does, and draws no id. -/
lemma call_ping {c c' : Connection ρ} {result : Except ClientError Unit} (h : c.ping = (result, c'))
    (ids : QueryIds) : c.call .ping ids = ({ result := result.map fun _ => none }, c', ids) := by
  simp only [call, h]

/-- A connection on which no exchange can begin answers every call so and stays as it is. -/
lemma call_of_error {c : Connection ρ} {e : ClientError} (refused : c.start = .error e) (k : Call)
    (ids : QueryIds) : c.call k ids = ({ result := .error e }, c, ids) := by
  cases k with
  | execute query => simp only [call, execute, refused, Except.map]
  | insert table block => simp only [call, insert, refused, Except.map]
  | ping => simp only [call, ping, refused, Except.map]

variable {c c' c'' : Connection ρ} {ids : QueryIds} {before before' : List Packet}
  {last last' : Except ClientError Packet}

/-- A query on an idle connection is one exchange, whose packets become its events and its outcome. -/
lemma execute_of_exchange {query : Query} (idle : c.state = .idle)
    (h : c.busy.exchange (c.opening ids query.text) .result = ((before, last), c')) :
    c.execute query ids =
      ((Event.ofResponse before last, outcome (query.rethrow.getD c'.options.rethrow) last),
        c'.settle last.isOk, c.idsAfter ids) := by
  obtain ⟨id, drawn, opens⟩ := c.draw_eq ids
  rw [opens, busy] at h
  simp only [execute, start_of_idle idle, drawn, h]

/-- An insert ends with its first exchange when that fails. -/
lemma insert_of_error {table : String} {block : Block} {e : ClientError} (idle : c.state = .idle)
    (h : c.busy.exchange (c.opening ids (insertQuery table)) .readiness =
      ((before, .error e), c')) :
    c.insert table block ids = (.error e, c'.settle false, c.idsAfter ids) := by
  obtain ⟨id, drawn, opens⟩ := c.draw_eq ids
  rw [opens, busy] at h
  simp only [insert, start_of_idle idle, drawn, h]

/-- An insert ends with its first exchange when the server refuses it by an exception. -/
lemma insert_of_exception {table : String} {block : Block} {e : ServerException}
    (idle : c.state = .idle)
    (h : c.busy.exchange (c.opening ids (insertQuery table)) .readiness =
      ((before, .ok (.exception e)), c')) :
    c.insert table block ids = (.error (.server e), c'.settle true, c.idsAfter ids) := by
  obtain ⟨id, drawn, opens⟩ := c.draw_eq ids
  rw [opens, busy] at h
  simp only [insert, start_of_idle idle, drawn, h]

/-- An insert whose table has been described sends its rows in a second exchange. -/
lemma insert_of_ready {table : String} {block : Block} {p : Packet} (idle : c.state = .idle)
    (ready : ∀ e, p ≠ .exception e)
    (h : c.busy.exchange (c.opening ids (insertQuery table)) .readiness = ((before, .ok p), c'))
    (h' : c'.exchange (Request.insertRows block) .result = ((before', last), c'')) :
    c.insert table block ids =
      ((outcome true last).map fun _ => (), c''.settle last.isOk, c.idsAfter ids) := by
  obtain ⟨id, drawn, opens⟩ := c.draw_eq ids
  rw [opens, busy] at h
  cases p with
  | exception e => exact absurd rfl (ready e)
  | _ => simp only [insert, start_of_idle idle, drawn, h, h']

/-- A ping on an idle connection is one exchange. -/
lemma ping_of_exchange (idle : c.state = .idle)
    (h : c.busy.exchange [.ping] .pong = ((before, last), c')) :
    c.ping = ((outcome true last).map fun _ => (), c'.settle last.isOk) := by
  simp only [busy] at h
  simp only [ping, start_of_idle idle, h]

/-- What a call on an idle connection does, exchange by exchange. -/
inductive Performed (c : Connection ρ) (ids : QueryIds) :
    Call → Answer → Connection ρ → QueryIds → Prop where
  | executed {query : Query} {before : List Packet} {last : Except ClientError Packet}
      {c' : Connection ρ} :
    c.busy.exchange (c.opening ids query.text) .result = ((before, last), c') →
    Performed c ids (.execute query)
      { events := Event.ofResponse before last
        result := (outcome (query.rethrow.getD c'.options.rethrow) last).map some }
      (c'.settle last.isOk) (c.idsAfter ids)
  /-- An insert whose table has not been described. -/
  | undescribed {table : String} {block : Block} {before : List Packet} {e : ClientError}
      {c' : Connection ρ} :
    c.busy.exchange (c.opening ids (insertQuery table)) .readiness = ((before, .error e), c') →
    Performed c ids (.insert table block) { result := .error e } (c'.settle false) (c.idsAfter ids)
  | refused {table : String} {block : Block} {before : List Packet} {e : ServerException}
      {c' : Connection ρ} :
    c.busy.exchange (c.opening ids (insertQuery table)) .readiness =
      ((before, .ok (.exception e)), c') →
    Performed c ids (.insert table block) { result := .error (.server e) } (c'.settle true)
      (c.idsAfter ids)
  | inserted {table : String} {block : Block} {before before' : List Packet} {p : Packet}
      {last : Except ClientError Packet} {c' c'' : Connection ρ} :
    c.busy.exchange (c.opening ids (insertQuery table)) .readiness = ((before, .ok p), c') →
    (∀ e, p ≠ .exception e) →
    c'.exchange (Request.insertRows block) .result = ((before', last), c'') →
    Performed c ids (.insert table block) { result := (outcome true last).map fun _ => none }
      (c''.settle last.isOk) (c.idsAfter ids)
  | pinged {before : List Packet} {last : Except ClientError Packet} {c' : Connection ρ} :
    c.busy.exchange [.ping] .pong = ((before, last), c') →
    Performed c ids .ping { result := (outcome true last).map fun _ => none }
      (c'.settle last.isOk) ids

/-- What an insert or a ping returns tells nothing of an outcome. -/
lemma map_map_none (result : Except ClientError Outcome) :
    ((result.map fun _ => ()).map fun _ => none) = result.map fun _ => (none : Option Outcome) := by
  cases result <;> rfl

/-- A call on an idle connection does what its exchanges say. -/
lemma Performed.call {k : Call} {answer : Answer} {ids' : QueryIds} (idle : c.state = .idle)
    (h : Performed c ids k answer c' ids') : c.call k ids = (answer, c', ids') := by
  cases h with
  | executed exchanged => exact call_execute (execute_of_exchange idle exchanged)
  | undescribed exchanged => exact call_insert (insert_of_error idle exchanged)
  | refused exchanged => exact call_insert (insert_of_exception idle exchanged)
  | inserted exchanged ready answered =>
    rw [call_insert (insert_of_ready idle ready exchanged answered), map_map_none]
  | pinged exchanged => rw [call_ping (ping_of_exchange idle exchanged), map_map_none]

/-- Whatever is called, there are exchanges that say what it does. -/
lemma exists_performed (c : Connection ρ) (k : Call) (ids : QueryIds) :
    ∃ answer c' ids', Performed c ids k answer c' ids' := by
  cases k with
  | execute query => exact ⟨_, _, _, .executed rfl⟩
  | insert table block =>
    obtain ⟨waiting, ready, c₁, exchanged⟩ : ∃ waiting ready c₁,
        c.busy.exchange (c.opening ids (insertQuery table)) .readiness = ((waiting, ready), c₁) :=
      ⟨_, _, _, rfl⟩
    cases ready with
    | error e => exact ⟨_, _, _, .undescribed exchanged⟩
    | ok p =>
      cases p with
      | exception e => exact ⟨_, _, _, .refused exchanged⟩
      | _ => exact ⟨_, _, _, .inserted exchanged nofun rfl⟩
  | ping => exact ⟨_, _, _, .pinged rfl⟩

/-- Whatever a call on an idle connection does is one of these. -/
lemma performed_of_call {k : Call} {answer : Answer} {ids' : QueryIds} (idle : c.state = .idle)
    (called : c.call k ids = (answer, c', ids')) : Performed c ids k answer c' ids' := by
  obtain ⟨_, _, _, performed⟩ := exists_performed c k ids
  cases called.symm.trans (performed.call idle)
  exact performed

end Connection

end Columnar
