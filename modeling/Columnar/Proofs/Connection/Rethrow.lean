import Columnar.Proofs.Connection.Events
import Columnar.Proofs.Connection.Opening

/-!
# Exceptions that are raised or reported

The options say whether exceptions of the server are raised, and a query can decide for itself. All
that this changes is the result of a query whose response ended with an exception (`Differ`): a query
sends, receives and tells the same either way. Inserts, pings and handshakes do not even ask, they
raise every exception that they receive. Main statement: `rethrow_decides`.
-/

namespace Columnar

open ByteStream

/-- The options with exceptions raised or not. -/
def Options.rethrowing (rethrow : Bool) (o : Options) : Options := { o with rethrow }

/-- The result of a query that raises exceptions and of the same query that reports them, both with
these events: they are the same unless the last event is an exception. -/
inductive Differ (events : List Event) :
    Except ClientError Outcome → Except ClientError Outcome → Prop where
  | exception {e : ServerException} :
    events.getLast? = some (.exception e) →
    Differ events (.error (.server e)) (.ok .serverException)
  | other {result : Except ClientError Outcome} :
    result ≠ .ok .serverException →
    (∀ e, result ≠ .error (.server e)) →
    Differ events result result

namespace Connection

variable {ρ : Type}

/-- The connection with exceptions raised or not. -/
def rethrowing (rethrow : Bool) (c : Connection ρ) : Connection ρ :=
  { c with options := c.options.rethrowing rethrow }

/-- The packets of a response, the one that ended it among them. -/
def arrived (response : List Packet × Except ClientError Packet) : List Packet :=
  response.1 ++ response.2.toOption.toList

/-- The option changes nothing of what is sent. -/
lemma send_rethrowing {c c' : Connection ρ} {packets : List Request}
    {result : Except ClientError Unit} (h : c.send packets = (result, c')) (rethrow : Bool) :
    (c.rethrowing rethrow).send packets = (result, c'.rethrowing rethrow) := by
  rw [send] at h ⊢
  cases h
  rfl

/-- The option changes nothing of whether an exchange can begin. -/
lemma start_rethrowing (rethrow : Bool) (c : Connection ρ) :
    (c.rethrowing rethrow).start = c.start.map (rethrowing rethrow) := by
  have same : (c.rethrowing rethrow).state = c.state := rfl
  unfold start
  rw [same]
  cases c.state <;> rfl

variable [Reader ρ]

/-- The packets that a call receives; a connection that is not idle receives none. -/
def received (k : Call) (c : Connection ρ) (ids : QueryIds) : List Packet :=
  match c.state, k with
  | .idle, .execute query => arrived (c.busy.exchange (c.opening ids query.text) .result).1
  | .idle, .insert table block =>
    match c.busy.exchange (c.opening ids (insertQuery table)) .readiness with
    | ((before, .error e), _) => arrived (before, .error e)
    | ((before, .ok (.exception e)), _) => arrived (before, .ok (.exception e))
    | ((before, .ok p), c) =>
      arrived (before, .ok p) ++ arrived (c.exchange (Request.insertRows block) .result).1
  | .idle, .ping => arrived (c.busy.exchange [.ping] .pong).1
  | _, _ => []

/-- The packets that are received while a connection is opened. -/
def receivedOpening (options : Options) (t : Transport ρ) : List Packet :=
  match (t.stage ((Request.helloOf options).encode .client)).flush with
  | (.error _, _) => []
  | (.ok (), t) =>
    let read := t.receive (Packet.decode .opening .client .builtin)
    arrived ([], read.1)

section

variable {c c' : Connection ρ} {packets : List Request} {phase : Phase} {before : List Packet}
  {last : Except ClientError Packet} {ids ids' : QueryIds}

/-- The option changes nothing of an exchange. -/
lemma exchange_rethrowing (h : c.exchange packets phase = ((before, last), c')) (rethrow : Bool) :
    (c.rethrowing rethrow).exchange packets phase =
      ((before, last), c'.rethrowing rethrow) := by
  rcases exchange_inv h with ⟨e, rfl, rfl, sent⟩ | ⟨c₁, sent, received⟩
  · exact exchange_of_unsent (send_rethrowing sent rethrow)
  · obtain ⟨input, rfl, run⟩ := receive_inv received
    exact (exchange_of_sent (send_rethrowing sent rethrow)).trans
      (receive_of_run (c := c₁.rethrowing rethrow) run)

/-- A connection that cannot begin a query says the same however exceptions are treated. -/
lemma execute_of_error {e : ClientError} (refused : c.start = .error e) (query : Query)
    (ids : QueryIds) : c.execute query ids = (([], .error e), c, ids) := by
  rw [execute, refused]

/-- An outcome is one of two, as it is asked to raise or not. -/
lemma outcome_eq_ite (raises : Bool) (last : Except ClientError Packet) :
    outcome raises last = if raises then outcome true last else outcome false last := by
  cases raises <;> rfl

/-- Whether the outcome raises makes a difference at an exception only. -/
lemma differ_of_exchange (h : c.exchange packets .result = ((before, last), c')) :
    Differ (Event.ofResponse before last) (outcome true last) (outcome false last) := by
  have told := told_of_exchange h true
  cases last with
  | error e =>
    refine .other nofun fun x raised => ?_
    cases raised
    cases ofStream_of_exchange h
  | ok p =>
    cases p with
    | exception x => exact .exception (told.raised_last rfl)
    | _ => exact .other nofun nofun

/-- The options and the query decide between two results; the rest of what a query does is the
same. -/
lemma execute_rethrowing (c : Connection ρ) (text : String) (ids : QueryIds) :
    ∃ events raised reported, ∃ d : Connection ρ, ∃ ids',
      (∀ option override, (c.rethrowing option).execute { text, rethrow := override } ids =
        ((events, if override.getD option then raised else reported), d.rethrowing option, ids')) ∧
      Differ events raised reported := by
  by_cases idle : c.state = .idle
  · obtain ⟨before, last, c₁, exchanged⟩ : ∃ before last c₁,
        c.busy.exchange (c.opening ids text) .result = ((before, last), c₁) := ⟨_, _, _, rfl⟩
    refine ⟨_, _, _, c₁.settle last.isOk, c.idsAfter ids, fun option override => ?_,
      differ_of_exchange exchanged⟩
    rw [← outcome_eq_ite]
    have again : (c.rethrowing option).busy.exchange ((c.rethrowing option).opening ids text)
        .result = ((before, last), c₁.rethrowing option) := exchange_rethrowing exchanged option
    have ready : (c.rethrowing option).state = .idle := idle
    exact @execute_of_exchange _ _ _ _ _ _ _ ⟨text, override⟩ ready again
  · obtain ⟨e, refused, sort⟩ := start_of_other idle
    refine ⟨[], .error e, .error e, c, ids, fun option override => ?_,
      .other nofun fun x raised => ?_⟩
    · rw [ite_self]
      refine execute_of_error ?_ _ ids
      rw [start_rethrowing, refused]
      rfl
    · cases raised
      rcases sort with eq | eq <;> cases eq

/-- An exception ends every phase, so it can only come as the last packet. -/
lemma exception_mem_arrived (h : c.exchange packets phase = ((before, last), c'))
    {e : ServerException} : .exception e ∈ arrived (before, last) ↔ last = .ok (.exception e) := by
  have ends : phase.endsWith .exception = true := by cases phase <;> rfl
  constructor
  · intro mem
    rcases List.mem_append.1 mem with early | late
    · cases ends.symm.trans ((orderly_of_exchange h).1 _ early).1
    · cases last with
      | error e' => cases late
      | ok p => rw [List.mem_singleton.1 late]
  · rintro rfl
    exact List.mem_append_right _ (List.mem_singleton_self _)

/-- An exception is raised just when one has arrived. -/
lemma raised_of_exchange (h : c.exchange packets phase = ((before, last), c'))
    {e : ServerException} {α : Type} (f : Outcome → α) :
    (outcome true last).map f = .error (.server e) ↔ .exception e ∈ arrived (before, last) := by
  rw [exception_mem_arrived h]
  constructor
  · intro raised
    cases last with
    | error e' =>
      cases raised
      cases ofStream_of_exchange h
    | ok p =>
      cases p with
      | exception x =>
        cases raised
        rfl
      | _ => cases raised
  · rintro rfl
    rfl

/-- The option changes nothing of any call but a query. -/
lemma Performed.rethrowing {k : Call} {answer : Answer} (other : ∀ query, k ≠ .execute query)
    (performed : Performed c ids k answer c' ids') (rethrow : Bool) :
    Performed (c.rethrowing rethrow) ids k answer (c'.rethrowing rethrow) ids' := by
  cases performed with
  | @executed query before last c₁ exchanged => exact absurd rfl (other query)
  | undescribed exchanged =>
    exact .undescribed (c := c.rethrowing rethrow) (exchange_rethrowing exchanged rethrow)
  | refused exchanged =>
    exact .refused (c := c.rethrowing rethrow) (exchange_rethrowing exchanged rethrow)
  | inserted exchanged ready answered =>
    exact .inserted (c := c.rethrowing rethrow) (exchange_rethrowing exchanged rethrow) ready
      (exchange_rethrowing answered rethrow)
  | pinged exchanged =>
    exact .pinged (c := c.rethrowing rethrow) (exchange_rethrowing exchanged rethrow)

/-- Such a call ends with the exception that it receives, if it receives one. -/
lemma Performed.raised_iff {k : Call} {answer : Answer} (other : ∀ query, k ≠ .execute query)
    (idle : c.state = .idle) (performed : Performed c ids k answer c' ids') {e : ServerException} :
    answer.result = .error (.server e) ↔ .exception e ∈ c.received k ids := by
  cases performed with
  | @executed query before last c₁ exchanged => exact absurd rfl (other query)
  | undescribed exchanged =>
    simp only [received, idle, exchanged]
    rw [exception_mem_arrived exchanged]
    refine ⟨fun raised => ?_, nofun⟩
    cases raised
    cases ofStream_of_exchange exchanged
  | refused exchanged =>
    simp only [received, idle, exchanged]
    rw [exception_mem_arrived exchanged]
    constructor
    · intro raised
      cases raised
      rfl
    · intro last
      cases last
      rfl
  | @inserted table block before before' p last c₁ c₂ exchanged ready answered =>
    -- The description is no exception, so one that came can only be the answer to the rows.
    have all : c.received (.insert table block) ids =
        arrived (before, .ok p) ++ arrived (before', last) := by
      cases p with
      | exception x => exact absurd rfl (ready x)
      | _ => simp only [received, idle, exchanged, answered]
    rw [all, List.mem_append, exception_mem_arrived exchanged, raised_of_exchange answered]
    refine ⟨.inr, ?_⟩
    rintro (described | answer)
    · cases described
      exact absurd rfl (ready e)
    · exact answer
  | pinged exchanged =>
    simp only [received, idle, exchanged]
    exact raised_of_exchange exchanged _

/-- Inserts and pings do not depend on how exceptions are treated. -/
lemma call_rethrowing {k : Call} (other : ∀ query, k ≠ .execute query) (c : Connection ρ)
    (ids : QueryIds) : ∃ answer, ∃ d : Connection ρ, ∃ ids',
      (∀ option, (c.rethrowing option).call k ids = (answer, d.rethrowing option, ids')) ∧
      ∀ e, answer.result = .error (.server e) ↔ .exception e ∈ c.received k ids := by
  by_cases idle : c.state = .idle
  · obtain ⟨answer, d, ids', performed⟩ := exists_performed c k ids
    refine ⟨answer, d, ids', fun option => ?_, fun e => performed.raised_iff other idle⟩
    exact (performed.rethrowing other option).call idle
  · obtain ⟨e, refused, sort⟩ := start_of_other idle
    refine ⟨{ result := .error e }, c, ids, fun option => call_of_error ?_ k ids, fun x => ?_⟩
    · rw [start_rethrowing, refused]
      rfl
    · have nothing : c.received k ids = [] := by
        cases state : c.state with
        | idle => exact absurd state idle
        | _ => simp only [received, state]
      rw [nothing]
      refine ⟨fun raised => ?_, nofun⟩
      cases raised
      rcases sort with eq | eq <;> cases eq

/-- The option changes nothing of a handshake, which raises just the exceptions it receives. -/
lemma handshake_rethrowing (options : Options) (t : Transport ρ) :
    ∃ (result : Except ClientError (Connection ρ)) (t' : Transport ρ),
      (∀ option, handshake (options.rethrowing option) t =
        (result.map (rethrowing option), t')) ∧
      ∀ e, result = .error (.handshake (.server e)) ↔
        .exception e ∈ receivedOpening options t := by
  obtain ⟨flushed, t₁, sent⟩ : ∃ flushed t₁,
      (t.stage ((Request.helloOf options).encode .client)).flush = (flushed, t₁) := ⟨_, _, rfl⟩
  -- The introduction does not depend on the option, so both handshakes share what follows.
  cases flushed with
  | error failure =>
    refine ⟨.error (.handshake (.ofFailure failure)), t₁, fun option => ?_, fun e => ?_⟩
    · exact handshake_of_failure sent
    · simp only [receivedOpening, sent]
      refine ⟨fun raised => ?_, nofun⟩
      have unsent : ClientError.ofFailure failure = .server e := by
        injection raised with raised
        injection raised
      cases unsent ▸ ClientError.ofStream_ofFailure failure
  | ok u =>
    obtain ⟨found, input, run⟩ : ∃ found input,
        (Packet.decode .opening .client .builtin : Wire.Decoder _ ClientError _).run t₁.input =
          (found, input) := ⟨_, _, rfl⟩
    refine ⟨concluded options { t₁ with input } found, { t₁ with input }, fun option => ?_, ?_⟩
    · refine Eq.trans (handshake_of_hello sent (readHello_of_run run)) ?_
      rw [concluded]
      cases greeted found <;> rfl
    · intro e
      have sort : ∀ e, found = .error e → e.OfStream := by
        rintro e rfl
        exact Packet.fails_decode _ _ _ _ _ _ run
      rw [concluded_server_iff sort]
      simp only [receivedOpening, sent, Transport.receive, run]
      constructor
      · rintro rfl
        exact List.mem_singleton_self _
      · intro mem
        cases found with
        | error e' => cases mem
        | ok p => rw [List.mem_singleton.1 mem]

end

/-- How exceptions are treated decides the result of a query whose response ended with one, and
nothing else: what is sent and read, what is told, and the connection and the ids afterwards are the
same whether the options or the query itself decide, and so is every other result. Inserts, pings and
handshakes are the same altogether, and end with the exception that they receive if they receive
one. -/
theorem rethrow_decides (c : Connection ρ) (ids : QueryIds) :
    (∀ text, ∃ events raised reported, ∃ d : Connection ρ, ∃ ids',
      (∀ option override, (c.rethrowing option).execute { text, rethrow := override } ids =
        ((events, if override.getD option then raised else reported), d.rethrowing option, ids')) ∧
      Differ events raised reported) ∧
    (∀ k, (∀ query, k ≠ .execute query) → ∃ answer, ∃ d : Connection ρ, ∃ ids',
      (∀ option, (c.rethrowing option).call k ids = (answer, d.rethrowing option, ids')) ∧
      ∀ e, answer.result = .error (.server e) ↔ .exception e ∈ c.received k ids) ∧
    ∀ (options : Options) (t : Transport ρ), ∃ (result : Except ClientError (Connection ρ)) (t' : _),
      (∀ option, handshake (options.rethrowing option) t =
        (result.map (rethrowing option), t')) ∧
      ∀ e, result = .error (.handshake (.server e)) ↔
        .exception e ∈ receivedOpening options t :=
  ⟨fun text => execute_rethrowing c text ids, fun _ other => call_rethrowing other c ids,
    handshake_rethrowing⟩

/-- On the failing query the override of the query wins over the options. -/
theorem rethrow_decides_failing : ∃ events e, ∃ d : Connection Feed, ∃ ids',
    failing.execute { text := "SELECT v FROM twins" } {} =
      ((events, .error (.server e)), d.rethrowing true, ids') ∧
    failing.execute { text := "SELECT v FROM twins", rethrow := some false } {} =
      ((events, .ok .serverException), d.rethrowing true, ids') ∧
    (failing.rethrowing false).execute { text := "SELECT v FROM twins", rethrow := some true } {} =
      ((events, .error (.server e)), d.rethrowing false, ids') ∧
    events.getLast? = some (.exception e) := by
  have obliging : failing.transport.Obliging := ⟨rfl, nofun, nofun⟩
  have here : failing.unread = Feed.ofBytes (Turn.failingQuery.encode elder.agreed) ++ [] :=
    (Feed.calm_ofBytes _).trans (List.append_nil _).symm
  obtain ⟨t, ids₁, called, _⟩ :=
    call_of_phased rfl Registry.knowsBuiltin_builtin obliging Turn.failingQuery.phased here {}
  obtain ⟨queries, _⟩ := rethrow_decides failing {}
  obtain ⟨events, raised, reported, d, ids', run, differ⟩ := queries "SELECT v FROM twins"
  obtain ⟨eq, _⟩ := Prod.mk.inj ((call_execute (run true (some false))).symm.trans called)
  obtain ⟨_, returned⟩ := Answer.mk.inj eq
  have exception : reported = .ok .serverException := by
    cases reported with
    | error e => cases returned
    | ok outcome =>
      cases returned
      rfl
  cases differ with
  | exception last =>
    exact ⟨events, _, d, ids', run true none, run true (some false), run false (some true), last⟩
  | other quiet _ => exact absurd exception quiet

end Connection

end Columnar
