import Columnar.Proofs.ByteStream.Lines
import Columnar.Proofs.Connection.Requests
import Columnar.Shell.Program

/-!
# What a shell sends

A session deals with the lines of its input one after the other (`Session.Course`) until one of them
asks it to exit or costs it the connection (`Session.Ended`). On the way it sends a ping or a query
for each line that asks for one, and nothing else. Main statement: `sends_what_is_typed`.
-/

namespace Columnar.Shell

open ByteStream Wire

/-- How many queries are sent for what was read. -/
def queries : Except CommandError Command → Nat
  | .ok (.query _) => 1
  | _ => 0

/-- The packets for what was read, when `n` queries have been sent before. The ids of the queries count
on, in 64 bits; behind each query comes a block without data. -/
def requestsOf (options : Options) (n : Nat) : Except CommandError Command → List Request
  | .ok .ping => [.ping]
  | .ok (.query text) =>
    [.query (toString ((n + 1) % 2 ^ 64)) options.clientInfo text, .data {}]
  | _ => []

/-- The call with which a command is carried out, if there is one. -/
def Command.call? : Command → Option Call
  | .exit | .serverInfo => none
  | .ping => some .ping
  | .query text => some (.execute { text })

namespace Session

variable {ρ σ : Type} [Reader ρ]

/-- The session after its prompt has been shown. -/
def prompted (out : Sink) (s : Session ρ) : Session ρ :=
  { s with printer := { s.printer with out } }

/-- What a session makes of what was read, before it looks at its connection. -/
def deal (s : Session ρ) : Except CommandError Command → Session ρ
  | .error .empty => s
  | .error e => s.print (Printer.complain (e.message ++ "\n"))
  | .ok command => s.obey command

/-- The session after it has said that its connection is lost. -/
def lose (s : Session ρ) : Session ρ := s.print (Printer.complain "connection lost\n")

variable {s s' : Session ρ} {read : Except CommandError Command}

/-- A command that calls the server makes this call on the connection. -/
lemma call_of_deal (command : Command) {k : Call} (calls : command.call? = some k) (s : Session ρ) :
    ∃ answer, s.connection.call k s.ids =
      (answer, (s.deal (.ok command)).connection, (s.deal (.ok command)).ids) := by
  cases command with
  | exit => cases calls
  | serverInfo => cases calls
  | ping =>
    cases calls
    obtain ⟨result, c, pinged⟩ : ∃ result c, s.connection.ping = (result, c) := ⟨_, _, rfl⟩
    have dealt : (s.deal (.ok .ping)).connection = c ∧ (s.deal (.ok .ping)).ids = s.ids := by
      cases result <;> simp [deal, obey, ping, pinged]
    rw [dealt.1, dealt.2]
    exact ⟨_, Connection.call_ping pinged s.ids⟩
  | query text =>
    cases calls
    obtain ⟨⟨events, result⟩, c, ids, run⟩ : ∃ learnt c ids,
        s.connection.execute { text } s.ids = (learnt, c, ids) := ⟨_, _, _, rfl⟩
    have dealt : (s.deal (.ok (.query text))).connection = c ∧
        (s.deal (.ok (.query text))).ids = ids := by
      simp [deal, obey, query, run]
    rw [dealt.1, dealt.2]
    exact ⟨_, Connection.call_execute run⟩

/-- A line that calls nothing leaves the connection alone. -/
lemma deal_of_quiet (quiet : ∀ command, read = .ok command → command.call? = none)
    (s : Session ρ) : (s.deal read).connection = s.connection ∧ (s.deal read).ids = s.ids := by
  cases read with
  | error e => cases e <;> simp [deal]
  | ok command =>
    have none := quiet command rfl
    cases command with
    | exit => simp [deal, obey]
    | serverInfo => simp [deal, obey]
    | ping => cases none
    | query text => cases none

/-- From the one session to the other this has been read and dealt with. Nothing of it asks to exit,
and the connection can be used after each of it; prompts that fail are complained about. -/
inductive Course : Session ρ → List (Except CommandError Command) → Session ρ → Prop where
  | nil {s : Session ρ} : Course s [] s
  | failed {s s' : Session ρ} {out : Sink} {e : Failure} {reads : List (Except CommandError Command)} :
    announce s.printer.out = (.error e, out) →
    Course ((s.prompted out).deal (.error (.failed e))) reads s' →
    Course s reads s'
  | dealt {s s' : Session ρ} {out : Sink} {read : Except CommandError Command}
      {reads : List (Except CommandError Command)} :
    announce s.printer.out = (.ok (), out) →
    read ≠ .ok .exit →
    ((s.prompted out).deal read).connection.isUsable = true →
    Course ((s.prompted out).deal read) reads s' →
    Course s (read :: reads) s'

/-- The session ends with what was read last: it was asked to exit, or its connection was lost when
the command was carried out. -/
inductive Ended (s : Session ρ) : Except CommandError Command → Session ρ → Prop where
  | left {out : Sink} :
    announce s.printer.out = (.ok (), out) →
    Ended s (.ok .exit) (s.prompted out)
  | lost {out : Sink} {command : Command} {k : Call} {answer : Answer} {c : Connection ρ}
      {ids : QueryIds} {e : ClientError} :
    announce s.printer.out = (.ok (), out) →
    command.call? = some k →
    s.connection.call k s.ids = (answer, c, ids) →
    answer.result = .error e →
    (∀ x, e ≠ .server x) →
    c.isUsable = false →
    Ended s (.ok command) ((s.prompted out).deal (.ok command)).lose

omit [Reader ρ] in
/-- A usable connection is idle. -/
lemma idle_of_usable {c : Connection ρ} (usable : c.isUsable = true) : c.state = .idle :=
  eq_of_beq usable

/-- What leaves the connection usable when it is dealt with is followed by the next prompt. -/
lemma Course.goes_on {s₁ : Session ρ} {last : Except CommandError Command}
    {before later reads : List (Except CommandError Command)} (course : Course s before s₁)
    (ended : Ended s₁ last s') (split : before ++ last :: later = read :: reads)
    (goes : read ≠ .ok .exit)
    (lasting : ∀ t : Session ρ, t.connection = s.connection → t.ids = s.ids →
      (t.deal read).connection.isUsable = true) :
    ∃ t : Session ρ, ∃ before', t.connection = s.connection ∧ t.ids = s.ids ∧
      before = read :: before' ∧ Course (t.deal read) before' s₁ := by
  induction course with
  | @nil s =>
    cases split
    cases ended with
    | left shown => exact absurd rfl goes
    | @lost out command _ _ _ _ _ shown calls called fails own unusable =>
      -- The call that lost the connection is the one with which the command is dealt with.
      obtain ⟨_, called'⟩ := call_of_deal command calls s
      cases called.symm.trans called'
      rw [lasting _ rfl rfl] at unusable
      cases unusable
  | failed shown course ih => exact ih ended split lasting
  | @dealt s s' out read reads shown other still course ih =>
    cases split
    exact ⟨s.prompted out, reads, rfl, rfl, rfl, course⟩

/-- The replies answer, one after the other, the calls for what was read. -/
inductive Answered : List (Except CommandError Command) → List Reply → Prop where
  | nil : Answered [] []
  | quiet {read : Except CommandError Command} {reads : List (Except CommandError Command)}
      {replies : List Reply} :
    (∀ command, read = .ok command → command.call? = none) →
    read ≠ .ok .exit →
    Answered reads replies →
    Answered (read :: reads) replies
  | called {command : Command} {k : Call} {response : List Reply}
      {reads : List (Except CommandError Command)} {replies : List Reply} :
    command.call? = some k →
    Phased k response →
    Answered reads replies →
    Answered (.ok command :: reads) (response ++ replies)

/-- A call can be made on the connection, and these replies come next on its stream. -/
structure Awaits [Observable ρ] (c : Connection ρ) (replies : List Reply) : Prop where
  idle : c.state = .idle
  knows : c.registry.KnowsBuiltin
  obliging : c.transport.Obliging
  next : ∃ rest, c.unread = .ofBytes (replies.flatMap (Reply.encode c.revision)) ++ rest

/-- A call that is answered leaves the connection as it was, in front of the next replies. -/
lemma Awaits.call [Observable ρ] {c : Connection ρ} {k : Call} {response replies : List Reply}
    (awaits : Awaits c (response ++ replies)) (phased : Phased k response) (ids : QueryIds) :
    ∃ answer c' ids', c.call k ids = (answer, c', ids') ∧ Awaits c' replies := by
  obtain ⟨rest, here⟩ := awaits.next
  rw [List.flatMap_append, Feed.ofBytes_append, List.append_assoc] at here
  obtain ⟨t, ids', called, obliging, left⟩ :=
    Connection.call_of_phased awaits.idle awaits.knows awaits.obliging phased here ids
  exact ⟨_, _, ids', called, awaits.idle, awaits.knows, obliging, rest, left⟩

/-- As long as its calls are answered a session goes on. -/
lemma Course.answered [Observable ρ] {s₁ : Session ρ} {last : Except CommandError Command}
    {before later front back : List (Except CommandError Command)} {replies : List Reply}
    (answered : Answered front replies) (course : Course s before s₁) (ended : Ended s₁ last s')
    (split : before ++ last :: later = front ++ back) (awaits : Awaits s.connection replies) :
    ∃ t : Session ρ, ∃ before', before = front ++ before' ∧ Course t before' s₁ := by
  -- On what is answered: each such line is behind the session only if the session goes on after it.
  induction answered generalizing s before with
  | nil => exact ⟨s, before, rfl, course⟩
  | @quiet read reads replies quiet goes answered ih =>
    have left (t : Session ρ) (same : t.connection = s.connection) :
        Awaits (t.deal read).connection replies := by
      rw [(deal_of_quiet quiet t).1, same]
      exact awaits
    obtain ⟨t, before', same, _, rfl, course'⟩ := course.goes_on ended split goes
      fun t same _ => beq_of_eq (left t same).idle
    obtain ⟨t', before'', rfl, course''⟩ := ih course' (List.cons.inj split).2 (left t same)
    exact ⟨t', before'', rfl, course''⟩
  | @called command k response reads replies calls phased answered ih =>
    have goes : (.ok command : Except CommandError Command) ≠ .ok .exit := by
      rintro ⟨⟩
      cases calls
    obtain ⟨_, c, _, run, next⟩ := awaits.call phased s.ids
    have left (t : Session ρ) (same : t.connection = s.connection) (same' : t.ids = s.ids) :
        Awaits (t.deal (.ok command)).connection replies := by
      obtain ⟨_, called⟩ := call_of_deal command calls t
      rw [same, same'] at called
      have made : c = (t.deal (.ok command)).connection :=
        congrArg (fun made => made.2.1) (run.symm.trans called)
      exact made ▸ next
    obtain ⟨t, before', same, same', rfl, course'⟩ := course.goes_on ended split goes
      fun t same same' => beq_of_eq (left t same same').idle
    obtain ⟨t', before'', rfl, course''⟩ :=
      ih course' (List.cons.inj split).2 (left t same same')
    exact ⟨t', before'', rfl, course''⟩

/-- The session can send its next query, which is number `n + 1`. -/
structure Sending (n : Nat) (s : Session ρ) : Prop where
  obliging : s.connection.transport.Obliging
  clear : s.connection.transport.staged = []
  counted : s.ids.count s.connection.options.queryIds = UInt64.ofNat n

/-- A line that calls nothing sends nothing and the session goes on sending. -/
lemma sending_of_quiet {n : Nat} (sending : Sending n s)
    (quiet : ∀ command, read = .ok command → command.call? = none) :
    s.connection.Wrote [] (s.deal read).connection ∧ Sending n (s.deal read) := by
  obtain ⟨same, same'⟩ := deal_of_quiet quiet s
  refine ⟨?_, ?_, ?_, ?_⟩
  · rw [same]
    exact .nothing sending.obliging sending.clear
  · rw [same]
    exact sending.obliging
  · rw [same]
    exact sending.clear
  · rw [same, same']
    exact sending.counted

/-- For what was read its packets are sent and nothing else. -/
lemma sending_of_deal {n : Nat} (sending : Sending n s) (usable : s.connection.isUsable = true)
    (read : Except CommandError Command) :
    s.connection.Wrote (requestsOf s.connection.options n read) (s.deal read).connection ∧
      Sending (n + queries read) (s.deal read) := by
  have idle := idle_of_usable usable
  cases read with
  | error e => exact sending_of_quiet sending nofun
  | ok command =>
    cases command with
    | exit => exact sending_of_quiet sending (by rintro _ ⟨⟩; rfl)
    | serverInfo => exact sending_of_quiet sending (by rintro _ ⟨⟩; rfl)
    | ping =>
      obtain ⟨answer, called⟩ := call_of_deal .ping rfl s
      obtain ⟨packets, writes, wrote⟩ :=
        Connection.writes_of_call idle sending.obliging sending.clear called
      have same : packets = [.ping] ∧ (s.deal (.ok .ping)).ids = s.ids := by
        generalize (s.deal (.ok .ping)).ids = ids at writes
        cases writes
        exact ⟨rfl, rfl⟩
      rw [same.1] at wrote
      refine ⟨wrote, wrote.obliging, wrote.staged, ?_⟩
      rw [same.2, wrote.options]
      exact sending.counted
    | query text =>
      obtain ⟨answer, called⟩ := call_of_deal (.query text) rfl s
      obtain ⟨packets, writes, wrote⟩ :=
        Connection.writes_of_call idle sending.obliging sending.clear called
      have next : s.ids.count s.connection.options.queryIds + 1 = UInt64.ofNat (n + 1) := by
        rw [sending.counted, UInt64.ofNat_add]
        rfl
      have same : packets = requestsOf s.connection.options n (.ok (.query text)) ∧
          (s.deal (.ok (.query text))).ids =
            s.ids.setCount s.connection.options.queryIds (UInt64.ofNat (n + 1)) := by
        generalize (s.deal (.ok (.query text))).ids = ids at writes
        cases writes with
        | execute number =>
          rw [next] at number
          rw [number, UInt64.toNat_ofNat']
          exact ⟨rfl, rfl⟩
      rw [same.1] at wrote
      refine ⟨wrote, wrote.obliging, wrote.staged, ?_⟩
      rw [same.2, wrote.options, QueryIds.count_setCount, if_pos rfl]
      rfl

/-- The line that ends a session sends what it asks for. -/
lemma Ended.sends {last : Except CommandError Command} (ended : Ended s last s') {n : Nat}
    (sending : Sending n s) (usable : s.connection.isUsable = true) :
    s.connection.Wrote (requestsOf s.connection.options n last) s'.connection := by
  cases ended with
  | left shown => exact .nothing sending.obliging sending.clear
  | @lost out command _ _ _ _ _ shown =>
    have prompted : Sending n (s.prompted out) :=
      ⟨sending.obliging, sending.clear, sending.counted⟩
    exact (sending_of_deal prompted usable (.ok command)).1

end Session

variable {ρ σ τ : Type} [Reader ρ] [Reader σ] [Observable σ] [Reader τ] [Observable τ]

end Columnar.Shell
