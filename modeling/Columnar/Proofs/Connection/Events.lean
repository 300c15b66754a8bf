import Columnar.Proofs.Block.Decoded
import Columnar.Proofs.Connection.Replay
import Columnar.Proofs.Connection.Session

/-!
# What is told of a query

Whatever the stream does, what is told on the way is data, progress and profiles, and at most one
event that closes, as the last one; `Told` says which result goes with which last event. What is told
comes from whole packets that stand at the beginning of the stream, one after the other, so that a
packet which is cut short or malformed is not told of. Main statement: `execute_events`.
-/

namespace Columnar

open ByteStream Wire

/-- The event says that the response has ended. -/
def Event.closes : Event → Bool
  | .data _ | .progress _ | .profile _ => false
  | .exception _ | .finish => true

/-- What is told of a query on the way, and the result with which it then ends. -/
inductive Told : List Event → Except ClientError Outcome → Prop where
  | finished {midway : List Event} :
    (∀ e ∈ midway, e.closes = false) →
    Told (midway ++ [.finish]) (.ok .finished)
  | reported {midway : List Event} {x : ServerException} :
    (∀ e ∈ midway, e.closes = false) →
    Told (midway ++ [.exception x]) (.ok .serverException)
  | raised {midway : List Event} {x : ServerException} :
    (∀ e ∈ midway, e.closes = false) →
    Told (midway ++ [.exception x]) (.error (.server x))
  | failed {midway : List Event} {error : ClientError} :
    (∀ e ∈ midway, e.closes = false) →
    error.OfStream →
    Told midway (.error error)

namespace Told

variable {events : List Event} {result : Except ClientError Outcome} (told : Told events result)
include told

/-- Events that only go on are followed by one that closes, if the response came so far. -/
lemma shape : ∃ midway closing, events = midway ++ closing ∧ (∀ e ∈ midway, e.closes = false) ∧
    (closing = [] ∨ ∃ e, closing = [e] ∧ e.closes = true) := by
  cases told with
  | @finished midway open_ => exact ⟨midway, _, rfl, open_, .inr ⟨_, rfl, rfl⟩⟩
  | @reported midway x open_ => exact ⟨midway, _, rfl, open_, .inr ⟨_, rfl, rfl⟩⟩
  | @raised midway x open_ => exact ⟨midway, _, rfl, open_, .inr ⟨_, rfl, rfl⟩⟩
  | failed open_ sort => exact ⟨events, [], (List.append_nil _).symm, open_, .inl rfl⟩

/-- A query has finished just when its last event says so. -/
lemma finished_iff : result = .ok .finished ↔ events.getLast? = some .finish := by
  cases told with
  | finished open_ => exact ⟨fun _ => List.getLast?_concat, fun _ => rfl⟩
  | reported open_ => simp
  | raised open_ => simp
  | failed open_ sort =>
    refine ⟨nofun, fun last => ?_⟩
    cases open_ _ (List.mem_of_getLast? last)

/-- An exception is the result just when the last event is one. -/
lemma exception_iff : result = .ok .serverException ∨ (∃ x, result = .error (.server x)) ↔
    ∃ x, events.getLast? = some (.exception x) := by
  cases told with
  | finished open_ => simp
  | reported open_ => exact ⟨fun _ => ⟨_, List.getLast?_concat⟩, fun _ => .inl rfl⟩
  | raised open_ => exact ⟨fun _ => ⟨_, List.getLast?_concat⟩, fun _ => .inr ⟨_, rfl⟩⟩
  | failed open_ sort =>
    constructor
    · rintro (eq | ⟨x, eq⟩)
      · cases eq
      · cases eq
        cases sort
    · rintro ⟨x, last⟩
      cases open_ _ (List.mem_of_getLast? last)

/-- The exception that is raised is the one that the last event reports. -/
lemma raised_last {x : ServerException} (h : result = .error (.server x)) :
    events.getLast? = some (.exception x) := by
  cases told with
  | raised open_ =>
    cases h
    exact List.getLast?_concat
  | failed open_ sort =>
    cases h
    cases sort
  | _ => cases h

/-- A query that fails for another reason has no closing event. -/
lemma failed_open {error : ClientError} (h : result = .error error)
    (other : ∀ x, error ≠ .server x) : ∀ e ∈ events, e.closes = false := by
  cases told with
  | failed open_ _ => exact open_
  | @raised midway x open_ =>
    cases h
    exact absurd rfl (other x)
  | _ => cases h

end Told

/-- A packet that leaves the response open becomes an event that does not close it. -/
lemma Packet.event?_open {p : Packet} (h : Phase.result.endsWith p.kind = false) {e : Event}
    (learnt : p.event? = some e) : e.closes = false := by
  cases p with
  | data block => cases learnt; rfl
  | progress p => cases learnt; rfl
  | profileInfo p => cases learnt; rfl
  | hello info => cases learnt
  | pong => cases learnt
  | endOfStream => cases h
  | exception x => cases h

/-- The event of a block comes from the packet that holds it. -/
lemma Packet.eq_data_of_event? {p : Packet} {block : Block}
    (learnt : p.event? = some (.data block)) : p = .data block := by
  cases p with
  | data block' =>
    cases learnt
    rfl
  | _ => cases learnt

section

variable {ρ : Type} [Reader ρ]

/-- The blocks of the packet hold as many values in each column as they have rows. -/
def Packet.Uniform (p : Packet) : Prop := ∀ block, p = .data block → block.Uniform

/-- Whatever packet is read, its block is uniform. -/
lemma Packet.yields_decode (phase : Phase) (r : Revision) (registry : Registry) :
    (decode phase r registry : Decoder ρ ClientError Packet).Yields Uniform := by
  refine Decoder.Yields.bind (.any _) fun code _ => ?_
  refine Decoder.Yields.bind (.any _) fun kind _ => ?_
  cases kind with
  | data =>
    refine Decoder.Yields.mapError (.map (Block.yields_decode r registry) ?_) _
    rintro block uniform _ ⟨⟩
    exact uniform
  | pong => exact .pure nofun
  | endOfStream => exact .pure nofun
  | hello => exact .mapError (.map (.any _) fun _ _ => nofun) _
  | exception => exact .mapError (.map (.any _) fun _ _ => nofun) _
  | progress => exact .mapError (.map (.any _) fun _ _ => nofun) _
  | profileInfo => exact .mapError (.map (.any _) fun _ _ => nofun) _

/-- Each round of a response reads a packet that its phase sorts rightly, with a uniform block. -/
lemma Phase.yields_step (phase : Phase) (r : Revision) (registry : Registry) :
    (phase.step r registry : Decoder ρ ClientError (Packet ⊕ Packet)).Yields
      (Sum.elim (fun p => phase.endsWith p.kind = false ∧ p.Uniform)
        fun p => phase.endsWith p.kind = true ∧ p.Uniform) := by
  refine Decoder.Yields.map (Packet.yields_decode phase r registry) fun p uniform => ?_
  cases ends : phase.endsWith p.kind with
  | true =>
    rw [if_pos rfl]
    exact ⟨ends, uniform⟩
  | false =>
    rw [if_neg nofun]
    exact ⟨ends, uniform⟩

end

namespace Connection

variable {ρ : Type} [Reader ρ] {c c' : Connection ρ} {packets : List Request} {phase : Phase}
  {before : List Packet} {last : Except ClientError Packet}

/-- Of the packets that are received the last one ends the phase and no other. -/
lemma orderly_of_exchange (h : c.exchange packets phase = ((before, last), c')) :
    (∀ p ∈ before, phase.endsWith p.kind = false ∧ p.Uniform) ∧
      ∀ p, last = .ok p → phase.endsWith p.kind = true ∧ p.Uniform := by
  rcases exchange_inv h with ⟨e, rfl, rfl, _⟩ | ⟨c₁, _, received⟩
  · exact ⟨List.forall_mem_nil _, nofun⟩
  · obtain ⟨input, _, run⟩ := receive_inv received
    exact Decoder.Yields.gather (phase.yields_step c₁.revision c₁.registry) _ _ _ run

/-- The events and the outcome of an exchange tell of its response. -/
lemma told_of_exchange (h : c.exchange packets .result = ((before, last), c')) (rethrow : Bool) :
    Told (Event.ofResponse before last) (outcome rethrow last) := by
  obtain ⟨midway, closing⟩ := orderly_of_exchange h
  have open_ : ∀ e ∈ before.filterMap Packet.event?, e.closes = false := by
    intro e mem
    obtain ⟨p, came, learnt⟩ := List.mem_filterMap.1 mem
    exact Packet.event?_open (midway p came).1 learnt
  -- Only two kinds of packet end a response; by `ends` the others cannot stand here.
  cases last with
  | error e =>
    have none_last : Event.ofResponse before (.error e) = before.filterMap Packet.event? :=
      List.append_nil _
    rw [none_last]
    exact .failed open_ (ofStream_of_exchange h)
  | ok p =>
    have ends := (closing p rfl).1
    cases p with
    | endOfStream => exact .finished open_
    | exception x =>
      cases rethrow with
      | true => exact .raised open_
      | false => exact .reported open_
    | _ => cases ends

/-- What has been received over a connection is whole packets that stand at the beginning of its
stream. -/
lemma pieces_of_exchange [Observable ρ] (h : c.exchange packets phase = ((before, last), c')) :
    ∃ pieces : List (Bytes × Packet), ∃ more,
      c.unread = .ofBytes (pieces.flatMap Prod.fst) ++ (more ++ c'.unread) ∧
      (∀ x ∈ pieces, (Packet.decode phase c.revision c.registry :
        Decoder Feed ClientError Packet).Reads x.1 x.2) ∧
      before ++ last.toOption.toList = pieces.map Prod.snd := by
  rcases exchange_inv h with ⟨e, rfl, rfl, sent⟩ | ⟨c₁, sent, received⟩
  · exact ⟨[], [], (unread_of_send sent).symm, List.forall_mem_nil _, rfl⟩
  · obtain ⟨staged, sink, rfl⟩ := send_inv sent
    obtain ⟨used, here, received⟩ := received_of_receive (σ := Feed) received
    obtain ⟨pieces, more, rfl, all, same⟩ := received.pieces
    rw [List.append_assoc] at here
    exact ⟨pieces, more, here, all, same⟩

/-- Whatever the stream does, what is told of a query is shaped like a response, its last event
corresponds to what the query returns, and its blocks have as many values in each column as they have
rows; and what is told comes from whole packets that the stream begins with. -/
theorem execute_events (idle : c.state = .idle) {query : Query} {ids ids' : QueryIds}
    {events : List Event} {result : Except ClientError Outcome}
    (run : c.execute query ids = ((events, result), c', ids')) :
    (∃ midway closing, events = midway ++ closing ∧ (∀ e ∈ midway, e.closes = false) ∧
      (closing = [] ∨ ∃ e, closing = [e] ∧ e.closes = true)) ∧
    (result = .ok .finished ↔ events.getLast? = some .finish) ∧
    (result = .ok .serverException ∨ (∃ x, result = .error (.server x)) ↔
      ∃ x, events.getLast? = some (.exception x)) ∧
    (∀ x, result = .error (.server x) → events.getLast? = some (.exception x)) ∧
    ((∃ e, result = .error (.transport e)) ∨ (∃ e, result = .error (.protocol e)) →
      ∀ e ∈ events, e.closes = false) ∧
    (∀ block, .data block ∈ events → block.Uniform) ∧
    ∀ [Observable ρ], ∃ pieces : List (Bytes × Packet), ∃ rest,
      c.unread = .ofBytes (pieces.flatMap Prod.fst) ++ rest ∧
      (∀ x ∈ pieces, (Packet.decode .result c.revision c.registry :
        Decoder Feed ClientError Packet).Reads x.1 x.2) ∧
      events = (pieces.map Prod.snd).filterMap Packet.event? ∧
      ∀ block, .data block ∈ events → ∃ bs, (bs, .data block) ∈ pieces := by
  obtain ⟨before, last, c₁, exchanged⟩ : ∃ before last c₁,
      c.busy.exchange (c.opening ids query.text) .result = ((before, last), c₁) := ⟨_, _, _, rfl⟩
  rw [execute_of_exchange idle exchanged] at run
  cases run
  have told := told_of_exchange exchanged (query.rethrow.getD c₁.options.rethrow)
  have learnt : Event.ofResponse before last =
      (before ++ last.toOption.toList).filterMap Packet.event? := by
    rw [List.filterMap_append]
    rfl
  -- An event that holds a block comes from a packet, and packets are known to be uniform.
  have received {block : Block} (mem : .data block ∈ Event.ofResponse before last) :
      .data block ∈ before ++ last.toOption.toList := by
    rw [learnt] at mem
    obtain ⟨p, came, told⟩ := List.mem_filterMap.1 mem
    rwa [Packet.eq_data_of_event? told] at came
  refine ⟨told.shape, told.finished_iff, told.exception_iff, fun x => told.raised_last, ?_, ?_, ?_⟩
  · rintro (⟨e, eq⟩ | ⟨e, eq⟩)
    · exact told.failed_open eq nofun
    · exact told.failed_open eq nofun
  · intro block mem
    obtain ⟨midway, closing⟩ := orderly_of_exchange exchanged
    rcases List.mem_append.1 (received mem) with early | late
    · exact (midway _ early).2 block rfl
    · cases last with
      | error e => cases late
      | ok p =>
        obtain rfl := List.mem_singleton.1 late
        exact (closing _ rfl).2 block rfl
  · intro _
    obtain ⟨pieces, more, here, all, same⟩ := pieces_of_exchange exchanged
    refine ⟨pieces, _, here, all, ?_, fun block mem => ?_⟩
    · rw [learnt, same]
    · have came := received mem
      rw [same] at came
      obtain ⟨⟨bs, p⟩, mem, rfl⟩ := List.mem_map.1 came
      exact ⟨bs, mem⟩

/-- A connection on which a query fails after its first block. -/
def failing : Connection Feed where
  transport := .ofStream (.ofBytes (Turn.failingQuery.encode elder.agreed)) {}
  options := { queryIds := ⟨0⟩ }
  registry := .builtin
  server := elder.info
  revision := elder.agreed
  state := .idle

/-- Over a query that fails after a block the exception comes last and the block is reported. -/
theorem execute_events_failing : ∃ events result c' ids',
    failing.execute { text := "SELECT v FROM twins", rethrow := some false } {} =
      ((events, result), c', ids') ∧
    result = .ok .serverException ∧
    (∃ x, events.getLast? = some (.exception x)) ∧
    .data (Block.twins.received elder.agreed) ∈ events ∧
    (Block.twins.received elder.agreed).Uniform := by
  have knows : failing.registry.KnowsBuiltin := Registry.knowsBuiltin_builtin
  have obliging : failing.transport.Obliging := ⟨rfl, nofun, nofun⟩
  have here : failing.unread = Feed.ofBytes (Turn.failingQuery.encode elder.agreed) ++ [] :=
    (Feed.calm_ofBytes _).trans (List.append_nil _).symm
  obtain ⟨t, ids', called, _⟩ := call_of_phased rfl knows obliging Turn.failingQuery.phased here {}
  obtain ⟨⟨events, result⟩, c', ids₁, run⟩ : ∃ learnt c' ids',
      failing.execute { text := "SELECT v FROM twins", rethrow := some false } {} =
        (learnt, c', ids') := ⟨_, _, _, rfl⟩
  obtain ⟨_, _, exception_iff, _, _, uniform, _⟩ := execute_events rfl run
  obtain ⟨eq, _⟩ := Prod.mk.inj ((call_execute run).symm.trans called)
  obtain ⟨rfl, reported⟩ := Answer.mk.inj eq
  have returned : result = .ok .serverException := by
    cases result with
    | error e => cases reported
    | ok outcome =>
      cases reported
      rfl
  have came : .data (Block.twins.received elder.agreed) ∈
      Turn.failingQuery.replies.filterMap (Reply.event? failing.revision) := List.mem_cons_self
  exact ⟨_, _, _, _, run, returned, exception_iff.1 (.inl returned), came, uniform _ came⟩

end Connection

end Columnar
