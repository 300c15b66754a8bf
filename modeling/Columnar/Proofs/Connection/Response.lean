import Columnar.Proofs.Connection.Call
import Columnar.Proofs.Packet.Reply

/-!
# Responses

`Legal` says which replies make up the response to a call, and `Call.expected` what whoever makes
the call is to learn from them. The replies of a response go through the phases of an exchange as
they should: those before the last one keep a phase open and the last one ends it.
-/

namespace Columnar

/-- A reply that stands between the others in the response to a query. -/
def Reply.Intermediate (q : Reply) : Prop := q.kind ∈ [.data, .profileInfo, .progress, .pong]

/-- A reply that ends the response to a query. -/
def Reply.Final (q : Reply) : Prop := q.kind ∈ [.endOfStream, .exception]

/-- The replies that make up the response to a call. -/
inductive Legal : Call → List Reply → Prop where
  | execute {query before last} :
    (∀ q ∈ before, Reply.Intermediate q) →
    last.Final →
    Legal (.execute query) (before ++ [last])
  /-- The table does not take rows. -/
  | refused {table block waiting last} :
    (∀ q ∈ waiting, Reply.kind q = .progress) →
    last.kind = .exception →
    Legal (.insert table block) (waiting ++ [last])
  /-- The table is described, and then the rows are answered like a query. -/
  | taken {table block waiting schema before last} :
    (∀ q ∈ waiting, Reply.kind q = .progress) →
    Reply.kind schema = .data →
    (∀ q ∈ before, Reply.Intermediate q) →
    last.Final →
    Legal (.insert table block) (waiting ++ [schema] ++ (before ++ [last]))
  | ping {before last} :
    (∀ q ∈ before, Reply.kind q ∈ [PacketKind.progress, .profileInfo, .data]) →
    Reply.kind last ∈ [PacketKind.pong, .endOfStream, .exception] →
    Legal .ping (before ++ [last])

/-- What a sink hears of a reply. -/
def Reply.event? (r : Revision) : Reply → Option Event
  | .data _ block => some (.data (block.received r))
  | .exception e => some (.exception e)
  | .progress rows bytes totalRows =>
    some (.progress { rows, bytes, totalRows := if 51554 ≤ r.number then some totalRows else none })
  | .pong => none
  | .endOfStream => some .finish
  | .profileInfo p => some (.profile p)

/-- How a response ends: an exception is raised or only reported. -/
def conclusion (rethrow : Bool) (replies : List Reply) : Except ClientError Outcome :=
  match replies.getLast? with
  | some (.exception e) => if rethrow then .error (.server e) else .ok .serverException
  | _ => .ok .finished

/-- What whoever makes the call learns from the response. -/
def Call.expected (options : Options) (r : Revision) (replies : List Reply) : Call → Answer
  | .execute query =>
    { events := replies.filterMap (Reply.event? r)
      result := (conclusion (query.rethrow.getD options.rethrow) replies).map some }
  | .insert .. | .ping => { result := (conclusion true replies).map fun _ => none }

/-- The packet of a reply becomes the event of the reply. -/
lemma Reply.event?_packet (r : Revision) (q : Reply) : (q.packet r).event? = q.event? r := by
  cases q <;> rfl

/-- The packets of several replies become their events. -/
lemma Event.of_packets (r : Revision) (before : List Reply) :
    (before.map (Reply.packet r)).filterMap Packet.event? = before.filterMap (Reply.event? r) := by
  have same : Packet.event? ∘ Reply.packet r = Reply.event? r := funext fun q => q.event?_packet r
  rw [List.filterMap_map, same]

/-- The packets of a whole response become its events. -/
lemma Event.ofResponse_packets (r : Revision) (before : List Reply) (last : Reply) :
    ofResponse (before.map (Reply.packet r)) (.ok (last.packet r)) =
      (before ++ [last]).filterMap (Reply.event? r) := by
  rw [List.filterMap_append, ← of_packets r before, ← of_packets r [last]]
  rfl

/-- A response that fails has the events of the replies before. -/
lemma Event.ofResponse_error (r : Revision) (before : List Reply) (e : ClientError) :
    ofResponse (before.map (Reply.packet r)) (.error e) = before.filterMap (Reply.event? r) := by
  rw [← of_packets]
  exact List.append_nil _

/-- A whole response decides the outcome of its query. -/
lemma Connection.outcome_packet (rethrow : Bool) (r : Revision) (before : List Reply)
    (last : Reply) :
    outcome rethrow (.ok (last.packet r)) = conclusion rethrow (before ++ [last]) := by
  rw [conclusion, List.getLast?_append]
  cases last <;> rfl

/-- A call and a response to it that can be sent. -/
structure Turn where
  call : Call
  replies : List Reply
  legal : Legal call replies
  fits : ∀ q ∈ replies, q.Fits

namespace Turn

/-- The bytes of the response. -/
def encode (r : Revision) (x : Turn) : Bytes := x.replies.flatMap (Reply.encode r)

/-- What whoever makes the call is to learn. -/
def expected (options : Options) (r : Revision) (x : Turn) : Answer :=
  x.call.expected options r x.replies

end Turn

/-- The replies of a response as the phases of the call take them. -/
inductive Phased : Call → List Reply → Prop where
  | execute {query before last} :
    (∀ q ∈ before, Phase.result.Takes false q) →
    Phase.result.Takes true last →
    Phased (.execute query) (before ++ [last])
  | refused {table block waiting e} :
    (∀ q ∈ waiting, Phase.readiness.Takes false q) →
    Phase.readiness.Takes true (.exception e) →
    Phased (.insert table block) (waiting ++ [.exception e])
  | taken {table block waiting schema before last} :
    (∀ q ∈ waiting, Phase.readiness.Takes false q) →
    Phase.readiness.Takes true schema →
    Reply.kind schema = .data →
    (∀ q ∈ before, Phase.result.Takes false q) →
    Phase.result.Takes true last →
    Phased (.insert table block) (waiting ++ [schema] ++ (before ++ [last]))
  | ping {before last} :
    (∀ q ∈ before, Phase.pong.Takes false q) →
    Phase.pong.Takes true last →
    Phased .ping (before ++ [last])

namespace Phase

/-- What may stand within the response of a query leaves it open. -/
lemma takes_result_intermediate {q : Reply} (fits : q.Fits) (h : q.Intermediate) :
    Phase.result.Takes false q := by
  cases q with
  | exception e => simp [Reply.Intermediate, Reply.kind] at h
  | endOfStream => simp [Reply.Intermediate, Reply.kind] at h
  | _ => exact ⟨fits, rfl, rfl⟩

/-- What may stand at the end of the response of a query closes it. -/
lemma takes_result_final {q : Reply} (fits : q.Fits) (h : q.Final) : Phase.result.Takes true q := by
  cases q with
  | exception e => exact ⟨fits, rfl, rfl⟩
  | endOfStream => exact ⟨fits, rfl, rfl⟩
  | _ => simp [Reply.Final, Reply.kind] at h

/-- Progress leaves the wait for readiness open. -/
lemma takes_readiness_progress {q : Reply} (fits : q.Fits) (h : q.kind = .progress) :
    Phase.readiness.Takes false q :=
  ⟨fits, by rw [h]; rfl, by rw [h]; rfl⟩

/-- Nothing that is learnt before the end of a response says that it has ended. -/
lemma Takes.not_closing {q : Reply} (h : Phase.result.Takes false q) {r : Revision} {e : Event}
    (learnt : q.event? r = some e) : e ≠ .finish ∧ ∀ x, e ≠ .exception x := by
  cases q with
  | data table block =>
    cases learnt
    exact ⟨nofun, nofun⟩
  | progress rows bytes totalRows =>
    cases learnt
    exact ⟨nofun, nofun⟩
  | profileInfo p =>
    cases learnt
    exact ⟨nofun, nofun⟩
  | pong => cases learnt
  | endOfStream => cases h.endsWith
  | exception x => cases h.endsWith

/-- What may come before a pong leaves the wait for it open. -/
lemma takes_pong_before {q : Reply} (fits : q.Fits)
    (h : q.kind ∈ [PacketKind.progress, .profileInfo, .data]) : Phase.pong.Takes false q := by
  cases q with
  | data table block => exact ⟨fits, rfl, rfl⟩
  | progress rows bytes totalRows => exact ⟨fits, rfl, rfl⟩
  | profileInfo p => exact ⟨fits, rfl, rfl⟩
  | _ => simp [Reply.kind] at h

/-- What may come for a pong closes the wait for it. -/
lemma takes_pong_last {q : Reply} (fits : q.Fits)
    (h : q.kind ∈ [PacketKind.pong, .endOfStream, .exception]) : Phase.pong.Takes true q := by
  cases q with
  | pong => exact ⟨fits, rfl, rfl⟩
  | endOfStream => exact ⟨fits, rfl, rfl⟩
  | exception e => exact ⟨fits, rfl, rfl⟩
  | _ => simp [Reply.kind] at h

end Phase

/-- A legal response of replies that fit goes through the phases of its call. -/
lemma Legal.phased {k : Call} {replies : List Reply} (legal : Legal k replies)
    (fits : ∀ q ∈ replies, q.Fits) : Phased k replies := by
  -- Which phase takes a reply depends on where the reply stands in the response.
  cases legal with
  | execute midway closing =>
    rw [List.forall_mem_append, List.forall_mem_singleton] at fits
    obtain ⟨fitsBefore, fitsLast⟩ := fits
    refine .execute ?_ (Phase.takes_result_final fitsLast closing)
    exact fun q mem => Phase.takes_result_intermediate (fitsBefore q mem) (midway q mem)
  | @refused table block waiting last midway closing =>
    rw [List.forall_mem_append, List.forall_mem_singleton] at fits
    obtain ⟨fitsWaiting, fitsLast⟩ := fits
    cases last with
    | exception e =>
      refine .refused ?_ ⟨fitsLast, rfl, rfl⟩
      exact fun q mem => Phase.takes_readiness_progress (fitsWaiting q mem) (midway q mem)
    | _ => cases closing
  | @taken table block waiting schema before last midway ready later closing =>
    rw [List.forall_mem_append, List.forall_mem_append, List.forall_mem_append,
      List.forall_mem_singleton, List.forall_mem_singleton] at fits
    obtain ⟨⟨fitsWaiting, fitsSchema⟩, fitsBefore, fitsLast⟩ := fits
    cases schema with
    | data table' block' =>
      refine .taken ?_ ⟨fitsSchema, rfl, rfl⟩ rfl ?_ (Phase.takes_result_final fitsLast closing)
      · exact fun q mem => Phase.takes_readiness_progress (fitsWaiting q mem) (midway q mem)
      · exact fun q mem => Phase.takes_result_intermediate (fitsBefore q mem) (later q mem)
    | _ => cases ready
  | ping midway closing =>
    rw [List.forall_mem_append, List.forall_mem_singleton] at fits
    obtain ⟨fitsBefore, fitsLast⟩ := fits
    refine .ping ?_ (Phase.takes_pong_last fitsLast closing)
    exact fun q mem => Phase.takes_pong_before (fitsBefore q mem) (midway q mem)

/-- A turn goes through the phases of its call. -/
lemma Turn.phased (x : Turn) : Phased x.call x.replies := x.legal.phased x.fits

namespace Turn

/-- A query that fails after its first block. -/
def failingQuery : Turn where
  call := .execute { text := "SELECT v FROM twins", rethrow := some false }
  replies := [.data "" .twins, .pong, .progress 2 18 2] ++
    [.exception (.causedBy ⟨47, "DB::Exception", "é", ""⟩ (.root ⟨-1, "std::exception", "", ""⟩))]
  legal := .execute (by simp [Reply.Intermediate, Reply.kind]) (by simp [Reply.Final, Reply.kind])
  fits := by
    have named : Wire.FitsText "" := by decide
    simp only [List.cons_append, List.nil_append, List.forall_mem_cons]
    refine ⟨⟨named, Block.twins_built, Block.twins_fits⟩, trivial, trivial, ?_, nofun⟩
    simp only [Reply.Fits, ServerException.Fits, ServerException.chain, List.forall_mem_cons]
    exact ⟨⟨by decide, by decide, named⟩, ⟨by decide, named, named⟩, nofun⟩

/-- An insert into a table that takes rows. -/
def takenInsert : Turn where
  call := .insert "twins" .twins
  replies := [.progress 0 0 0] ++ [.data "" .twins] ++ ([] ++ [.endOfStream])
  legal := .taken (by simp [Reply.kind]) rfl nofun (by simp [Reply.Final, Reply.kind])
  fits := by
    simp only [List.cons_append, List.nil_append, List.forall_mem_cons]
    exact ⟨trivial, ⟨by decide, Block.twins_built, Block.twins_fits⟩, trivial, nofun⟩

/-- A ping that is answered at once. -/
def answeredPing : Turn where
  call := .ping
  replies := [] ++ [.pong]
  legal := .ping nofun (by simp [Reply.kind])
  fits := List.forall_mem_singleton.2 trivial

end Turn

end Columnar
