import Columnar.Proofs.Connection.Readiness
import Columnar.Proofs.Connection.Requests

/-!
# The end of the rows

The rows of an insert are followed by a block without columns and rows. Whoever reads blocks until
that one comes has read what the caller inserted and nothing is left, unless the caller inserts such a
block: then the reading ends with it, no rows have come, and the end marker is left in front of the
next request. Main statement: `rows_collected`.
-/

namespace Columnar

open ByteStream Wire

/-- Rows, or the end of them. -/
def Block.rowsOrEnd (b : Block) : Block ⊕ Unit := if b.isEmpty then .inr () else .inl b

namespace Submission

section

variable {ρ : Type} [Reader ρ]

/-- Reads a block of rows, or the block that ends them. -/
def decodeRows (r : Revision) : Decoder ρ ClientError (Block ⊕ Unit) :=
  Varint.decode.mapError .ofWire >>= fun code =>
    if code = RequestKind.data.code then
      Block.rowsOrEnd <$> (Block.decode r .builtin).mapError Block.Halt.error
    else .fail (.protocol (.unknownPacket code))

/-- A loop that reads the rows of an insert takes bytes in every round. -/
theorem consumes_decodeRows (r : Revision) :
    (decodeRows r : Decoder ρ ClientError (Block ⊕ Unit)).Consumes :=
  (Varint.consumes_decode.mapError _).bind _

/-- Reads blocks of rows until one ends them. -/
def receiveRows (r : Revision) : Decoder ρ ClientError (List Block) := do
  match ← Decoder.gather (decodeRows r) (consumes_decodeRows r) with
  | (blocks, .ok ()) => return blocks
  | (_, .error e) => .fail e

end

variable {ρ : Type} [Reader ρ] [Observable ρ]

/-- Whether a block is empty does not change on the way. -/
lemma rowsOrEnd_received (r : Revision) (block : Block) :
    (block.received r).rowsOrEnd =
      if block.isEmpty then .inr () else .inl (block.received r) := rfl

/-- A block that is sent is read back as rows, or as their end if it is empty. -/
lemma reads_decodeRows (r : Revision) {block : Block} (built : block.Built) (fits : block.Fits) :
    (decodeRows r : Decoder ρ ClientError (Block ⊕ Unit)).Reads ((Request.data block).encode r)
      (if block.isEmpty then .inr () else .inl (block.received r)) := by
  have unnamed : FitsText "" := by decide
  have body := Block.reads_decode (ρ := ρ) Registry.knowsBuiltin_builtin (r := r) built fits unnamed
  have renamed : ((Block.decode r .builtin).mapError Block.Halt.error :
      Decoder ρ ClientError Block).Reads (block.encode r) (block.received r) :=
    body.mapError fun e cut => cut
  apply ((Varint.reads_decode RequestKind.data.code).mapError ClientError.truncation_ofWire).bind
  rw [if_pos rfl, ← rowsOrEnd_received]
  exact renamed.map Block.rowsOrEnd

/-- Rows are read up to the first empty block. -/
lemma reads_receiveRows (r : Revision) {blocks : List Block} {last : Block}
    (all : ∀ block ∈ blocks, block.Built ∧ block.Fits ∧ block.isEmpty = false)
    (built : last.Built) (fits : last.Fits) (empty : last.isEmpty = true) :
    (receiveRows r : Decoder ρ ClientError (List Block)).Reads
      (blocks.flatMap (fun block => (Request.data block).encode r) ++ (Request.data last).encode r)
      (blocks.map (Block.received r)) := by
  have ends := reads_decodeRows (ρ := ρ) r built fits
  rw [empty] at ends
  refine Decoder.Reads.gather_bind (Block.received r) ?_ ends rfl fun _ _ => rfl
  intro block mem
  obtain ⟨built, fits, filled⟩ := all block mem
  have read := reads_decodeRows (ρ := ρ) r built fits
  rwa [filled] at read

end Submission

namespace Connection

variable {ρ σ : Type} [Reader ρ] [Reader σ] [Observable σ] {c c₁ c' : Connection ρ}
  {table : String} {block schema : Block} {ids ids' : QueryIds} {answer : Answer}
  {waiting : List Packet}

/-- Once the table has been described, an insert writes its rows and the end marker. -/
lemma rows_written (idle : c.state = .idle) (obliging : c.transport.Obliging)
    (clear : c.transport.staged = [])
    (described : c.busy.exchange (c.opening ids (insertQuery table)) .readiness =
      ((waiting, .ok (.data schema)), c₁))
    (called : c.call (.insert table block) ids = (answer, c', ids')) :
    c'.transport.staged = [] ∧
    c'.transport.sink.accepted = c₁.transport.sink.accepted ++
      ((Request.data block).encode c.revision ++ (Request.data .endMarker).encode c.revision) := by
  cases performed_of_call idle called with
  | undescribed exchanged => cases described.symm.trans exchanged
  | refused exchanged => cases described.symm.trans exchanged
  | inserted exchanged _ answered =>
    cases described.symm.trans exchanged
    have first := wrote_of_exchange (c := c.busy) obliging clear described
    have second := wrote_of_exchange first.obliging first.staged answered
    refine ⟨second.staged, second.accepted.trans ?_⟩
    rw [first.revision, Request.insertRows, Request.encodeAll, List.flatMap_cons,
      List.flatMap_singleton]
    rfl

/-- A server that reads rows up to the end marker finds the caller's block, and nothing remains of
what the insert wrote, if the block is not itself empty. An empty block it takes for the end marker:
it finds no rows, and the marker remains in front of the next request. -/
theorem rows_collected (built : block.Built) (fits : block.Fits) (idle : c.state = .idle)
    (obliging : c.transport.Obliging) (clear : c.transport.staged = [])
    (described : c.busy.exchange (c.opening ids (insertQuery table)) .readiness =
      ((waiting, .ok (.data schema)), c₁))
    (called : c.call (.insert table block) ids = (answer, c', ids')) :
    ∃ written, c'.transport.staged = [] ∧
      c'.transport.sink.accepted = c₁.transport.sink.accepted ++ written ∧
      ∀ {input : σ} {rest : Feed}, ByteStream.unread input = .ofBytes written ++ rest →
        ∃ left,
          (block.isEmpty = false →
            (Submission.receiveRows c.revision).run input =
              (.ok [block.received c.revision], left) ∧
            ByteStream.unread left = rest) ∧
          (block.isEmpty = true →
            (Submission.receiveRows c.revision).run input = (.ok [], left) ∧
            ByteStream.unread left =
              .ofBytes ((Request.data .endMarker).encode c.revision) ++ rest) := by
  obtain ⟨staged, accepted⟩ := rows_written idle obliging clear described called
  refine ⟨_, staged, accepted, fun {input rest} here => ?_⟩
  cases empty : block.isEmpty with
  | false =>
    have all : ∀ b ∈ [block], b.Built ∧ b.Fits ∧ b.isEmpty = false :=
      List.forall_mem_singleton.2 ⟨built, fits, empty⟩
    have marker : Block.endMarker.Fits := by decide
    have read := Submission.reads_receiveRows (ρ := σ) c.revision all .endMarker marker rfl
    rw [List.flatMap_singleton] at read
    obtain ⟨left, run, remains⟩ := read.whole here
    exact ⟨left, fun _ => ⟨run, remains⟩, nofun⟩
  | true =>
    rw [Feed.ofBytes_append, List.append_assoc] at here
    have read := Submission.reads_receiveRows (ρ := σ) c.revision (List.forall_mem_nil _) built
      fits empty
    obtain ⟨left, run, remains⟩ := read.whole here
    exact ⟨left, nofun, fun _ => ⟨run, remains⟩⟩

/-- The server describes its table to the insert. -/
lemma taking_described : ∃ waiting schema c₁,
    taking.busy.exchange (taking.opening {} (insertQuery "twins")) .readiness =
      ((waiting, .ok (.data schema)), c₁) := by
  have knows : taking.registry.KnowsBuiltin := Registry.knowsBuiltin_builtin
  have obliging : taking.transport.Obliging := ⟨rfl, nofun, nofun⟩
  have progress : ∀ q ∈ [Reply.progress 0 0 0], Phase.readiness.Takes false q :=
    List.forall_mem_singleton.2 ⟨trivial, rfl, rfl⟩
  have described : Phase.readiness.Takes true (.data "" .twins) :=
    ⟨⟨by decide, Block.twins_built, Block.twins_fits⟩, rfl, rfl⟩
  have response : Turn.takenInsert.encode elder.agreed =
      [Reply.progress 0 0 0, .data "" .twins].flatMap (Reply.encode elder.agreed) ++
        [Reply.endOfStream].flatMap (Reply.encode elder.agreed) := List.flatMap_append
  have here : taking.unread =
      .ofBytes (([Reply.progress 0 0 0] ++ [Reply.data "" .twins]).flatMap
        (Reply.encode elder.agreed)) ++
      Feed.ofBytes ([Reply.endOfStream].flatMap (Reply.encode elder.agreed)) := by
    rw [← Feed.ofBytes_append, List.cons_append, List.nil_append, ← response]
    exact Feed.calm_ofBytes _
  obtain ⟨t, exchanged, _⟩ := exchange_whole (c := taking.busy) knows obliging
    (taking.opening {} (insertQuery "twins")) .readiness progress described here
  exact ⟨_, _, _, exchanged⟩

/-- The twins are found by a server to which they are written. -/
theorem rows_collected_twins : ∃ (c₁ c' : Connection Feed) (answer : Answer) (ids' : QueryIds)
    (written : Bytes) (left : Feed),
    taking.call (.insert "twins" .twins) {} = (answer, c', ids') ∧
    c'.transport.sink.accepted = c₁.transport.sink.accepted ++ written ∧
    (Submission.receiveRows elder.agreed).run (Feed.ofBytes written) =
      (.ok [Block.twins.received elder.agreed], left) ∧
    ByteStream.unread left = [] := by
  obtain ⟨waiting, schema, c₁, described⟩ := taking_described
  have obliging : taking.transport.Obliging := ⟨rfl, nofun, nofun⟩
  obtain ⟨written, _, accepted, found⟩ := rows_collected (σ := Feed) Block.twins_built
    Block.twins_fits rfl obliging rfl described rfl
  obtain ⟨left, whole, _⟩ := found (unread_ofBytes written)
  obtain ⟨run, remains⟩ := whole rfl
  exact ⟨c₁, _, _, _, written, left, rfl, accepted, run, remains⟩

/-- A server to which an empty block is written finds no rows and has the end marker before it. -/
theorem rows_collected_empty : ∃ (c₁ c' : Connection Feed) (answer : Answer) (ids' : QueryIds)
    (written : Bytes) (left : Feed),
    taking.call (.insert "twins" .endMarker) {} = (answer, c', ids') ∧
    c'.transport.sink.accepted = c₁.transport.sink.accepted ++ written ∧
    (Submission.receiveRows elder.agreed).run (Feed.ofBytes written) = (.ok [], left) ∧
    ByteStream.unread left = .ofBytes ((Request.data .endMarker).encode elder.agreed) ∧
    ByteStream.unread left ≠ [] := by
  obtain ⟨waiting, schema, c₁, described⟩ := taking_described
  have obliging : taking.transport.Obliging := ⟨rfl, nofun, nofun⟩
  have fits : Block.endMarker.Fits := by decide
  obtain ⟨answer, c', ids', called⟩ : ∃ answer c' ids',
      taking.call (.insert "twins" .endMarker) {} = (answer, c', ids') := ⟨_, _, _, rfl⟩
  obtain ⟨_, accepted⟩ := rows_written rfl obliging rfl described called
  have here : ByteStream.unread (Feed.ofBytes ((Request.data .endMarker).encode elder.agreed ++
        (Request.data .endMarker).encode elder.agreed)) =
      .ofBytes ((Request.data .endMarker).encode elder.agreed) ++
        Feed.ofBytes ((Request.data .endMarker).encode elder.agreed) :=
    (Feed.calm_ofBytes _).trans (Feed.ofBytes_append _ _)
  have read := Submission.reads_receiveRows (ρ := Feed) elder.agreed (List.forall_mem_nil _)
    .endMarker fits rfl
  obtain ⟨left, run, remains⟩ := read.whole here
  refine ⟨c₁, c', answer, ids', _, left, called, accepted, run, remains, ?_⟩
  rw [remains]
  exact mt List.map_eq_nil_iff.1 (Request.encode_ne_nil _ _)

end Connection

end Columnar
