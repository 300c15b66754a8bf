import Columnar.Event
import Columnar.Proofs.Block.RoundTrip

/-!
# What a server sends

`Greeting` and `Reply` are what a server says, with all that the wire carries of it; `encode` lays
it out at a revision, field by field, and `packet` is what a client at that revision makes of it.
Every reply is read back wherever it may come (`Reply.reads_step`), and so is the greeting
(`Greeting.reads_decode`).
-/

namespace Columnar

open ByteStream Wire

variable {ρ : Type} [Reader ρ] [Observable ρ]

namespace ExceptionRecord

/-- The texts of the record are not too long for the wire. -/
structure Fits (e : ExceptionRecord) : Prop where
  name : FitsText e.name
  displayText : FitsText e.displayText
  stackTrace : FitsText e.stackTrace

end ExceptionRecord

namespace ServerException

/-- The texts of all records are not too long for the wire. -/
def Fits (e : ServerException) : Prop := ∀ record ∈ e.chain, record.Fits

/-- An exception is its outer records and the last one, and so are its bytes. -/
lemma exists_records (e : ServerException) :
    ∃ outer last, e = ofRecords outer last ∧ e.chain = outer ++ [last] ∧
      e.encode = outer.flatMap (encodeRecord · true) ++ encodeRecord last false := by
  induction e with
  | root record => exact ⟨[], record, rfl, rfl, rfl⟩
  | causedBy record cause ih =>
    obtain ⟨outer, last, made, chained, bytes⟩ := ih
    refine ⟨record :: outer, last, ?_, ?_, ?_⟩
    · exact congrArg (causedBy record) made
    · exact congrArg (record :: ·) chained
    · rw [encode, bytes, List.flatMap_cons, List.append_assoc]

/-- A record of an exception is read as it was written, and so is whether another follows. -/
lemma reads_decodeRecord {e : ExceptionRecord} (fits : e.Fits) (nested : Bool) :
    (decodeRecord : Decoder ρ Error (ExceptionRecord ⊕ ExceptionRecord)).Reads
      (encodeRecord e nested) (if nested then .inl e else .inr e) := by
  rw [encodeRecord, List.append_assoc, List.append_assoc, List.append_assoc]
  apply (reads_decodeInt32 e.code).bind
  apply (reads_decodeText fits.name).bind
  apply (reads_decodeText fits.displayText).bind
  apply (reads_decodeText fits.stackTrace).bind
  exact (reads_decodeBool nested).bind_pure (.pure _)

/-- An exception is read as it was written. -/
lemma reads_decode {e : ServerException} (fits : e.Fits) :
    (decode : Decoder ρ Error ServerException).Reads e.encode e := by
  obtain ⟨outer, last, made, chained, bytes⟩ := e.exists_records
  rw [Fits, chained] at fits
  rw [bytes]
  refine Decoder.Reads.gather_bind (b := last) (fun record => record) ?_ ?_ ?_ ?_
  · exact fun record mem => reads_decodeRecord (fits record (List.mem_append_left _ mem)) true
  · exact reads_decodeRecord (fits last (List.mem_append_right _ List.mem_cons_self)) false
  · rw [List.map_id', made]
  · exact fun as error => rfl

end ServerException

/-- What a server sends in answer to a request. -/
inductive Reply where
  | data (table : String) (block : Block)
  | exception (e : ServerException)
  | progress (rows bytes totalRows : UInt64)
  | pong
  | endOfStream
  | profileInfo (p : Profile)

/-- The bytes of a profile. -/
def Profile.encode (p : Profile) : Bytes :=
  Varint.encode p.rows ++ Varint.encode p.blocks ++ Varint.encode p.bytes ++
    encodeBool p.appliedLimit ++ Varint.encode p.rowsBeforeLimit ++
    encodeBool p.calculatedRowsBeforeLimit

namespace Reply

/-- The kind of packet that the reply is. -/
def kind : Reply → PacketKind
  | .data .. => .data
  | .exception _ => .exception
  | .progress .. => .progress
  | .pong => .pong
  | .endOfStream => .endOfStream
  | .profileInfo _ => .profileInfo

/-- The bytes of the reply: its code, and what the revision has of it. -/
def encode (r : Revision) : Reply → Bytes
  | .data table block => Varint.encode 1 ++ block.encodeFor table r
  | .exception e => Varint.encode 2 ++ e.encode
  | .progress rows bytes totalRows =>
    Varint.encode 3 ++ (Varint.encode rows ++ Varint.encode bytes ++
      if 51554 ≤ r.number then Varint.encode totalRows else [])
  | .pong => Varint.encode 4
  | .endOfStream => Varint.encode 5
  | .profileInfo p => Varint.encode 6 ++ p.encode

/-- What a client makes of the reply. -/
def packet (r : Revision) : Reply → Packet
  | .data _ block => .data (block.received r)
  | .exception e => .exception e
  | .progress rows bytes totalRows =>
    .progress { rows, bytes, totalRows := if 51554 ≤ r.number then some totalRows else none }
  | .pong => .pong
  | .endOfStream => .endOfStream
  | .profileInfo p => .profileInfo p

/-- The reply can be sent: its block can be put together, and nothing is too long for the wire. -/
def Fits : Reply → Prop
  | .data table block => FitsText table ∧ block.Built ∧ block.Fits
  | .exception e => e.Fits
  | _ => True

/-- The packet of a reply is of the reply's kind. -/
lemma kind_packet (r : Revision) (q : Reply) : (q.packet r).kind = q.kind := by
  cases q <;> rfl

/-- The packet of a block is no exception. -/
lemma packet_ne_exception {q : Reply} (h : q.kind = .data) (r : Revision) (e : ServerException) :
    q.packet r ≠ .exception e := by
  cases q with
  | data table block => exact nofun
  | _ => cases h

end Reply

/-- Progress is read as it was written, with its total if the revision has one. -/
lemma Progress.reads_decode (r : Revision) (rows bytes totalRows : UInt64) :
    (Progress.decode r : Decoder ρ Error Progress).Reads
      (Varint.encode rows ++ Varint.encode bytes ++
        if 51554 ≤ r.number then Varint.encode totalRows else [])
      { rows, bytes, totalRows := if 51554 ≤ r.number then some totalRows else none } := by
  rw [List.append_assoc]
  apply (Varint.reads_decode rows).bind
  apply (Varint.reads_decode bytes).bind
  exact (reads_decodeGated (f := .totalRowsInProgress) (Varint.reads_decode totalRows)).bind_pure
    (.pure _)

/-- A profile is read as it was written. -/
lemma Profile.reads_decode (p : Profile) :
    (Profile.decode : Decoder ρ Error Profile).Reads p.encode p := by
  rw [Profile.encode, List.append_assoc, List.append_assoc, List.append_assoc, List.append_assoc]
  apply (Varint.reads_decode p.rows).bind
  apply (Varint.reads_decode p.blocks).bind
  apply (Varint.reads_decode p.bytes).bind
  apply (reads_decodeBool p.appliedLimit).bind
  apply (Varint.reads_decode p.rowsBeforeLimit).bind
  exact (reads_decodeBool p.calculatedRowsBeforeLimit).bind_pure (.pure p)

namespace Packet

variable {registry : Registry}

/-- A packet of a kind that may come begins with the code of its kind. -/
lemma reads_decode (code : UInt64) {phase : Phase} {r : Revision} {kind : PacketKind} {bs : Bytes}
    {p : Packet} (known : PacketKind.ofCode? code = some kind)
    (accepted : phase.accepts kind = true)
    (body : (decodeBody r registry kind : Decoder ρ ClientError Packet).Reads bs p) :
    (decode phase r registry : Decoder ρ ClientError Packet).Reads
      (Varint.encode code ++ bs) p := by
  apply ((Varint.reads_decode code).mapError ClientError.truncation_ofWire).bind
  have permitted : permit phase code = .ok kind := by
    rw [permit, known]
    exact if_pos accepted
  rw [permitted]
  exact (Decoder.Reads.pure kind).bind body

end Packet

namespace Reply

variable {registry : Registry}

/-- A reply is read as its packet wherever it is accepted. -/
lemma reads_packet (knows : registry.KnowsBuiltin) {phase : Phase} (r : Revision) {q : Reply}
    (fits : q.Fits) (accepted : phase.accepts q.kind = true) :
    (Packet.decode phase r registry : Decoder ρ ClientError Packet).Reads (q.encode r)
      (q.packet r) := by
  cases q with
  | data table block =>
    obtain ⟨named, built, fits⟩ := fits
    refine Packet.reads_decode 1 rfl accepted ?_
    exact ((Block.reads_decode knows built fits named).map Packet.data).mapError fun e h => h
  | exception e =>
    refine Packet.reads_decode 2 rfl accepted ?_
    exact ((ServerException.reads_decode fits).map Packet.exception).mapError
      ClientError.truncation_ofWire
  | progress rows bytes totalRows =>
    refine Packet.reads_decode 3 rfl accepted ?_
    exact ((Progress.reads_decode r rows bytes totalRows).map Packet.progress).mapError
      ClientError.truncation_ofWire
  | pong =>
    rw [encode, ← List.append_nil (Varint.encode 4)]
    exact Packet.reads_decode 4 rfl accepted (.pure _)
  | endOfStream =>
    rw [encode, ← List.append_nil (Varint.encode 5)]
    exact Packet.reads_decode 5 rfl accepted (.pure _)
  | profileInfo p =>
    refine Packet.reads_decode 6 rfl accepted ?_
    exact ((Profile.reads_decode p).map Packet.profileInfo).mapError ClientError.truncation_ofWire

/-- The reply is taken as the last one if it ends the phase. -/
lemma reads_step (knows : registry.KnowsBuiltin) {phase : Phase} (r : Revision) {q : Reply}
    (fits : q.Fits) (accepted : phase.accepts q.kind = true) :
    (phase.step r registry : Decoder ρ ClientError (Packet ⊕ Packet)).Reads (q.encode r)
      (if phase.endsWith q.kind then .inr (q.packet r) else .inl (q.packet r)) := by
  have read := (reads_packet (ρ := ρ) knows r fits accepted).map fun p : Packet =>
    if phase.endsWith p.kind then (.inr p : Packet ⊕ Packet) else .inl p
  rwa [kind_packet] at read

end Reply

namespace Phase

variable {registry : Registry} {ε : Type}

/-- The reply can be sent, may come in the phase, and ends it or does not. -/
structure Takes (phase : Phase) (ends : Bool) (q : Reply) : Prop where
  fits : q.Fits
  accepts : phase.accepts q.kind = true
  endsWith : phase.endsWith q.kind = ends

/-- A reply that leaves the phase open is a step that goes on. -/
lemma Takes.reads_inl (knows : registry.KnowsBuiltin) {phase : Phase} {q : Reply}
    (h : phase.Takes false q) (r : Revision) :
    (phase.step r registry : Decoder ρ ClientError (Packet ⊕ Packet)).Reads (q.encode r)
      (.inl (q.packet r)) := by
  have read := q.reads_step (ρ := ρ) knows r h.fits h.accepts
  rw [h.endsWith] at read
  exact read

/-- A reply that ends the phase is a step that stops. -/
lemma Takes.reads_inr (knows : registry.KnowsBuiltin) {phase : Phase} {q : Reply}
    (h : phase.Takes true q) (r : Revision) :
    (phase.step r registry : Decoder ρ ClientError (Packet ⊕ Packet)).Reads (q.encode r)
      (.inr (q.packet r)) := by
  have read := q.reads_step (ρ := ρ) knows r h.fits h.accepts
  rw [h.endsWith] at read
  exact read

/-- A phase takes the replies up to the first one that ends it, and leaves what follows. -/
lemma receive_whole (knows : registry.KnowsBuiltin) (phase : Phase) {r : Revision}
    {before : List Reply} {last : Reply} (midway : ∀ q ∈ before, phase.Takes false q)
    (closing : phase.Takes true last) {s : ρ} {rest : Feed}
    (here : unread s = .ofBytes ((before ++ [last]).flatMap (Reply.encode r)) ++ rest) :
    ∃ s', (phase.receive r registry : Decoder ρ ε _).run s =
        (.ok (before.map (Reply.packet r), .ok (last.packet r)), s') ∧ unread s' = rest := by
  rw [List.flatMap_append, List.flatMap_singleton, Feed.ofBytes_append, List.append_assoc] at here
  obtain ⟨got, s₁, goes, values, left⟩ := Decoder.Reads.gatherOnto_append
    (h := phase.consumes_step r registry) (fun q mem => (midway q mem).reads_inl knows r) #[] here
  obtain ⟨s', run, left⟩ := (closing.reads_inr knows r).whole left
  -- The packets before the last one have been gathered, and with the last one gathering ends.
  refine ⟨s', ?_, left⟩
  simp only [receive, Decoder.gather, goes, Decoder.gatherOnto_inr run, values, List.nil_append]

/-- Where the stream ends within a reply, a phase has taken the replies before it and fails. -/
lemma receive_short (knows : registry.KnowsBuiltin) (phase : Phase) {r : Revision}
    {before : List Reply} {next : Reply} {ends : Bool} (midway : ∀ q ∈ before, phase.Takes false q)
    (taken : phase.Takes ends next) {p : Bytes} (c : CutShort p (next.encode r)) {s : ρ}
    (here : unread s = .ofBytes (before.flatMap (Reply.encode r) ++ p)) :
    ∃ s', (phase.receive r registry : Decoder ρ ε _).run s =
        (.ok (before.map (Reply.packet r), .error (.transport .truncated)), s') := by
  obtain ⟨e, s', goes, rfl⟩ := Decoder.Reads.gatherOnto_short (h := phase.consumes_step r registry)
    (fun q mem => (midway q mem).reads_inl knows r) #[]
    (next.reads_step knows r taken.fits taken.accepts) c here
  refine ⟨s', ?_⟩
  simp only [receive, Decoder.gather, goes, List.nil_append]

end Phase

/-- What a server sends when a connection is opened. -/
structure Greeting where
  name : String
  versionMajor : UInt64
  versionMinor : UInt64
  revision : UInt64
  timezone : String

namespace Greeting

/-- The bytes of the greeting; the timezone is there if both sides are recent enough. -/
def encode (g : Greeting) : Bytes :=
  Varint.encode 0 ++ (encodeText g.name ++ Varint.encode g.versionMajor ++
    Varint.encode g.versionMinor ++ Varint.encode g.revision ++
    if 54058 ≤ min g.revision 54126 then encodeText g.timezone else [])

/-- What a client learns from the greeting. -/
def info (g : Greeting) : ServerInfo where
  name := g.name
  versionMajor := g.versionMajor
  versionMinor := g.versionMinor
  revision := g.revision
  timezone := if 54058 ≤ min g.revision 54126 then some g.timezone else none

/-- The texts of the greeting are not too long for the wire. -/
structure Fits (g : Greeting) : Prop where
  name : FitsText g.name
  timezone : FitsText g.timezone

/-- A greeting is read as it was meant. -/
lemma reads_decode {g : Greeting} (fits : g.Fits) {r : Revision} {registry : Registry} :
    (Packet.decode .opening r registry : Decoder ρ ClientError Packet).Reads g.encode
      (.hello g.info) := by
  refine Packet.reads_decode 0 rfl rfl (Decoder.Reads.mapError (Decoder.Reads.map ?_ Packet.hello)
    ClientError.truncation_ofWire)
  rw [List.append_assoc, List.append_assoc, List.append_assoc]
  apply (reads_decodeText fits.name).bind
  apply (Varint.reads_decode g.versionMajor).bind
  apply (Varint.reads_decode g.versionMinor).bind
  apply (Varint.reads_decode g.revision).bind
  exact (reads_decodeGated (f := .serverTimezone) (reads_decodeText fits.timezone)).bind_pure
    (.pure _)

end Greeting

end Columnar
