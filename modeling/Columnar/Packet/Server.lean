import Columnar.Block.Codec

/-!
# Packets of the server

What a server can say, and how its packets are read. A packet is read only if its kind may come in
the present phase; `Phase.receive` reads packets until one ends the phase and hands on everything
that came before, whether the phase ended well or not.
-/

namespace Columnar

open Wire

/-- What a server says about itself. -/
structure ServerInfo where
  name : String := ""
  versionMajor : UInt64 := 0
  versionMinor : UInt64 := 0
  revision : UInt64 := 0
  timezone : Option String := none
  deriving DecidableEq, Repr, Inhabited

/-- How far a query has come. -/
structure Progress where
  rows : UInt64
  bytes : UInt64
  /-- Absent where the revision does not have it. -/
  totalRows : Option UInt64
  deriving DecidableEq, Repr

/-- What a query has cost. -/
structure Profile where
  rows : UInt64
  blocks : UInt64
  bytes : UInt64
  appliedLimit : Bool
  rowsBeforeLimit : UInt64
  calculatedRowsBeforeLimit : Bool
  deriving DecidableEq, Repr

/-- A packet of the server. -/
inductive Packet where
  | hello (info : ServerInfo)
  | data (block : Block)
  | exception (e : ServerException)
  | progress (p : Progress)
  | pong
  | endOfStream
  | profileInfo (p : Profile)

/-- The kind of the packet. -/
def Packet.kind : Packet → PacketKind
  | .hello _ => .hello
  | .data _ => .data
  | .exception _ => .exception
  | .progress _ => .progress
  | .pong => .pong
  | .endOfStream => .endOfStream
  | .profileInfo _ => .profileInfo

variable {ρ : Type} [ByteStream.Reader ρ]

/-- Reads a value if the revision has it. -/
def decodeGated {ε α : Type} (r : Revision) (f : Feature) (d : Decoder ρ ε α) :
    Decoder ρ ε (Option α) :=
  if r.supports f then some <$> d else pure none

/-- Reads what a server says about itself; its revision decides whether it names a timezone. -/
def ServerInfo.decode : Decoder ρ Error ServerInfo := do
  let name ← decodeText
  let versionMajor ← Varint.decode
  let versionMinor ← Varint.decode
  let revision ← Varint.decode
  let timezone ← decodeGated (.negotiate revision) .serverTimezone decodeText
  return { name, versionMajor, versionMinor, revision, timezone }

/-- Reads how far a query has come. -/
def Progress.decode (r : Revision) : Decoder ρ Error Progress := do
  let rows ← Varint.decode
  let bytes ← Varint.decode
  let totalRows ← decodeGated r .totalRowsInProgress Varint.decode
  return { rows, bytes, totalRows }

/-- Reads what a query has cost. -/
def Profile.decode : Decoder ρ Error Profile := do
  let rows ← Varint.decode
  let blocks ← Varint.decode
  let bytes ← Varint.decode
  let appliedLimit ← decodeBool
  let rowsBeforeLimit ← Varint.decode
  let calculatedRowsBeforeLimit ← decodeBool
  return { rows, blocks, bytes, appliedLimit, rowsBeforeLimit, calculatedRowsBeforeLimit }

namespace Packet

/-- Reads what follows the code of a packet. -/
def decodeBody (r : Revision) (registry : Registry) : PacketKind → Decoder ρ ClientError Packet
  | .hello => (.hello <$> ServerInfo.decode).mapError .ofWire
  | .data => (.data <$> Block.decode r registry).mapError Block.Halt.error
  | .exception => (.exception <$> ServerException.decode).mapError .ofWire
  | .progress => (.progress <$> Progress.decode r).mapError .ofWire
  | .pong => pure .pong
  | .endOfStream => pure .endOfStream
  | .profileInfo => (.profileInfo <$> Profile.decode).mapError .ofWire

/-- The kind that a code stands for, if such a packet may come in the phase. -/
def permit (phase : Phase) (code : UInt64) : Except ClientError PacketKind :=
  match PacketKind.ofCode? code with
  | none => .error (.protocol (.unknownPacket code))
  | some kind =>
    if phase.accepts kind then .ok kind
    else .error (.protocol (.unexpectedPacket phase kind))

/-- Reads a packet that may come in the phase. -/
def decode (phase : Phase) (r : Revision) (registry : Registry) : Decoder ρ ClientError Packet :=
  Varint.decode.mapError .ofWire >>= fun code =>
    .ofExcept (permit phase code) >>= decodeBody r registry

/-- A packet takes at least its code. -/
theorem consumes_decode (phase : Phase) (r : Revision) (registry : Registry) :
    (decode phase r registry : Decoder ρ ClientError Packet).Consumes :=
  (Varint.consumes_decode.mapError _).bind _

end Packet

namespace Phase

/-- Reads a packet and tells whether it ends the phase. -/
def step (phase : Phase) (r : Revision) (registry : Registry) :
    Decoder ρ ClientError (Packet ⊕ Packet) :=
  (fun p => if phase.endsWith p.kind then .inr p else .inl p) <$> Packet.decode phase r registry

/-- A step of a phase takes at least the code of a packet. -/
theorem consumes_step (phase : Phase) (r : Revision) (registry : Registry) :
    (step phase r registry : Decoder ρ ClientError (Packet ⊕ Packet)).Consumes :=
  (Packet.consumes_decode phase r registry).map _

/-- Reads packets until one ends the phase: those before it, and that one or the error. -/
def receive {ε : Type} (phase : Phase) (r : Revision) (registry : Registry) :
    Decoder ρ ε (List Packet × Except ClientError Packet) :=
  .gather (phase.step r registry) (phase.consumes_step r registry)

end Phase

end Columnar
