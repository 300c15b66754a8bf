import Columnar.Packet.Server
import Columnar.Proofs.Block.RoundTrip
import Columnar.Proofs.Wire.Agrees

/-!
# What is read depends on the stream alone

Every decoder of the protocol agrees with itself over any other kind of reader, from varints to
packets and whole phases: where the same stands in the stream, the same is read and the same is left,
however the stream cuts it into calls, and what stands behind a packet has no part in how it is read.
-/

namespace Columnar

open ByteStream Wire

variable {ρ σ : Type} [Reader ρ] [Observable ρ] [Reader σ] [Observable σ] {α : Type}

namespace Wire

/-- The groups of a number are read alike from any reader. -/
lemma Varint.agrees_decodeGroups (left : Nat) :
    (decodeGroups left : Decoder ρ Error Nat).Agrees (decodeGroups left : Decoder σ Error Nat) := by
  induction left with
  | zero => exact .fail _
  | succ left ih =>
    refine Decoder.Agrees.bind .byte fun b => ?_
    dsimp only
    split
    · exact .fail _
    · split
      · exact .pure _
      · exact Decoder.Agrees.bind ih fun high => .pure _

/-- A number is read alike from any reader. -/
lemma Varint.agrees_decode :
    (decode : Decoder ρ Error UInt64).Agrees (decode : Decoder σ Error UInt64) :=
  (agrees_decodeGroups maxLength).map UInt64.ofNat

/-- A word is read alike from any reader. -/
lemma agrees_decodeWord (width : Nat) :
    (decodeWord width : Decoder ρ Error _).Agrees (decodeWord width : Decoder σ Error _) :=
  Decoder.Agrees.bind (.take width) fun _ => .pure _

/-- A truth value is read alike from any reader. -/
lemma agrees_decodeBool :
    (decodeBool : Decoder ρ Error Bool).Agrees (decodeBool : Decoder σ Error Bool) := by
  refine Decoder.Agrees.bind .byte fun b => ?_
  split
  · exact .pure false
  · split
    · exact .pure true
    · exact .fail _

/-- A signed word is read alike from any reader. -/
lemma agrees_decodeInt32 :
    (decodeInt32 : Decoder ρ Error Int32).Agrees (decodeInt32 : Decoder σ Error Int32) :=
  Decoder.Agrees.bind (agrees_decodeWord 4) fun _ => .pure _

/-- Bytes that are announced by their length are read alike from any reader. -/
lemma agrees_decodeBytes :
    (decodeBytes : Decoder ρ Error Bytes).Agrees (decodeBytes : Decoder σ Error Bytes) :=
  Decoder.Agrees.bind Varint.agrees_decode fun n => .take n.toNat

/-- A text is read alike from any reader. -/
lemma agrees_decodeText :
    (decodeText : Decoder ρ Error String).Agrees (decodeText : Decoder σ Error String) := by
  refine Decoder.Agrees.bind agrees_decodeBytes fun bs => ?_
  cases Utf8.decode bs with
  | ok s => exact .pure s
  | error fault => exact .fail _

/-- A cell is read alike from any reader, whatever its kind. -/
lemma Kind.agrees_decode (k : Kind) :
    (k.decode : Decoder ρ Error k.Value).Agrees (k.decode : Decoder σ Error k.Value) := by
  cases k with
  | varint => exact Varint.agrees_decode
  | length => exact Varint.agrees_decode
  | bytes => exact agrees_decodeBytes
  | text => exact agrees_decodeText
  | bool => exact agrees_decodeBool
  | scalar s => exact agrees_decodeWord s.width

end Wire

namespace ServerException

/-- A record of an exception is read alike from any reader. -/
lemma agrees_decodeRecord :
    (decodeRecord : Decoder ρ Error (ExceptionRecord ⊕ ExceptionRecord)).Agrees
      (decodeRecord : Decoder σ Error (ExceptionRecord ⊕ ExceptionRecord)) := by
  refine Decoder.Agrees.bind agrees_decodeInt32 fun code => ?_
  refine Decoder.Agrees.bind agrees_decodeText fun name => ?_
  refine Decoder.Agrees.bind agrees_decodeText fun displayText => ?_
  refine Decoder.Agrees.bind agrees_decodeText fun stackTrace => ?_
  exact Decoder.Agrees.bind agrees_decodeBool fun nested => .pure _

/-- An exception is read alike from any reader. -/
lemma agrees_decode :
    (decode : Decoder ρ Error ServerException).Agrees
      (decode : Decoder σ Error ServerException) := by
  refine Decoder.Agrees.gather_bind agrees_decodeRecord ofRecords ?_ ?_ ?_ ?_
  · exact fun outer last => rfl
  · exact fun outer last => rfl
  · exact fun outer e => rfl
  · exact fun outer e => rfl

end ServerException

/-- What a revision may lack is read alike if it is where it is there. -/
lemma agrees_decodeGated {ε : Type} [Truncation ε] {r : Revision} {f : Feature} {d : Decoder ρ ε α}
    {d' : Decoder σ ε α} (h : d.Agrees d') : (decodeGated r f d).Agrees (decodeGated r f d') := by
  rw [decodeGated, decodeGated]
  split
  · exact h.map some
  · exact .pure none

namespace BlockInfo

/-- A field behind its tag is read alike from any reader. -/
lemma agrees_decodeTagged (tag : UInt64) :
    (decodeTagged tag : Decoder ρ ClientError (Field ⊕ Unit)).Agrees
      (decodeTagged tag : Decoder σ ClientError (Field ⊕ Unit)) := by
  have kept := ClientError.truncation_ofWire
  rw [decodeTagged, decodeTagged]
  split
  · exact .pure _
  · split
    · exact Decoder.Agrees.bind (agrees_decodeBool.mapError kept) fun b => .pure _
    · split
      · exact Decoder.Agrees.bind (agrees_decodeInt32.mapError kept) fun n => .pure _
      · exact .fail _

/-- A field and its tag are read alike from any reader. -/
lemma agrees_decodeField :
    (decodeField : Decoder ρ ClientError (Field ⊕ Unit)).Agrees
      (decodeField : Decoder σ ClientError (Field ⊕ Unit)) :=
  (Varint.agrees_decode.mapError ClientError.truncation_ofWire).bind agrees_decodeTagged

/-- The info of a block is read alike from any reader. -/
lemma agrees_decode :
    (decode : Decoder ρ ClientError BlockInfo).Agrees (decode : Decoder σ ClientError BlockInfo) := by
  refine Decoder.Agrees.gather_bind agrees_decodeField (fun fields _ => ofFields fields) ?_ ?_ ?_ ?_
  · exact fun fields _ => rfl
  · exact fun fields _ => rfl
  · exact fun fields e => rfl
  · exact fun fields e => rfl

end BlockInfo

/-- A column is loaded alike from any reader. -/
lemma Column.agrees_load (rows : Nat) (c : Column) :
    (c.load rows : Decoder ρ (Error × Column) Column).Agrees
      (c.load rows : Decoder σ (Error × Column) Column) := by
  refine Decoder.Agrees.bind (.mapError (.many c.type.kind.agrees_decode rows) ?_) fun values => ?_
  · exact fun e cut => cut
  · exact .pure (c.append values)

namespace Block

/-- The column of a block is filled alike from any reader. -/
lemma agrees_fill (rows : Nat) (b : Block) (column : Column) :
    (fill rows b column : Decoder ρ Halt Column).Agrees
      (fill rows b column : Decoder σ Halt Column) := by
  rw [fill, fill]
  split
  · exact .pure column
  · refine (Column.agrees_load rows column).mapError ?_
    exact fun e h => Halt.truncation_ofWire b (some e.2) e.1 h

/-- A column takes its place in a block without reading. -/
lemma agrees_place (b : Block) (name : String) (column : Column) :
    (place b name column : Decoder ρ Halt Block).Agrees
      (place b name column : Decoder σ Halt Block) := by
  rw [place, place]
  cases b.append name column with
  | ok b' => exact .pure b'
  | error e => exact .fail _

/-- A column, its name and its type are read alike from any reader. -/
lemma agrees_decodeColumn (registry : Registry) (rows : Nat) (b : Block) :
    (decodeColumn registry rows b : Decoder ρ Halt Block).Agrees
      (decodeColumn registry rows b : Decoder σ Halt Block) := by
  have cut := Halt.truncation_ofWire b none
  rw [decodeColumn_eq, decodeColumn_eq]
  refine Decoder.Agrees.bind (agrees_decodeText.mapError cut) fun name => ?_
  refine Decoder.Agrees.bind (agrees_decodeText.mapError cut) fun typeName => ?_
  rw [decodeValues, decodeValues]
  cases registry typeName with
  | none => exact .fail _
  | some column => exact (agrees_fill rows b column).bind (agrees_place b name)

/-- The info that a revision may lack is read alike from any reader. -/
lemma agrees_decodeInfo (r : Revision) :
    (decodeInfo r : Decoder ρ ClientError BlockInfo).Agrees
      (decodeInfo r : Decoder σ ClientError BlockInfo) := by
  rw [decodeInfo_eq, decodeInfo_eq]
  exact (agrees_decodeGated BlockInfo.agrees_decode).map _

/-- A block is read alike from any reader. -/
lemma agrees_decode (r : Revision) (registry : Registry) :
    (decode r registry : Decoder ρ Halt Block).Agrees (decode r registry : Decoder σ Halt Block) := by
  have cut := Halt.truncation_ofWire {} none
  rw [decode_eq, decode_eq]
  refine Decoder.Agrees.bind (.mapError (agrees_decodeGated agrees_decodeText) cut) fun table => ?_
  refine Decoder.Agrees.bind (.mapError (agrees_decodeInfo r) fun e h => h) fun info => ?_
  refine Decoder.Agrees.bind (.mapError Varint.agrees_decode cut) fun columns => ?_
  refine Decoder.Agrees.bind (.mapError Varint.agrees_decode cut) fun rows => ?_
  exact .iterate (agrees_decodeColumn registry rows.toNat) columns.toNat _

end Block

/-- The greeting of the server is read alike from any reader. -/
lemma ServerInfo.agrees_decode :
    (decode : Decoder ρ Error ServerInfo).Agrees (decode : Decoder σ Error ServerInfo) := by
  refine Decoder.Agrees.bind agrees_decodeText fun name => ?_
  refine Decoder.Agrees.bind Varint.agrees_decode fun versionMajor => ?_
  refine Decoder.Agrees.bind Varint.agrees_decode fun versionMinor => ?_
  refine Decoder.Agrees.bind Varint.agrees_decode fun revision => ?_
  exact Decoder.Agrees.bind (agrees_decodeGated agrees_decodeText) fun timezone => .pure _

/-- Progress is read alike from any reader. -/
lemma Progress.agrees_decode (r : Revision) :
    (decode r : Decoder ρ Error Progress).Agrees (decode r : Decoder σ Error Progress) := by
  refine Decoder.Agrees.bind Varint.agrees_decode fun rows => ?_
  refine Decoder.Agrees.bind Varint.agrees_decode fun bytes => ?_
  exact Decoder.Agrees.bind (agrees_decodeGated Varint.agrees_decode) fun totalRows => .pure _

/-- A profile is read alike from any reader. -/
lemma Profile.agrees_decode :
    (decode : Decoder ρ Error Profile).Agrees (decode : Decoder σ Error Profile) := by
  refine Decoder.Agrees.bind Varint.agrees_decode fun rows => ?_
  refine Decoder.Agrees.bind Varint.agrees_decode fun blocks => ?_
  refine Decoder.Agrees.bind Varint.agrees_decode fun bytes => ?_
  refine Decoder.Agrees.bind agrees_decodeBool fun appliedLimit => ?_
  refine Decoder.Agrees.bind Varint.agrees_decode fun rowsBeforeLimit => ?_
  exact Decoder.Agrees.bind agrees_decodeBool fun calculated => .pure _

namespace Packet

/-- The body of a packet is read alike from any reader. -/
lemma agrees_decodeBody (r : Revision) (registry : Registry) (kind : PacketKind) :
    (decodeBody r registry kind : Decoder ρ ClientError Packet).Agrees
      (decodeBody r registry kind : Decoder σ ClientError Packet) := by
  have kept := ClientError.truncation_ofWire
  cases kind with
  | hello => exact (ServerInfo.agrees_decode.map Packet.hello).mapError kept
  | data => exact ((Block.agrees_decode r registry).map Packet.data).mapError fun e h => h
  | exception => exact (ServerException.agrees_decode.map Packet.exception).mapError kept
  | progress => exact ((Progress.agrees_decode r).map Packet.progress).mapError kept
  | pong => exact .pure _
  | endOfStream => exact .pure _
  | profileInfo => exact (Profile.agrees_decode.map Packet.profileInfo).mapError kept

/-- A packet is read alike from any reader. -/
lemma agrees_decode (phase : Phase) (r : Revision) (registry : Registry) :
    (decode phase r registry : Decoder ρ ClientError Packet).Agrees
      (decode phase r registry : Decoder σ ClientError Packet) := by
  refine Decoder.Agrees.bind (Varint.agrees_decode.mapError ClientError.truncation_ofWire) ?_
  intro code
  exact Decoder.Agrees.bind (.ofExcept (permit phase code)) (agrees_decodeBody r registry)

end Packet

/-- A step of a phase is taken alike over any reader. -/
lemma Phase.agrees_step (phase : Phase) (r : Revision) (registry : Registry) :
    (phase.step r registry : Decoder ρ ClientError (Packet ⊕ Packet)).Agrees
      (phase.step r registry : Decoder σ ClientError (Packet ⊕ Packet)) :=
  (Packet.agrees_decode phase r registry).map _

end Columnar
