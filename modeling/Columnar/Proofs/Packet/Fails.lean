import Columnar.Proofs.Block.Parts
import Columnar.Proofs.Wire.Fails
import Mathlib.Tactic.SplitIfs

/-!
# Errors of packets

While packets are received, an error is a failure of the stream or what came breaks the protocol
(`ClientError.OfStream`). Bytes that encode no value are not taken for a failure of the stream, at
whatever depth of a packet they stand.
-/

namespace Columnar

open Wire

/-- Either the stream has failed or what came over it breaks the protocol. -/
inductive ClientError.OfStream : ClientError → Prop where
  | transport {e : Error} :
    (∀ reason, e ≠ .malformed reason) →
    OfStream (.transport e)
  | protocol (e : ProtocolError) : OfStream (.protocol e)

/-- A fault of the encoding has to do with the stream. -/
lemma ClientError.ofStream_ofWire (e : Error) : (ofWire e).OfStream := by
  cases e with
  | malformed reason => exact .protocol (.malformed reason)
  | _ => exact .transport nofun

/-- A failure of the stream has to do with the stream. -/
lemma ClientError.ofStream_ofFailure (e : ByteStream.Failure) : (ofFailure e).OfStream :=
  ofStream_ofWire (.ofFailure e)

variable {ρ : Type} [ByteStream.Reader ρ]

open ClientError (OfStream ofStream_ofWire)

section

variable {P : ClientError → Prop} (wire : ∀ e, P (.ofWire e))

include wire

namespace Block

/-- A fault is of the same sort when it is reported with the block so far. -/
lemma fails_renamed {α : Type} (b : Block) (d : Decoder ρ Error α) :
    (d.mapError fun e => ⟨.ofWire e, b, none⟩).Fails fun h : Halt => P h.error := by
  refine .renamed ?_ d
  exact fun e => wire e

/-- A column that cannot be filled fails in the sort that its cells do. -/
lemma fails_fill (rows : Nat) (b : Block) (column : Column) :
    (fill rows b column : Decoder ρ Halt Column).Fails fun h => P h.error := by
  rw [fill]
  split_ifs
  · exact .pure column
  · refine .renamed ?_ _
    exact fun e => wire e.1

/-- A column has no errors but those of values, an unknown type and those of being put in place. -/
lemma fails_decodeColumn_of_placed {registry : Registry} {rows : Nat} {b : Block}
    (unknown : ∀ typeName, P (.protocol (.unknownColumnType typeName)))
    (placed : ∀ {name typeName column}, registry typeName = some column →
      (fill rows b column >>= place b name : Decoder ρ Halt Block).Fails fun h => P h.error) :
    (decodeColumn registry rows b : Decoder ρ Halt Block).Fails fun h => P h.error := by
  rw [decodeColumn_eq]
  refine Decoder.Fails.bind (fails_renamed wire b _) fun name => ?_
  refine Decoder.Fails.bind (fails_renamed wire b _) fun typeName => ?_
  rw [decodeValues]
  cases known : registry typeName with
  | none => exact .fail (unknown typeName)
  | some column => exact placed known

end Block

variable (field : ∀ tag, P (.protocol (.unknownBlockInfoField tag)))

include field

namespace BlockInfo

/-- A field behind its tag fails in this sort only. -/
lemma fails_decodeTagged (tag : UInt64) :
    (decodeTagged tag : Decoder ρ ClientError (Field ⊕ Unit)).Fails P := by
  rw [decodeTagged]
  split_ifs
  · exact .pure _
  · exact Decoder.Fails.bind (.renamed wire _) fun b => .pure _
  · exact Decoder.Fails.bind (.renamed wire _) fun n => .pure _
  · exact .fail (field tag)

/-- The info of a block fails in this sort only. -/
lemma fails_decode : (decode : Decoder ρ ClientError BlockInfo).Fails P := by
  refine Decoder.Fails.gather_bind (P := P) ?_ ?_ ?_
  · exact Decoder.Fails.bind (.renamed wire _) (fails_decodeTagged wire field)
  · exact fun fields _ => .pure (ofFields fields)
  · exact fun fields e h => .fail h

end BlockInfo

/-- What comes before the columns has no errors but those of values and an unknown field. -/
lemma Block.fails_decode_of_columns {registry : Registry}
    (columns : ∀ rows n info, (decodeColumns registry rows n { withRows rows with info } :
      Decoder ρ Halt Block).Fails fun h => P h.error) (r : Revision) :
    (decode r registry : Decoder ρ Halt Block).Fails fun h => P h.error := by
  have told : (decodeInfo r : Decoder ρ ClientError BlockInfo).Fails P := by
    rw [decodeInfo]
    split_ifs
    · exact BlockInfo.fails_decode wire field
    · exact .pure _
  rw [decode_eq]
  refine Decoder.Fails.bind (fails_renamed wire {} _) fun table => ?_
  refine Decoder.Fails.bind (told.mapError fun e sort => sort) fun info => ?_
  refine Decoder.Fails.bind (fails_renamed wire {} _) fun columnCount => ?_
  exact Decoder.Fails.bind (fails_renamed wire {} _) fun rows => columns _ _ _

end

namespace Block

/-- The error for which reading has ended early is one of receiving. -/
def Halt.OfStream (h : Halt) : Prop := h.error.OfStream

/-- A column that finds no place fails with the stream. -/
lemma fails_place (b : Block) (name : String) (column : Column) :
    (place b name column : Decoder ρ Halt Block).Fails Halt.OfStream := by
  rw [place]
  cases b.append name column with
  | ok b' => exact .pure b'
  | error e => exact .fail (.protocol (.block e))

/-- A column that cannot be read fails with the stream. -/
lemma fails_decodeColumn (registry : Registry) (rows : Nat) (b : Block) :
    (decodeColumn registry rows b : Decoder ρ Halt Block).Fails Halt.OfStream :=
  fails_decodeColumn_of_placed ofStream_ofWire (fun _ => .protocol _) fun _ =>
    (fails_fill ofStream_ofWire rows b _).bind (fails_place b _)

/-- A block that cannot be read fails with the stream. -/
lemma fails_decode (r : Revision) (registry : Registry) :
    (decode r registry : Decoder ρ Halt Block).Fails Halt.OfStream :=
  fails_decode_of_columns ofStream_ofWire (fun _ => .protocol _)
    (fun rows n _ => .iterate (fails_decodeColumn registry rows) n _) r

end Block

namespace Packet

/-- A packet that cannot be read fails with the stream. -/
lemma fails_decode (phase : Phase) (r : Revision) (registry : Registry) :
    (decode phase r registry : Decoder ρ ClientError Packet).Fails OfStream := by
  refine Decoder.Fails.bind (.renamed ofStream_ofWire _) fun code => ?_
  refine Decoder.Fails.bind (.ofExcept fun e refused => ?_) fun kind => ?_
  · rw [permit] at refused
    split at refused
    · cases refused
      exact .protocol _
    · split_ifs at refused
      cases refused
      exact .protocol _
  · cases kind with
    | data => exact .mapError ((Block.fails_decode r registry).map _) fun h sort => sort
    | pong => exact .pure _
    | endOfStream => exact .pure _
    | hello => exact .renamed ofStream_ofWire (Packet.hello <$> ServerInfo.decode)
    | exception => exact .renamed ofStream_ofWire (Packet.exception <$> ServerException.decode)
    | progress => exact .renamed ofStream_ofWire (Packet.progress <$> Progress.decode r)
    | profileInfo => exact .renamed ofStream_ofWire (Packet.profileInfo <$> Profile.decode)

end Packet

/-- A step of a phase fails with the stream. -/
lemma Phase.fails_step (phase : Phase) (r : Revision) (registry : Registry) :
    (phase.step r registry : Decoder ρ ClientError (Packet ⊕ Packet)).Fails OfStream :=
  (Packet.fails_decode phase r registry).map _

/-- An error with which a phase ends is one of receiving. -/
lemma Phase.ofStream_of_receive {ε : Type} {phase : Phase} {r : Revision} {registry : Registry}
    {s s' : ρ} {before : List Packet} {e : ClientError}
    (run : (phase.receive r registry : Decoder ρ ε _).run s = (.ok (before, .error e), s')) :
    e.OfStream := by
  obtain ⟨gathered, _⟩ := Prod.mk.inj run
  exact (phase.fails_step r registry).gatherOnto (Except.ok.inj gathered)

end Columnar
