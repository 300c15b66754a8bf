import Columnar.Packet.Server
import Columnar.Proofs.Wire.Reads

/-!
# How the reading of blocks is put together

What precedes the columns of a block is read one after the other, and sections that a revision lacks
are nothing to read (`decode_eq`). A column is its name, the name of its type and, if that is known,
its values, with which it is put at the end of the block (`decodeColumn_eq`).
-/

namespace Columnar.Block

open Wire Decoder

variable {ρ : Type} [ByteStream.Reader ρ]

/-- Reads the values of a column; without rows there are none. -/
def fill (rows : Nat) (b : Block) (column : Column) : Decoder ρ Halt Column :=
  if rows = 0 then pure column
  else (column.load rows).mapError fun (e, filling) => ⟨.ofWire e, b, some filling⟩

/-- Puts a column that has been read at the end of the block. -/
def place (b : Block) (name : String) (column : Column) : Decoder ρ Halt Block :=
  match b.append name column with
  | .ok b' => pure b'
  | .error e => .fail ⟨.protocol (.block e), b, some column⟩

/-- To place a column that fits is to append it. -/
lemma place_of_ok {b b' : Block} {name : String} {column : Column}
    (fits : b.append name column = .ok b') : (place b name column : Decoder ρ Halt Block) = pure b' := by
  rw [place, fits]

/-- Reads what comes behind the names of a column and of its type. -/
def decodeValues (registry : Registry) (rows : Nat) (b : Block) (name typeName : String) :
    Decoder ρ Halt Block :=
  match registry typeName with
  | none => .fail ⟨.protocol (.unknownColumnType typeName), b, none⟩
  | some column => fill rows b column >>= place b name

/-- A column is its name, its type and its values. -/
lemma decodeColumn_eq (registry : Registry) (rows : Nat) (b : Block) :
    (decodeColumn registry rows b : Decoder ρ Halt Block) =
      decodeText.mapError (fun e => ⟨.ofWire e, b, none⟩) >>= fun name =>
        decodeText.mapError (fun e => ⟨.ofWire e, b, none⟩) >>= fun typeName =>
        decodeValues registry rows b name typeName := by
  refine congrArg (_ >>= ·) (funext fun name => congrArg (_ >>= ·) (funext fun typeName => ?_))
  rw [decodeValues]
  cases registry typeName with
  | none => rfl
  | some column =>
    dsimp only
    rw [fill]
    split <;> rfl

/-- Reads the info of a block, if the revision has it. -/
def decodeInfo (rev : Revision) : Decoder ρ ClientError BlockInfo :=
  if rev.supports .blockInfo then BlockInfo.decode else pure {}

/-- The info is one of the sections that only some revisions have. -/
lemma decodeInfo_eq (rev : Revision) :
    (decodeInfo rev : Decoder ρ ClientError BlockInfo) =
      (·.getD {}) <$> decodeGated rev .blockInfo BlockInfo.decode := by
  rw [decodeInfo, decodeGated]
  split
  · rw [Functor.map_map]
    exact (id_map BlockInfo.decode).symm
  · rfl

/-- What precedes the columns of a block: the name of the table, the info and the two counts. -/
lemma decode_eq (rev : Revision) (registry : Registry) :
    (decode rev registry : Decoder ρ Halt Block) =
      (decodeGated rev .temporaryTables decodeText).mapError (fun e => ⟨.ofWire e, {}, none⟩) >>=
        fun _ => (decodeInfo rev).mapError (fun e => ⟨e, {}, none⟩) >>= fun info =>
        Varint.decode.mapError (fun e => ⟨.ofWire e, {}, none⟩) >>= fun columns =>
        Varint.decode.mapError (fun e => ⟨.ofWire e, {}, none⟩) >>= fun rows =>
        decodeColumns registry rows.toNat columns.toNat { withRows rows.toNat with info } := by
  unfold decode
  extract_lets halt withInfo withTable
  have info : withTable () = (decodeInfo rev).mapError halt >>= withInfo := by
    dsimp only [withTable]
    rw [decodeInfo]
    split
    · rfl
    · rfl
  rw [decodeGated]
  split
  · rw [mapError_map_bind]
    exact congrArg (decodeText.mapError (halt ∘ .ofWire) >>= ·) (funext fun _ => info)
  · exact info

end Columnar.Block
