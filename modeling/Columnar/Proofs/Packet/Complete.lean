import Columnar.Proofs.Packet.Received
import Columnar.Proofs.Wire.Forms
import Columnar.Proofs.Wire.Yields

/-!
# Complete packets

The bytes of a complete packet are the code of its kind, in any form, and what belongs to a packet of
the kind, whatever phase it comes in. A phase reads the complete packets of the kinds that may come
in it, and nothing else (`Packet.spells_decode`).
-/

namespace Columnar

open ByteStream Wire

namespace PacketKind

/-- The code of a kind stands for it. -/
lemma ofCode?_code (k : PacketKind) : ofCode? k.code = some k := by
  cases k <;> rfl

/-- No other code stands for a kind. -/
lemma code_of_ofCode? {code : UInt64} {k : PacketKind} (h : ofCode? code = some k) :
    code = k.code := by
  have found := List.find?_some h
  exact (beq_iff_eq.1 found).symm

end PacketKind

namespace Packet

variable {ρ : Type} [Reader ρ] {phase : Phase} {r : Revision} {registry : Registry}

/-- The bytes are the whole of this packet and nothing more. -/
def Complete (r : Revision) (registry : Registry) (bs : Bytes) (p : Packet) : Prop :=
  ∃ code body, bs = code ++ body ∧ Varint.Form code p.kind.code ∧
    (decodeBody r registry p.kind : Decoder Feed ClientError Packet).Reads body p

/-- A body is of the kind that was asked for. -/
lemma yields_decodeBody (r : Revision) (registry : Registry) (kind : PacketKind) :
    (decodeBody r registry kind : Decoder ρ ClientError Packet).Yields fun p => p.kind = kind := by
  have made {ε α : Type} (d : Decoder ρ ε α) {f : α → Packet} (g : ε → ClientError)
      (sort : ∀ a, (f a).kind = kind) :
      ((f <$> d).mapError g).Yields fun p => p.kind = kind :=
    .mapError (.map (.any d) fun a _ => sort a) g
  cases kind with
  | hello => exact made ServerInfo.decode .ofWire fun _ => rfl
  | data => exact made (Block.decode r registry) Block.Halt.error fun _ => rfl
  | exception => exact made ServerException.decode .ofWire fun _ => rfl
  | progress => exact made (Progress.decode r) .ofWire fun _ => rfl
  | pong => exact .pure rfl
  | endOfStream => exact .pure rfl
  | profileInfo => exact made Profile.decode .ofWire fun _ => rfl

/-- A code is permitted if it is that of a kind that may come. -/
lemma permit_eq_ok_iff {code : UInt64} {kind : PacketKind} :
    permit phase code = .ok kind ↔ code = kind.code ∧ phase.accepts kind = true := by
  constructor
  · intro h
    rw [permit] at h
    split at h
    · cases h
    · rename_i known
      split at h
      · rename_i accepted
        cases h
        exact ⟨PacketKind.code_of_ofCode? known, accepted⟩
      · cases h
  · rintro ⟨rfl, accepted⟩
    rw [permit, PacketKind.ofCode?_code]
    exact if_pos accepted

variable [Observable ρ]

/-- A phase reads the complete packets that may come in it, and nothing else. -/
lemma spells_decode (phase : Phase) (r : Revision) (registry : Registry) :
    (decode phase r registry : Decoder ρ ClientError Packet).Spells fun bs p =>
      Complete r registry bs p ∧ phase.accepts p.kind = true := by
  refine .of_iff (.bind (.mapError Varint.spells_decode ClientError.truncation_ofWire) fun code =>
    .bind (.ofExcept (permit phase code)) fun kind =>
      .of_agrees (agrees_decodeBody r registry kind) (agrees_decodeBody r registry kind)) ?_
  intro bs p
  constructor
  · rintro ⟨head, code, _, rfl, coded, _, kind, body, rfl, ⟨rfl, permits⟩, reads⟩
    obtain ⟨rfl, accepted⟩ := permit_eq_ok_iff.1 permits
    obtain ⟨s, run, _⟩ := reads.whole (unread_ofBytes body)
    obtain rfl : p.kind = kind := yields_decodeBody r registry kind _ _ _ run
    exact ⟨⟨head, body, rfl, coded, reads⟩, accepted⟩
  · rintro ⟨⟨head, body, rfl, coded, reads⟩, accepted⟩
    exact ⟨head, _, body, rfl, coded, [], _, body, rfl,
      ⟨rfl, permit_eq_ok_iff.2 ⟨rfl, accepted⟩⟩, reads⟩

variable {bs : Bytes} {p : Packet}

/-- A packet that is complete is read in any phase that accepts it. -/
lemma Complete.reads (complete : Complete r registry bs p)
    (accepted : phase.accepts p.kind = true) :
    (decode phase r registry : Decoder ρ ClientError Packet).Reads bs p :=
  (spells_decode phase r registry).complete ⟨complete, accepted⟩

/-- What is read as a packet is complete and accepted, and conversely. -/
lemma reads_decode_iff :
    (decode phase r registry : Decoder Feed ClientError Packet).Reads bs p ↔
      Complete r registry bs p ∧ phase.accepts p.kind = true :=
  (spells_decode phase r registry).reads_iff

end Packet

end Columnar
