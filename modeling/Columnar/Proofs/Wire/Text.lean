import Columnar.Proofs.ByteStream.Obliging
import Columnar.Proofs.Text.Faults
import Columnar.Proofs.Wire.Varint

/-!
# Texts, byte by byte

All the bytes of a text are there before any of them is looked at, so an early end of the stream is
reported whatever the bytes are (`decodeText_truncated`), and bytes that encode no text are used up
before the fault in them is reported (`decodeText_bytes`). Main statement: `decodeText_exact`.
-/

namespace Columnar

open ByteStream

/-- Where a stream ends it stops. -/
lemma ByteStream.Feed.Ends.stops {rest : Feed} (h : rest.Ends) : rest.Stops := by
  rintro b rest rfl
  exact h

namespace Wire

variable {ρ : Type} [Reader ρ] [Observable ρ]

/-- Bytes whose number comes before them are read as the text that they encode or refused. -/
lemma decodeText_bytes {bs : Bytes} (size : bs.length < 2 ^ 64) {input : ρ} {rest : Feed}
    (here : unread input = .ofBytes (encodeBytes bs) ++ rest) :
    ∃ input', (decodeText : Decoder ρ Error String).run input =
        ((Utf8.decode bs).mapError fun fault => .malformed (.notUtf8 fault), input') ∧
      unread input' = rest := by
  obtain ⟨input', run, left⟩ := (reads_decodeBytes size).whole here
  refine ⟨input', ?_, left⟩
  rw [decodeText, Decoder.run_bind_ok run]
  cases Utf8.decode bs <;> rfl

/-- Where fewer bytes come than are announced, it does not matter which. -/
lemma decodeText_truncated {n : Nat} (size : n < 2 ^ 64) {p : Bytes} (few : p.length < n)
    {input : ρ} {rest : Feed} (ends : rest.Ends)
    (here : unread input = .ofBytes (Varint.encodeNat n ++ p) ++ rest) :
    ∃ input', (decodeText : Decoder ρ Error String).run input = (.error .truncated, input') := by
  rw [Feed.ofBytes_append, List.append_assoc] at here
  obtain ⟨r, count, left⟩ := (Varint.reads_decode_ofNat size).whole here
  have same : (UInt64.ofNat n).toNat = n := Nat.mod_eq_of_lt size
  obtain ⟨input', stopped, _⟩ := Decoder.Reads.takeOnto_stopped [] n r left few ends.stops
  rw [(Error.ofStop_eq_truncated_iff ends.stops).2 ends] at stopped
  refine ⟨input', Decoder.run_bind_error ?_⟩
  rw [decodeBytes, Decoder.run_bind_ok count, same]
  exact stopped

/-- Of bytes whose number comes before them, exactly these are used, whatever follows. They are read
as a text exactly if they are what encodes it, and else the fault in them is located; but if the
stream ends before as many bytes have come as are announced, that is reported and no fault. What the
writing of a text adds to a sink is read back as that text. -/
theorem decodeText_exact (rest : Feed) :
    (∀ (bs : Bytes) (input : ρ), bs.length < 2 ^ 64 →
      unread input = .ofBytes (encodeBytes bs) ++ rest →
      ∃ found input', (decodeText : Decoder ρ Error String).run input = (found, input') ∧
        unread input' = rest ∧ (∀ s, found = .ok s ↔ bs = Utf8.encode s) ∧
        ((¬∃ s, bs = Utf8.encode s) → ∃ fault, found = .error (.malformed (.notUtf8 fault)) ∧
          Utf8.Located bs fault (Malformation.notUtf8 fault).message)) ∧
      (∀ (n : Nat) (p : Bytes) (input : ρ), n < 2 ^ 64 → p.length < n → rest.Ends →
        unread input = .ofBytes (Varint.encodeNat n ++ p) ++ rest →
        ∃ input', (decodeText : Decoder ρ Error String).run input = (.error .truncated, input')) ∧
      ∀ (s : String) (sink : Sink), FitsText s → sink.Obliging →
        ∃ sink' added, Value.write ⟨.text, s⟩ sink = (.ok (), sink') ∧
          sink'.accepted = sink.accepted ++ added ∧
          ∀ input : ρ, unread input = .ofBytes added ++ rest →
            ∃ input', (decodeText : Decoder ρ Error String).run input = (.ok s, input') ∧
              unread input' = rest := by
  refine ⟨fun bs input size here => ?_, fun n p input size few ends here =>
    decodeText_truncated size few ends here, fun s sink fits obliging => ?_⟩
  · obtain ⟨input', run, left⟩ := decodeText_bytes size here
    refine ⟨_, input', run, left, fun s => ?_, fun other => ?_⟩
    · rw [← Utf8.decode_eq_ok_iff]
      cases Utf8.decode bs with
      | ok s' => exact ⟨fun h => Except.ok.inj h ▸ rfl, fun h => Except.ok.inj h ▸ rfl⟩
      | error fault => exact ⟨nofun, nofun⟩
    · cases decoded : Utf8.decode bs with
      | ok s => exact absurd ⟨s, Utf8.decode_eq_ok_iff.1 decoded⟩ other
      | error fault => exact ⟨fault, rfl, Utf8.located decoded⟩
  · obtain ⟨sink', writes, accepted, _⟩ := obliging.writeAll (encodeText s)
    refine ⟨sink', encodeText s, ?_, accepted, fun input here => (reads_decodeText fits).whole here⟩
    have same : (Value.mk .text s).encode = encodeText s := rfl
    rw [Value.write, same, writes]
    rfl

/-- A character and then three of the four bytes of another one, which the fifth byte breaks off. -/
def mangled : Bytes := [0x41, 0xF0, 0x90, 0x80, 0x28]

/-- The three bytes are blamed, but not before all five have come; and a text that was written over
an interruption is read back. -/
theorem decodeText_exact_mangled :
    mangled.length < 2 ^ 64 ∧ (¬∃ s, mangled = Utf8.encode s) ∧ 4 < mangled.length ∧
      Feed.Ends [] ∧ FitsText "é" ∧
      Sink.Obliging { writes := [.accept 1, .failure ⟨.interrupted, "again"⟩] } ∧
      (∃ input', (decodeText : Decoder Feed Error String).run (.ofBytes (encodeBytes mangled)) =
          (.error (.malformed (.notUtf8 (.invalid 3 1))), input') ∧ unread input' = [] ∧
        Utf8.Located mangled (.invalid 3 1) "invalid utf-8 sequence of 3 bytes from index 1") ∧
      (∃ input', (decodeText : Decoder Feed Error String).run
          (.ofBytes (Varint.encodeNat mangled.length ++ mangled.take 4)) =
        (.error .truncated, input')) ∧
      ∃ sink' added, Value.write ⟨.text, "é"⟩
            { writes := [.accept 1, .failure ⟨.interrupted, "again"⟩] } = (.ok (), sink') ∧
          sink'.accepted = added ∧
          ∃ input', (decodeText : Decoder Feed Error String).run (.ofBytes added) =
            (.ok "é", input') ∧ unread input' = [] := by
  have decoded : Utf8.decode mangled = .error (.invalid 3 1) := by decide +kernel
  have other : ¬∃ s, mangled = Utf8.encode s := by
    rintro ⟨s, same⟩
    rw [Utf8.decode_eq_ok_iff.2 same] at decoded
    cases decoded
  have fits : FitsText "é" := by decide
  have obliging : Sink.Obliging { writes := [.accept 1, .failure ⟨.interrupted, "again"⟩] } :=
    ⟨by simp [WriteEntry.Obliging], nofun⟩
  obtain ⟨bytes, short, written⟩ := decodeText_exact (ρ := Feed) []
  refine ⟨by decide, other, by decide, trivial, fits, obliging, ?_, ?_, ?_⟩
  · obtain ⟨found, input', run, left, _, fault⟩ :=
      bytes mangled (.ofBytes (encodeBytes mangled)) (by decide) (unread_ofBytes _)
    obtain ⟨fault, rfl, told⟩ := fault other
    obtain ⟨_, goes, _⟩ := decodeText_bytes (by decide) (unread_ofBytes (encodeBytes mangled))
    rw [decoded] at goes
    cases run.symm.trans goes
    exact ⟨input', run, left, told⟩
  · exact short mangled.length (mangled.take 4) _ (by decide) (by decide) trivial (unread_ofBytes _)
  · obtain ⟨sink', added, writes, accepted, reads⟩ := written "é" _ fits obliging
    exact ⟨sink', added, writes, accepted, reads (.ofBytes added) (unread_ofBytes added)⟩

end Wire

end Columnar
