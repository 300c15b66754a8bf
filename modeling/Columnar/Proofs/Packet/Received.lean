import Columnar.Proofs.Packet.Agrees

/-!
# What a phase has received

`Phase.Received` describes a phase by the stream alone: whole packets stand one after the other, and
then comes the one that ends the phase, or the phase fails at what stands there. A phase that is run
over any kind of reader receives so (`received_of_run`), and where a phase can be received so it is
(`Received.run`).
-/

namespace Columnar

open ByteStream Wire

variable {ρ σ : Type} [Reader ρ] [Observable ρ] [Reader σ] [Observable σ] {ε : Type}

namespace Phase

/-- The bytes are one whole packet for the phase, which it ends or does not. -/
structure Whole (ρ : Type) [Reader ρ] [Observable ρ] (phase : Phase) (r : Revision)
    (registry : Registry) (ends : Bool) (x : Bytes × Packet) : Prop where
  reads : (Packet.decode phase r registry : Decoder ρ ClientError Packet).Reads x.1 x.2
  endsWith : phase.endsWith x.2.kind = ends

variable {phase : Phase} {r : Revision} {registry : Registry}

/-- A whole packet that leaves the phase open is a step that goes on. -/
lemma Whole.reads_inl {x : Bytes × Packet} (h : Whole ρ phase r registry false x) :
    (phase.step r registry : Decoder ρ ClientError (Packet ⊕ Packet)).Reads x.1 (.inl x.2) := by
  have read := h.reads.map fun p : Packet =>
    if phase.endsWith p.kind then (.inr p : Packet ⊕ Packet) else .inl p
  rwa [h.endsWith] at read

/-- A whole packet that ends the phase is a step that stops. -/
lemma Whole.reads_inr {x : Bytes × Packet} (h : Whole ρ phase r registry true x) :
    (phase.step r registry : Decoder ρ ClientError (Packet ⊕ Packet)).Reads x.1 (.inr x.2) := by
  have read := h.reads.map fun p : Packet =>
    if phase.endsWith p.kind then (.inr p : Packet ⊕ Packet) else .inl p
  rwa [h.endsWith] at read

/-- What a step has found is a packet that ends the phase or does not. -/
lemma whole_of_step {s s' : ρ} {found : Packet ⊕ Packet}
    (run : (phase.step r registry : Decoder ρ ClientError _).run s = (.ok found, s')) :
    ∃ bs p ends, unread s = .ofBytes bs ++ unread s' ∧ Whole σ phase r registry ends (bs, p) ∧
      found = if ends then .inr p else .inl p := by
  obtain ⟨result, ran, eq⟩ := Decoder.run_map_inv run
  cases result with
  | error e => cases eq
  | ok p =>
    cases eq
    obtain ⟨bs, here, reads⟩ := (Packet.agrees_decode (σ := σ) phase r registry).ok ran
    exact ⟨bs, p, phase.endsWith p.kind, here, ⟨reads, rfl⟩, rfl⟩

/-- What a phase uses of the stream, and what it receives. -/
inductive Received (ρ : Type) [Reader ρ] [Observable ρ] (phase : Phase) (r : Revision)
    (registry : Registry) : (used after : Feed) → List Packet → Except ClientError Packet → Prop where
  | ended {pieces : List (Bytes × Packet)} {bs : Bytes} {p : Packet} {after : Feed} :
    (∀ x ∈ pieces, Whole ρ phase r registry false x) →
    Whole ρ phase r registry true (bs, p) →
    Received ρ phase r registry (.ofBytes (pieces.flatMap Prod.fst ++ bs)) after
      (pieces.map Prod.snd) (.ok p)
  | failed {pieces : List (Bytes × Packet)} {used after : Feed} {e : ClientError} :
    (∀ x ∈ pieces, Whole ρ phase r registry false x) →
    (phase.step r registry : Decoder ρ ClientError (Packet ⊕ Packet)).Refuses used after e →
    Received ρ phase r registry (.ofBytes (pieces.flatMap Prod.fst) ++ used) after
      (pieces.map Prod.snd) (.error e)

/-- Whatever is received has been received as the phase says. -/
lemma received_of_run {s s' : ρ} {before : List Packet} {last : Except ClientError Packet}
    (run : (phase.receive r registry : Decoder ρ ε _).run s = (.ok (before, last), s')) :
    ∃ used, unread s = used ++ unread s' ∧
      Received σ phase r registry used (unread s') before last := by
  have each {s s' : ρ} {p : Packet}
      (ran : (phase.step r registry : Decoder ρ ClientError _).run s = (.ok (.inl p), s')) :
      ∃ bs, unread s = .ofBytes bs ++ unread s' ∧ Whole σ phase r registry false (bs, p) := by
    obtain ⟨bs, p', ends, left, whole, found⟩ := whole_of_step (σ := σ) ran
    cases ends with
    | true => cases found
    | false =>
      cases found
      exact ⟨bs, left, whole⟩
  -- Behind the packets that went on the step stands that stopped the loop or failed.
  obtain ⟨gathered, rfl⟩ := Prod.mk.inj run
  obtain ⟨pieces, s₁, rfl, all, here, ran⟩ :=
    Decoder.gatherOnto_inv each (Prod.ext (Except.ok.inj gathered) rfl)
  cases last with
  | ok p =>
    obtain ⟨bs, p', ends, left, whole, found⟩ := whole_of_step (σ := σ) ran
    cases ends with
    | false => cases found
    | true =>
      cases found
      refine ⟨_, ?_, .ended all whole⟩
      rw [here, left, Feed.ofBytes_append, List.append_assoc]
  | error e =>
    obtain ⟨used, left, refuses⟩ := (agrees_step (σ := σ) phase r registry).error ran
    refine ⟨_, ?_, .failed all refuses⟩
    rw [here, left, List.append_assoc]

/-- What follows what has been used does not matter, unless the stream has ended within a packet. -/
lemma Received.changed {used after : Feed} {before : List Packet} {last : Except ClientError Packet}
    (h : Received ρ phase r registry used after before last) {rest : Feed}
    (goes : rest = after ∨ last ≠ .error (.transport .truncated)) :
    Received ρ phase r registry used rest before last := by
  cases h with
  | ended all whole => exact .ended all whole
  | failed all refuses =>
    refine .failed all ?_
    intro s rest' here same
    refine refuses here ?_
    rcases goes with rfl | settled
    · exact same
    · exact .inr fun cut => settled (congrArg _ cut)

/-- Whatever the phase says is received. -/
lemma Received.run {used after : Feed} {before : List Packet} {last : Except ClientError Packet}
    (h : Received ρ phase r registry used after before last) {s : ρ}
    (here : unread s = used ++ after) :
    ∃ s', (phase.receive r registry : Decoder ρ ε _).run s = (.ok (before, last), s') ∧
      unread s' = after := by
  cases h with
  | @ended pieces bs p after all whole =>
    rw [Feed.ofBytes_append, List.append_assoc] at here
    obtain ⟨got, s₁, goes, values, left⟩ := Decoder.Reads.gatherOnto_append
      (h := phase.consumes_step r registry) (fun x mem => (all x mem).reads_inl) #[] here
    obtain ⟨s', run, left⟩ := whole.reads_inr.whole left
    refine ⟨s', ?_, left⟩
    simp only [receive, Decoder.gather, goes, Decoder.gatherOnto_inr run, values, List.nil_append]
  | @failed pieces used after e all refuses =>
    obtain ⟨s', goes, left⟩ := refuses.gatherOnto (c := phase.consumes_step r registry)
      (fun x mem => (all x mem).reads_inl) #[] here (.inl rfl)
    refine ⟨s', ?_, left⟩
    simp only [receive, Decoder.gather, goes, List.nil_append]

/-- What has been received are whole packets at the beginning of what has been used. -/
lemma Received.pieces {used after : Feed} {before : List Packet} {last : Except ClientError Packet}
    (h : Received ρ phase r registry used after before last) :
    ∃ pieces : List (Bytes × Packet), ∃ rest, used = .ofBytes (pieces.flatMap Prod.fst) ++ rest ∧
      (∀ x ∈ pieces, (Packet.decode phase r registry : Decoder ρ ClientError Packet).Reads x.1 x.2) ∧
      before ++ last.toOption.toList = pieces.map Prod.snd := by
  cases h with
  | @ended pieces bs p after all whole =>
    refine ⟨pieces ++ [(bs, p)], [], ?_, ?_, ?_⟩
    · rw [List.flatMap_append, List.flatMap_singleton, List.append_nil]
    · rw [List.forall_mem_append, List.forall_mem_singleton]
      exact ⟨fun x mem => (all x mem).reads, whole.reads⟩
    · rw [List.map_append]
      rfl
  | @failed pieces used after e all refuses =>
    exact ⟨pieces, used, rfl, fun x mem => (all x mem).reads, List.append_nil _⟩

end Phase

end Columnar
