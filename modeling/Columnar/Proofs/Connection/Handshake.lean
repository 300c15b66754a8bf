import Columnar.Connection
import Columnar.Proofs.ByteStream.Obliging
import Columnar.Proofs.Packet.Reply

/-!
# Opening a connection

Over a stream that begins with a greeting, whatever revision the server has, the handshake ends with
an idle connection at the revision that both sides know, and leaves what follows the greeting.
-/

namespace Columnar

open ByteStream

/-- The revision that a client and the server agree on. -/
def Greeting.agreed (g : Greeting) : Revision := ⟨min g.revision 54126⟩

namespace Connection

variable {ρ : Type} [Reader ρ]

/-- What the first packet of the server says to a handshake. -/
def greeted : Except ClientError Packet → Except ClientError ServerInfo
  | .ok (.hello info) => .ok info
  | .ok (.exception e) => .error (.server e)
  | .ok other => .error (.protocol (.unexpectedPacket .opening other.kind))
  | .error e => .error e

/-- What is read of the opening packet decides how the server has greeted. -/
lemma readHello_of_run {t : Transport ρ} {found : Except ClientError Packet} {input : Buffered ρ}
    (run : (Packet.decode .opening .client .builtin : Wire.Decoder _ ClientError _).run t.input =
      (found, input)) :
    readHello t = (greeted found, { t with input }) := by
  rw [readHello, Transport.receive, run]
  rcases found with e | p
  · rfl
  · cases p <;> rfl

/-- Reading the greeting changes the reading side of the transport only. -/
lemma readHello_inv {t t' : Transport ρ} {result : Except ClientError ServerInfo}
    (h : readHello t = (result, t')) : ∃ input, t' = { t with input } := by
  obtain ⟨found, input, run⟩ : ∃ found input,
      (Packet.decode .opening .client .builtin : Wire.Decoder _ ClientError _).run t.input =
        (found, input) := ⟨_, _, rfl⟩
  rw [readHello_of_run run] at h
  cases h
  exact ⟨input, rfl⟩

/-- The connection that a handshake opens over this transport. -/
def opened (options : Options) (t : Transport ρ) (server : ServerInfo) : Connection ρ :=
  { transport := t, options, registry := .builtin, server, revision := .negotiate server.revision,
    state := .idle }

section

variable {options : Options} {t t₁ t' : Transport ρ}

/-- A handshake fails when the introduction cannot be sent. -/
lemma handshake_of_failure {e : Failure}
    (sent : (t.stage ((Request.helloOf options).encode .client)).flush = (.error e, t₁)) :
    handshake options t = (.error (.handshake (.ofFailure e)), t₁) := by
  rw [handshake, sent]

/-- After the introduction has been sent, the greeting decides. -/
lemma handshake_of_hello {server : Except ClientError ServerInfo}
    (sent : (t.stage ((Request.helloOf options).encode .client)).flush = (.ok (), t₁))
    (read : readHello t₁ = (server, t')) :
    handshake options t = ((server.mapError .handshake).map (opened options t'), t') := by
  simp only [handshake, sent, read]
  cases server <;> rfl

/-- A handshake that succeeds has sent its introduction and read the greeting of the server. -/
lemma handshake_inv {c : Connection ρ} (h : handshake options t = (.ok c, t')) :
    ∃ t₁ info, (t.stage ((Request.helloOf options).encode .client)).flush = (.ok (), t₁) ∧
      readHello t₁ = (.ok info, t') ∧ c = opened options t' info := by
  obtain ⟨flushed, t₁, sent⟩ : ∃ flushed t₁,
      (t.stage ((Request.helloOf options).encode .client)).flush = (flushed, t₁) := ⟨_, _, rfl⟩
  cases flushed with
  | error e => cases h.symm.trans (handshake_of_failure sent)
  | ok u =>
    obtain ⟨server, t₂, read⟩ : ∃ server t₂, readHello t₁ = (server, t₂) := ⟨_, _, rfl⟩
    rw [handshake_of_hello sent read] at h
    cases server with
    | error e => cases h
    | ok info =>
      cases h
      exact ⟨t₁, info, sent, read, rfl⟩

end

variable [Observable ρ]

/-- A greeting that fits is read as it was meant, and no further. -/
lemma readHello_whole {g : Greeting} (fits : g.Fits) {t : Transport ρ} {rest : Feed}
    (here : ByteStream.unread t.input = .ofBytes g.encode ++ rest) :
    ∃ input, readHello t = (.ok g.info, { t with input }) ∧ ByteStream.unread input = rest := by
  have read : (Packet.decode .opening .client .builtin :
      Wire.Decoder (Buffered ρ) ClientError Packet).Reads g.encode (.hello g.info) :=
    Greeting.reads_decode fits
  obtain ⟨input, run, left⟩ := read.whole here
  exact ⟨input, readHello_of_run run, left⟩

/-- Over a greeting the handshake opens a connection under the revision that both know. -/
lemma handshake_whole (options : Options) {g : Greeting} (fits : g.Fits) {stream : ρ} {sink : Sink}
    (obliging : sink.Obliging) {rest : Feed}
    (here : ByteStream.unread stream = .ofBytes g.encode ++ rest) :
    ∃ t, handshake options (.ofStream stream sink) =
        (.ok { transport := t, options, registry := .builtin, server := g.info,
               revision := g.agreed, state := .idle }, t) ∧
      t.Obliging ∧ ByteStream.unread t.input = rest := by
  have fresh : (Transport.ofStream stream sink).Obliging := ⟨rfl, obliging⟩
  obtain ⟨sink', flushed, _, obliges⟩ :=
    (fresh.stage ((Request.helloOf options).encode .client)).flush
  obtain ⟨input, read, left⟩ := readHello_whole fits
    (t := { Transport.ofStream stream sink with sink := sink' }) here
  -- What was staged has been flushed before the greeting is read.
  refine ⟨{ Transport.ofStream stream sink with sink := sink', input }, ?_, ⟨rfl, obliges⟩, left⟩
  exact handshake_of_hello flushed read

/-- A server that does not know of block infos yet. -/
def elder : Greeting where
  name := "ClickHouse"
  versionMajor := 1
  versionMinor := 1
  revision := 51902
  timezone := "UTC"

/-- The greeting of the elder server can be sent. -/
lemma elder_fits : elder.Fits := ⟨by decide, by decide⟩

end Connection

end Columnar
