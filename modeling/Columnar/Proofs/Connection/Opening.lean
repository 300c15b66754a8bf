import Columnar.Proofs.Connection.Handshake
import Columnar.Proofs.Packet.Fails
import Columnar.Proofs.Packet.Forms

/-!
# What a handshake accepts

A handshake opens a connection exactly if the stream begins with what a server says about itself. An
exception in its place is raised as the server's, and everything else breaks the protocol or is a
failure of the stream. Whatever comes, the introduction of the client is all that is written, and
nothing behind the first packet is read. Main statement: `handshake_accepts`.
-/

namespace Columnar

open ByteStream Wire Decoder

namespace Packet

variable {ρ : Type} [Reader ρ] [Observable ρ] {phase : Phase} {r : Revision} {registry : Registry}

/-- A packet whose code is not permitted is refused there, and nothing behind the code is read. -/
lemma run_decode_refused {code : UInt64} {e : ClientError} (refused : permit phase code = .error e)
    {s : ρ} {rest : Feed} (here : Begins Varint.Form (unread s) rest code) :
    ∃ s', (decode phase r registry : Decoder ρ ClientError Packet).run s = (.error e, s') ∧
      unread s' = rest := by
  obtain ⟨bs, here, form⟩ := here
  obtain ⟨s', run, left⟩ := (Varint.spells_decode.complete form).whole here
  refine ⟨s', ?_, left⟩
  rw [decode, run_bind_ok (run_mapError run), refused]
  rfl

/-- In the opening only a greeting and an exception are permitted. -/
lemma permit_opening {code : UInt64} (hello : code ≠ 0) (exception : code ≠ 2) :
    ∃ e, permit .opening code = .error e := by
  cases permits : permit .opening code with
  | error e => exact ⟨e, rfl⟩
  | ok kind =>
    obtain ⟨rfl, accepted⟩ := permit_eq_ok_iff.1 permits
    cases kind with
    | hello => exact absurd rfl hello
    | exception => exact absurd rfl exception
    | _ => cases accepted

variable {s s' : ρ} {found : Except ClientError Packet} {rest : Feed}

/-- A greeting is found just where the stream begins with one. -/
lemma found_hello_iff (run : (decode .opening r registry).run s = (found, s')) {info : ServerInfo} :
    found = .ok (.hello info) ∧ unread s' = rest ↔
      Begins (PacketForm 0 ServerInfo.Form) (unread s) rest info := by
  rw [(spells_decode .opening r registry).ok_iff run]
  exact exists_congr fun bs => and_congr_right fun _ => (and_iff_left rfl).trans complete_hello_iff

/-- An exception is found just where the stream begins with one. -/
lemma found_exception_iff (run : (decode .opening r registry).run s = (found, s'))
    {e : ServerException} : found = .ok (.exception e) ∧ unread s' = rest ↔
      Begins (PacketForm 2 ServerException.Form) (unread s) rest e := by
  rw [(spells_decode .opening r registry).ok_iff run]
  exact exists_congr fun bs => and_congr_right fun _ =>
    (and_iff_left rfl).trans complete_exception_iff

end Packet

/-- A greeting as it is sent is in form. -/
lemma Greeting.Fits.form {g : Greeting} (fits : g.Fits) :
    PacketForm 0 ServerInfo.Form g.encode g.info := by
  have reads : (Packet.decode .opening .client .builtin : Decoder Feed ClientError Packet).Reads
      g.encode (.hello g.info) := Greeting.reads_decode fits
  obtain ⟨complete, _⟩ := Packet.reads_decode_iff.1 reads
  exact Packet.complete_hello_iff.1 complete

namespace Connection

variable {ρ : Type} {options : Options} {found : Except ClientError Packet} {t : Transport ρ}

/-- What a handshake makes of the server's first packet. -/
def concluded (options : Options) (t : Transport ρ) (found : Except ClientError Packet) :
    Except ClientError (Connection ρ) :=
  ((greeted found).mapError .handshake).map (opened options t)

/-- The connection is opened with what the server says about itself. -/
lemma concluded_ok_iff {c : Connection ρ} : concluded options t found = .ok c ↔
    ∃ info, found = .ok (.hello info) ∧ c = opened options t info := by
  constructor
  · intro opens
    rcases found with e | p
    · cases opens
    · cases p with
      | hello info =>
        cases opens
        exact ⟨info, rfl, rfl⟩
      | _ => cases opens
  · rintro ⟨info, rfl, rfl⟩
    rfl

/-- An exception of the server is never what is found when a packet cannot be read. -/
lemma concluded_server_iff (sort : ∀ e, found = .error e → e.OfStream) {e : ServerException} :
    concluded options t found = .error (.handshake (.server e)) ↔
      found = .ok (.exception e) := by
  constructor
  · intro raises
    rcases found with e' | p
    · cases raises
      cases sort _ rfl
    · cases p with
      | exception e' =>
        cases raises
        rfl
      | _ => cases raises
  · rintro rfl
    rfl

/-- What is found otherwise makes the handshake fail, by its protocol or by its transport. -/
lemma concluded_failed (sort : ∀ e, found = .error e → e.OfStream)
    (hello : ∀ info, found ≠ .ok (.hello info)) (exception : ∀ e, found ≠ .ok (.exception e)) :
    (∃ e, concluded options t found = .error (.handshake (.protocol e))) ∨
      ∃ e, concluded options t found = .error (.handshake (.transport e)) := by
  rcases found with e | p
  · cases sort e rfl with
    | @transport e _ => exact .inr ⟨e, rfl⟩
    | protocol e => exact .inl ⟨e, rfl⟩
  · cases p with
    | hello info => exact absurd rfl (hello info)
    | exception e => exact absurd rfl (exception e)
    | _ => exact .inl ⟨_, rfl⟩

variable [Reader ρ]

/-- Where all writes succeed, the introduction is sent and the first packet is read. -/
lemma handshake_of_run (options : Options) {stream : ρ} {sink : Sink} {input : Buffered ρ}
    (obliging : sink.Obliging)
    (run : (Packet.decode .opening .client .builtin : Decoder _ ClientError _).run
      { inner := stream } = (found, input)) :
    ∃ t, handshake options (.ofStream stream sink) = (concluded options t found, t) ∧
      t.input = input ∧
      t.sink.accepted = sink.accepted ++ (Request.helloOf options).encode .client ∧
      t.staged = [] := by
  have fresh : (Transport.ofStream stream sink).Obliging := ⟨rfl, obliging⟩
  obtain ⟨sink', flushed, accepted, _⟩ :=
    (fresh.stage ((Request.helloOf options).encode .client)).flush
  exact ⟨_, handshake_of_hello flushed (readHello_of_run run), rfl, accepted, rfl⟩

variable [Observable ρ]

/-- Over a sink that refuses nothing a handshake writes the introduction and nothing else. It opens
a connection exactly if the stream begins with a greeting, and raises an exception of the server
exactly if the stream begins with one; otherwise the protocol is broken or the stream has failed. No
second packet is read: what stands behind a greeting or an exception, and behind the code of any
other packet, is still unread. -/
theorem handshake_accepts (options : Options) (stream : ρ) {sink : Sink}
    (obliging : sink.Obliging) :
    ∃ (result : Except ClientError (Connection ρ)) (t : Transport ρ),
      handshake options (.ofStream stream sink) = (result, t) ∧
      (t.sink.accepted = sink.accepted ++ (Request.helloOf options).encode .client ∧
        t.staged = []) ∧
      (∀ c rest, result = .ok c ∧ ByteStream.unread t.input = rest ↔
        ∃ info, Begins (PacketForm 0 ServerInfo.Form) (ByteStream.unread stream) rest info ∧
          c = { transport := t, options, registry := .builtin, server := info,
                revision := ⟨min info.revision 54126⟩, state := .idle }) ∧
      (∀ e rest, result = .error (.handshake (.server e)) ∧ ByteStream.unread t.input = rest ↔
        Begins (PacketForm 2 ServerException.Form) (ByteStream.unread stream) rest e) ∧
      ((¬∃ info rest, Begins (PacketForm 0 ServerInfo.Form) (ByteStream.unread stream) rest info) →
        (¬∃ e rest, Begins (PacketForm 2 ServerException.Form) (ByteStream.unread stream) rest e) →
        (∃ e, result = .error (.handshake (.protocol e))) ∨
          ∃ e, result = .error (.handshake (.transport e))) ∧
      (∀ code rest, code ≠ 0 → code ≠ 2 → Begins Varint.Form (ByteStream.unread stream) rest code →
        ByteStream.unread t.input = rest) ∧
      ByteStream.unread t.input <:+ ByteStream.unread stream := by
  -- All is decided by the one packet that is read after the introduction has been sent.
  obtain ⟨found, input, run⟩ : ∃ found input,
      (Packet.decode .opening .client .builtin : Decoder (Buffered ρ) ClientError _).run
        { inner := stream } = (found, input) := ⟨_, _, rfl⟩
  obtain ⟨t, opens, rfl, accepted, staged⟩ := handshake_of_run options obliging run
  have sort : ∀ e, found = .error e → e.OfStream := by
    rintro e rfl
    exact Packet.fails_decode _ _ _ _ _ _ run
  have hello {info rest} : found = .ok (.hello info) ∧ ByteStream.unread t.input = rest ↔
      Begins (PacketForm 0 ServerInfo.Form) (ByteStream.unread stream) rest info :=
    Packet.found_hello_iff run
  have exception {e rest} : found = .ok (.exception e) ∧ ByteStream.unread t.input = rest ↔
      Begins (PacketForm 2 ServerException.Form) (ByteStream.unread stream) rest e :=
    Packet.found_exception_iff run
  refine ⟨_, t, opens, ⟨accepted, staged⟩, ?_, ?_, ?_, ?_,
    (Packet.agrees_decode (σ := ρ) _ _ _).suffix run⟩
  · intro c rest
    rw [concluded_ok_iff]
    constructor
    · rintro ⟨⟨info, same, rfl⟩, left⟩
      exact ⟨info, hello.1 ⟨same, left⟩, rfl⟩
    · rintro ⟨info, begins, rfl⟩
      obtain ⟨same, left⟩ := hello.2 begins
      exact ⟨⟨info, same, rfl⟩, left⟩
  · intro e rest
    rw [concluded_server_iff sort]
    exact exception
  · intro never never'
    refine concluded_failed sort (fun info same => ?_) fun e same => ?_
    · exact never ⟨info, _, hello.1 ⟨same, rfl⟩⟩
    · exact never' ⟨e, _, exception.1 ⟨same, rfl⟩⟩
  · intro code rest other other' begins
    obtain ⟨e, refused⟩ := Packet.permit_opening other other'
    obtain ⟨s, run', left⟩ := Packet.run_decode_refused (s := Buffered.mk stream []) refused begins
    cases run.symm.trans run'
    exact left

/-- A server that is ahead of the client. -/
def later : Greeting where
  name := "ClickHouse"
  versionMajor := 19
  versionMinor := 4
  revision := 54417
  timezone := "UTC"

/-- The greeting of the later server can be sent. -/
lemma later_fits : later.Fits := ⟨by decide, by decide⟩

/-- With the later server a connection at the client's revision is opened, the server's timezone is
known, and a byte that follows the greeting is left. -/
theorem handshake_accepts_later : ∃ t : Transport Feed,
    handshake { queryIds := ⟨0⟩ } (.ofStream (.ofBytes (later.encode ++ [4])) {}) =
      (.ok { transport := t, options := { queryIds := ⟨0⟩ }, registry := .builtin,
             server := ⟨"ClickHouse", 19, 4, 54417, some "UTC"⟩, revision := ⟨54126⟩,
             state := .idle }, t) ∧
    t.sink.accepted = (Request.helloOf { queryIds := ⟨0⟩ }).encode .client ∧
    ByteStream.unread t.input = .ofBytes [4] := by
  have obliging : Sink.Obliging {} := ⟨nofun, nofun⟩
  have begins : Begins (PacketForm 0 ServerInfo.Form)
      (ByteStream.unread (Feed.ofBytes (later.encode ++ [4]))) (.ofBytes [4])
      ⟨"ClickHouse", 19, 4, 54417, some "UTC"⟩ :=
    ⟨later.encode, (Feed.calm_ofBytes _).trans (Feed.ofBytes_append _ _), later_fits.form⟩
  obtain ⟨result, t, opens, ⟨accepted, _⟩, ok, _⟩ :=
    handshake_accepts { queryIds := ⟨0⟩ } (Feed.ofBytes (later.encode ++ [4])) obliging
  obtain ⟨rfl, left⟩ := (ok _ _).2 ⟨_, begins, rfl⟩
  exact ⟨t, opens, accepted, left⟩

end Connection

end Columnar
