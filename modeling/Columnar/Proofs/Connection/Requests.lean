import Columnar.Proofs.Connection.Replay
import Columnar.Proofs.Connection.Session
import Columnar.Proofs.Packet.Submission
import Mathlib.Data.List.Basic
import Mathlib.Data.Nat.Digits.Defs

/-!
# What a session writes

A session writes its introduction and then, call by call, the packets of the calls until the
connection is closed (`Call.WritesAll`). A server that reads packet after packet at the same revision
finds exactly these packets and nothing else. Main statement: `requests_recovered`.
-/

namespace Columnar

open ByteStream Wire

/-- No character takes more than four bytes. -/
lemma Utf8.length_encode_le (s : String) : (encode s).length ≤ 4 * s.length := by
  rw [encode, ← String.length_toList]
  induction s.toList with
  | nil => exact Nat.le_refl 0
  | cons c cs ih =>
    have size : (String.utf8EncodeChar c).length ≤ 4 := by
      rw [String.length_utf8EncodeChar]
      exact c.utf8Size_le_four
    rw [List.flatMap_cons, List.length_append, List.length_cons]
    omega

/-- The number of a query as text has at most twenty digits. -/
lemma fitsText_id (id : UInt64) : FitsText (toString id.toNat) := by
  have below : id.toNat < 10 ^ 20 := Nat.lt_trans id.toNat_lt (by decide)
  have digits : (toString id.toNat).length ≤ 20 := Nat.repr_length id.toNat 20 (by decide) below
  have size := Utf8.length_encode_le (toString id.toNat)
  rw [FitsText]
  omega

/-- The texts of the options are not too long for the wire. -/
structure Options.Fits (o : Options) : Prop where
  clientName : FitsText o.clientName
  database : FitsText o.database
  user : FitsText o.user
  password : FitsText o.password
  quotaKey : FitsText o.quotaKey

/-- What accompanies the queries of a client with these options. -/
def Options.clientInfo (o : Options) : ClientInfo where
  queryKind := 1
  initialUser := ""
  initialQueryId := ""
  initialAddress := "[::ffff:127.0.0.1]:0"
  transport := 1
  osUser := ""
  hostname := ""
  clientName := o.clientName
  versionMajor := 1
  versionMinor := 1
  revision := 54126
  quotaKey := o.quotaKey

/-- The info of a client can be sent if its options can. -/
lemma Options.Fits.clientInfo {o : Options} (fits : o.Fits) : o.clientInfo.Fits := by
  have empty : FitsText "" := by decide
  have address : FitsText "[::ffff:127.0.0.1]:0" := by decide
  exact ⟨empty, empty, address, empty, empty, fits.clientName, fits.quotaKey⟩

/-- The bytes of an introduction and of the packets behind it. -/
def Request.introduced (o : Options) (r : Revision) (packets : List Request) : Bytes :=
  (hello o.clientName o.database o.user o.password).encode .client ++ encodeAll r packets

/-- An introduction and the packets behind it as a server at the revision reads them. -/
def Submission.introduced (o : Options) (r : Revision) (packets : List Request) :
    List Submission :=
  .hello o.clientName 1 1 54126 o.database o.user o.password :: packets.map (Request.received r)

namespace Call

/-- What the call writes can be sent: its text is not too long for the wire, and its block can be put
together. -/
def Fits : Call → Prop
  | .execute query => FitsText query.text
  | .insert table block => FitsText ("INSERT INTO " ++ table ++ " VALUES") ∧ block.Built ∧ block.Fits
  | .ping => True

/-- The packets that a call with this answer writes, and the ids after it. A query has the next number
of the counter. The rows of an insert are held back only from one that fails. -/
inductive Writes (options : Options) (ids : QueryIds) :
    Call → Answer → List Request → QueryIds → Prop where
  | execute {query : Query} {answer : Answer} {id : UInt64} :
    id = ids.count options.queryIds + 1 →
    Writes options ids (.execute query) answer
      [.query (toString id.toNat) options.clientInfo query.text, .data {}]
      (ids.setCount options.queryIds id)
  | announced {table : String} {block : Block} {e : ClientError} {id : UInt64} :
    id = ids.count options.queryIds + 1 →
    Writes options ids (.insert table block) { result := .error e }
      [.query (toString id.toNat) options.clientInfo ("INSERT INTO " ++ table ++ " VALUES"),
        .data {}]
      (ids.setCount options.queryIds id)
  | inserted {table : String} {block : Block} {answer : Answer} {id : UInt64} :
    id = ids.count options.queryIds + 1 →
    Writes options ids (.insert table block) answer
      [.query (toString id.toNat) options.clientInfo ("INSERT INTO " ++ table ++ " VALUES"),
        .data {}, .data block, .data {}]
      (ids.setCount options.queryIds id)
  | ping {answer : Answer} : Writes options ids .ping answer [.ping] ids

/-- The packets that calls with these answers write one after the other. -/
inductive WritesAll (options : Options) :
    QueryIds → List Call → List Answer → List Request → QueryIds → Prop where
  | nil {ids : QueryIds} : WritesAll options ids [] [] [] ids
  | cons {ids ids₁ ids' : QueryIds} {k : Call} {ks : List Call} {answer : Answer}
      {answers : List Answer} {requests rest : List Request} :
    k.Writes options ids answer requests ids₁ →
    WritesAll options ids₁ ks answers rest ids' →
    WritesAll options ids (k :: ks) (answer :: answers) (requests ++ rest) ids'

variable {options : Options} {ids ids' : QueryIds} {requests : List Request}

/-- What a call writes is not too long for the wire. -/
lemma Writes.fits {k : Call} {answer : Answer} (writes : k.Writes options ids answer requests ids')
    (fits : options.Fits) (given : k.Fits) : ∀ p ∈ requests, p.Fits := by
  have empty : Request.Fits (.data {}) := ⟨.endMarker, by decide⟩
  have query {text : String} (id : UInt64) (written : FitsText text) :
      Request.Fits (.query (toString id.toNat) options.clientInfo text) :=
    ⟨fitsText_id id, fits.clientInfo, written⟩
  cases writes with
  | @execute _ _ id =>
    simp only [List.forall_mem_cons]
    exact ⟨query id given, empty, List.forall_mem_nil _⟩
  | @announced _ _ _ id =>
    simp only [List.forall_mem_cons]
    exact ⟨query id given.1, empty, List.forall_mem_nil _⟩
  | @inserted _ _ _ id =>
    simp only [List.forall_mem_cons]
    exact ⟨query id given.1, empty, given.2, empty, List.forall_mem_nil _⟩
  | ping => exact List.forall_mem_singleton.2 trivial

/-- What calls write is not too long for the wire. -/
lemma WritesAll.fits {ks : List Call} {answers : List Answer}
    (writes : WritesAll options ids ks answers requests ids') (fits : options.Fits)
    (given : ∀ k ∈ ks, k.Fits) : ∀ p ∈ requests, p.Fits := by
  induction writes with
  | nil => exact List.forall_mem_nil _
  | cons first _ ih =>
    rw [List.forall_mem_cons] at given
    exact List.forall_mem_append.2 ⟨first.fits fits given.1, ih given.2⟩

end Call

namespace Connection

variable {ρ σ : Type}

/-- From the one connection to the other these packets have been written, and nothing is staged. -/
structure Wrote (c : Connection ρ) (packets : List Request) (c' : Connection ρ) : Prop where
  options : c'.options = c.options
  revision : c'.revision = c.revision
  obliging : c'.transport.Obliging
  staged : c'.transport.staged = []
  accepted : c'.transport.sink.accepted =
    c.transport.sink.accepted ++ Request.encodeAll c.revision packets

/-- A connection that does nothing writes nothing. -/
lemma Wrote.nothing {c : Connection ρ} (obliging : c.transport.Obliging)
    (clear : c.transport.staged = []) : Wrote c [] c :=
  ⟨rfl, rfl, obliging, clear, (List.append_nil _).symm⟩

/-- What is written in two parts is written one part after the other. -/
lemma Wrote.trans {c c' c'' : Connection ρ} {packets packets' : List Request}
    (first : Wrote c packets c') (second : Wrote c' packets' c'') :
    Wrote c (packets ++ packets') c'' where
  options := second.options.trans first.options
  revision := second.revision.trans first.revision
  obliging := second.obliging
  staged := second.staged
  accepted := by
    rw [second.accepted, first.accepted, first.revision, Request.encodeAll, Request.encodeAll,
      Request.encodeAll, List.flatMap_append, List.append_assoc]

/-- How the connection settles in the end changes nothing of what was written. -/
lemma Wrote.settle {c c' : Connection ρ} {packets : List Request} (wrote : Wrote c.busy packets c')
    (drained : Bool) : Wrote c packets (c'.settle drained) :=
  ⟨wrote.options, wrote.revision, wrote.obliging, wrote.staged, wrote.accepted⟩

/-- What is written behind the introduction stands behind it. -/
lemma Wrote.introduced {c c' : Connection ρ} {options : Options} {before : Bytes}
    {requests : List Request} (wrote : Wrote c requests c')
    (opened : c.transport.sink.accepted = before ++ Request.introduced options c.revision []) :
    c'.transport.sink.accepted = before ++ Request.introduced options c.revision requests := by
  rw [wrote.accepted, opened, List.append_assoc, Request.introduced, List.append_assoc]
  rfl

/-- A query is started by its packet, under the next number, and a block without data. -/
lemma opening_eq (c : Connection ρ) (ids : QueryIds) (text : String) : c.opening ids text =
    [.query (toString (ids.count c.options.queryIds + 1).toNat) c.options.clientInfo text,
      .data {}] := rfl

/-- The rows of an insert are followed by a block without data. -/
lemma insertRows_eq (block : Block) : Request.insertRows block = [.data block, .data {}] := rfl

variable [Reader ρ] {c c' : Connection ρ} {ids ids' : QueryIds}

/-- An exchange writes its packets. -/
lemma wrote_of_exchange {packets : List Request} {phase : Phase} {before : List Packet}
    {last : Except ClientError Packet} (obliging : c.transport.Obliging)
    (clear : c.transport.staged = [])
    (h : c.exchange packets phase = ((before, last), c')) : Wrote c packets c' := by
  obtain ⟨t, sends, _, sent⟩ := send_obliging obliging packets
  rcases exchange_inv h with ⟨e, _, _, fails⟩ | ⟨c₁, sends', received⟩
  · cases sends.symm.trans fails
  · cases sends.symm.trans sends'
    obtain ⟨input, rfl, _⟩ := receive_inv received
    have accepted := sent.accepted
    rw [clear, List.nil_append] at accepted
    have kept := sent.receive input
    exact ⟨rfl, rfl, kept.obliging, kept.staged, accepted⟩

/-- An exchange of a busy connection writes its packets, however it settles. -/
lemma wrote_of_busy {packets : List Request} {phase : Phase} {before : List Packet}
    {last : Except ClientError Packet} (obliging : c.transport.Obliging)
    (clear : c.transport.staged = []) (h : c.busy.exchange packets phase = ((before, last), c'))
    (drained : Bool) : Wrote c packets (c'.settle drained) :=
  (wrote_of_exchange (c := c.busy) obliging clear h).settle drained

/-- A call on an idle connection writes its packets. -/
lemma writes_of_call {k : Call} {answer : Answer} (idle : c.state = .idle)
    (obliging : c.transport.Obliging) (clear : c.transport.staged = [])
    (called : c.call k ids = (answer, c', ids')) :
    ∃ requests, k.Writes c.options ids answer requests ids' ∧ Wrote c requests c' := by
  cases performed_of_call idle called with
  | executed exchanged =>
    rw [opening_eq] at exchanged
    exact ⟨_, .execute rfl, wrote_of_busy obliging clear exchanged _⟩
  | undescribed exchanged =>
    rw [opening_eq] at exchanged
    exact ⟨_, .announced rfl, wrote_of_busy obliging clear exchanged _⟩
  | refused exchanged =>
    rw [opening_eq] at exchanged
    exact ⟨_, .announced rfl, wrote_of_busy obliging clear exchanged _⟩
  | inserted exchanged ready answered =>
    rw [opening_eq] at exchanged
    rw [insertRows_eq] at answered
    have first := wrote_of_exchange (c := c.busy) obliging clear exchanged
    have second := wrote_of_exchange first.obliging first.staged answered
    exact ⟨_, .inserted rfl, (first.trans second).settle _⟩
  | pinged exchanged => exact ⟨_, .ping, wrote_of_busy obliging clear exchanged _⟩

/-- Calls write their packets one after the other until the connection is closed. -/
lemma writes_of_calls {ks : List Call} {answers : List Answer}
    (ready : c.state = .idle ∨ c.state = .disconnected) (obliging : c.transport.Obliging)
    (clear : c.transport.staged = []) (called : c.calls ks ids = (answers, c', ids')) :
    ∃ done later answered requests, ks = done ++ later ∧
      answers = answered ++ later.map (fun _ => { result := .error .disconnected }) ∧
      Call.WritesAll c.options ids done answered requests ids' ∧ Wrote c requests c' := by
  induction ks generalizing c ids answers with
  | nil =>
    cases called
    exact ⟨[], [], [], [], rfl, rfl, .nil, .nothing obliging clear⟩
  | cons k ks ih =>
    rcases ready with idle | closed
    · obtain ⟨answer, c₁, ids₁, first⟩ : ∃ answer c₁ ids₁, c.call k ids = (answer, c₁, ids₁) :=
        ⟨_, _, _, rfl⟩
      obtain ⟨answers₁, c₂, ids₂, others⟩ : ∃ answers₁ c₂ ids₂,
          c₁.calls ks ids₁ = (answers₁, c₂, ids₂) := ⟨_, _, _, rfl⟩
      rw [calls_cons first others] at called
      cases called
      obtain ⟨requests, writes, wrote⟩ := writes_of_call idle obliging clear first
      obtain ⟨done, later, answered, requests', rfl, rfl, writes', wrote'⟩ :=
        ih (settled_call (.inl idle) first).ready wrote.obliging wrote.staged others
      rw [wrote.options] at writes'
      exact ⟨k :: done, later, answer :: answered, requests ++ requests', rfl, rfl,
        .cons writes writes', wrote.trans wrote'⟩
    · rw [calls_of_disconnected closed] at called
      cases called
      exact ⟨[], k :: ks, [], [], rfl, rfl, .nil, .nothing obliging clear⟩

/-- A connection that has been opened has introduced its client and nothing else. -/
lemma introduced_of_handshake {options : Options} {stream : ρ} {sink : Sink} {t : Transport ρ}
    (obliging : sink.Obliging) (opened : handshake options (.ofStream stream sink) = (.ok c, t)) :
    c.options = options ∧ c.revision = .negotiate c.server.revision ∧ c.state = .idle ∧
      c.transport.Obliging ∧ c.transport.staged = [] ∧
      c.transport.sink.accepted = sink.accepted ++ Request.introduced options c.revision [] := by
  have fresh : (Transport.ofStream stream sink).Obliging := ⟨rfl, obliging⟩
  obtain ⟨sent, flushed, accepted, obliges⟩ :=
    (fresh.stage ((Request.helloOf options).encode .client)).flush
  obtain ⟨t₁, info, flushed', read, rfl⟩ := handshake_inv opened
  cases flushed.symm.trans flushed'
  obtain ⟨input, rfl⟩ := readHello_inv read
  refine ⟨rfl, rfl, rfl, ⟨rfl, obliges⟩, rfl, accepted.trans ?_⟩
  exact congrArg _ (List.append_nil _).symm

/-- A server finds the packets of an introduction and of what follows it. -/
lemma listen_introduced [Reader σ] [Observable σ] {options : Options} (fits : options.Fits)
    (r : Revision) {requests : List Request} (all : ∀ p ∈ requests, p.Fits) {input : σ}
    (here : ByteStream.unread input = .ofBytes (Request.introduced options r requests)) :
    Submission.listen r input = .ok (Submission.introduced options r requests) := by
  have hello : (Request.hello options.clientName options.database options.user
      options.password).Fits := ⟨fits.clientName, fits.database, fits.user, fits.password⟩
  exact Submission.listen_encodeAll r (List.forall_mem_cons.2 ⟨hello, all⟩) here

/-- The packets that calls write, at whatever revision was agreed on, are what a server finds that
reads them at this revision, and nothing is left over; and a session writes nothing else, so that a
server finds the packets of its calls. -/
theorem requests_recovered [Reader σ] [Observable σ] {options : Options} (fits : options.Fits)
    {ks : List Call} (given : ∀ k ∈ ks, k.Fits) (ids : QueryIds) :
    (∀ (server : UInt64) {answers : List Answer} {requests : List Request} {ids' : QueryIds},
      Call.WritesAll options ids ks answers requests ids' →
      ∀ {input : σ},
        ByteStream.unread input =
          .ofBytes (Request.introduced options (.negotiate server) requests) →
        Submission.listen (.negotiate server) input =
          .ok (Submission.introduced options (.negotiate server) requests)) ∧
    ∀ {stream : ρ} {sink : Sink} {t : Transport ρ} {c c' : Connection ρ} {answers : List Answer}
      {ids' : QueryIds},
      sink.Obliging →
      handshake options (.ofStream stream sink) = (.ok c, t) →
      c.calls ks ids = (answers, c', ids') →
      c.revision = .negotiate c.server.revision ∧
      ∃ done later answered requests, ks = done ++ later ∧
        answers = answered ++ later.map (fun _ => { result := .error .disconnected }) ∧
        Call.WritesAll options ids done answered requests ids' ∧
        c'.transport.sink.accepted =
          sink.accepted ++ Request.introduced options c.revision requests ∧
        ∀ {input : σ},
          ByteStream.unread input = .ofBytes (Request.introduced options c.revision requests) →
          Submission.listen c.revision input =
            .ok (Submission.introduced options c.revision requests) := by
  constructor
  · intro server answers requests ids' writes input here
    exact listen_introduced fits _ (writes.fits fits given) here
  · intro stream sink t c c' answers ids' obliging opened called
    obtain ⟨rfl, agreed, idle, obliges, clear, introduced⟩ :=
      introduced_of_handshake obliging opened
    obtain ⟨done, later, answered, requests, split, answers, writes, wrote⟩ :=
      writes_of_calls (.inl idle) obliges clear called
    have done_fit : ∀ k ∈ done, k.Fits := fun k mem =>
      given k (split ▸ List.mem_append_left later mem)
    exact ⟨agreed, done, later, answered, requests, split, answers, writes,
      wrote.introduced introduced, listen_introduced fits _ (writes.fits fits done_fit)⟩

/-- A query, an insert and a ping, each with its response. -/
def errands : List Turn := [.failingQuery, .takenInsert, .answeredPing]

/-- What the server of the errands sends. -/
def errandsStream : Feed :=
  .ofBytes (elder.encode ++ errands.flatMap (Turn.encode elder.agreed))

/-- What a server reads that is told of the client in this way and makes this of the rows. -/
def errandsRead (client : Option ReportedClient) (rows : Block) : List Submission :=
  [.hello "ClickHouse client" 1 1 54126 "default" "default" "",
    .query "1" client [] 2 0 "SELECT v FROM twins", .data { settled := some 0 },
    .query "2" client [] 2 0 "INSERT INTO twins VALUES", .data { settled := some 0 },
    .data rows, .data { settled := some 0 }, .ping]

/-- What a query says of a client without options at a revision that has no quota key in it. -/
def errandsClient : ReportedClient where
  queryKind := 1
  initialUser := ""
  initialQueryId := ""
  initialAddress := "[::ffff:127.0.0.1]:0"
  transport := 1
  osUser := ""
  hostname := ""
  clientName := "ClickHouse client"
  versionMajor := 1
  versionMinor := 1
  revision := 54126
  quotaKey := none

/-- The errands can all be sent. -/
lemma errands_fit : ∀ k ∈ errands.map Turn.call, k.Fits := by
  have query : FitsText "SELECT v FROM twins" := by decide
  have announcement : FitsText ("INSERT INTO " ++ "twins" ++ " VALUES") := by decide
  simp only [errands, List.map_cons, List.map_nil, List.forall_mem_cons]
  exact ⟨query, ⟨announcement, Block.twins_built, Block.twins_fits⟩, trivial, List.forall_mem_nil _⟩

/-- At a revision that has the client info but no quota key in it, and in a session at one that has
neither this nor the info of blocks. -/
theorem requests_recovered_errands :
    (∃ answers requests ids',
      Call.WritesAll { queryIds := ⟨0⟩ } {} (errands.map Turn.call) answers requests ids' ∧
      Submission.listen (.negotiate 54059) (Feed.ofBytes
          (Request.introduced { queryIds := ⟨0⟩ } (.negotiate 54059) requests)) =
        .ok (errandsRead (some errandsClient) .twins)) ∧
    ∃ (c : Connection Feed) (t : Transport Feed) (answers : List Answer) (c' : Connection Feed)
        (ids' : QueryIds),
      handshake { queryIds := ⟨0⟩ } (.ofStream errandsStream {}) = (.ok c, t) ∧
      c.calls (errands.map Turn.call) {} = (answers, c', ids') ∧
      Submission.listen c.revision (Feed.ofBytes c'.transport.sink.accepted) =
        .ok (errandsRead none { Block.twins with info := {} }) := by
  have fits : Options.Fits { queryIds := ⟨0⟩ } :=
    ⟨by decide, by decide, by decide, by decide, by decide⟩
  obtain ⟨found, written⟩ := requests_recovered (ρ := Feed) (σ := Feed) fits errands_fit {}
  constructor
  · have writes : Call.WritesAll { queryIds := ⟨0⟩ } {} (errands.map Turn.call)
        [{ result := .ok none }, { result := .ok none }, { result := .ok none }] _ _ :=
      .cons (.execute rfl) (.cons (.inserted rfl) (.cons .ping .nil))
    exact ⟨_, _, _, writes, found 54059 writes (Feed.calm_ofBytes _)⟩
  · have obliging : Sink.Obliging {} := ⟨nofun, nofun⟩
    have here : ByteStream.unread errandsStream =
        .ofBytes elder.encode ++ .ofBytes (errands.flatMap (Turn.encode elder.agreed)) :=
      (Feed.calm_ofBytes _).trans (Feed.ofBytes_append _ _)
    obtain ⟨t, opened, obliges, left⟩ :=
      handshake_whole { queryIds := ⟨0⟩ } elder_fits obliging here
    obtain ⟨t', ids', called, _⟩ := calls_of_turns
      (c := ⟨t, { queryIds := ⟨0⟩ }, .builtin, elder.info, elder.agreed, .idle⟩) rfl
      Registry.knowsBuiltin_builtin obliges (left.trans (List.append_nil _).symm) {}
    obtain ⟨_, done, later, answered, requests, split, answers, writes, accepted, heard⟩ :=
      written obliging opened called
    -- The last answer is no refusal, so all of the calls have been made.
    obtain rfl : later = [] := by
      rcases later.eq_nil_or_concat' with none | ⟨later, k, rfl⟩
      · exact none
      · have last := congrArg List.getLast? answers
        rw [List.map_append, ← List.append_assoc, List.map_singleton, List.getLast?_concat] at last
        cases last
    rw [List.append_nil] at split
    rw [List.map_nil, List.append_nil] at answers
    subst split answers
    refine ⟨_, t, _, _, ids', opened, called, ?_⟩
    -- An insert that does not fail writes its rows.
    rcases writes with _ | ⟨⟨rfl⟩, _ | ⟨_ | _ | ⟨rfl⟩, _ | ⟨⟨⟩, ⟨⟩⟩⟩⟩
    rw [accepted]
    exact heard (Feed.calm_ofBytes _)

end Connection

end Columnar
