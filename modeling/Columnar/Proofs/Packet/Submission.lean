import Columnar.Packet.Client
import Columnar.Proofs.Packet.Reply

/-!
# How a server reads a client

`Submission` is a packet of a client as a server makes it out. It is read by the decoders of the
wire, and the revision is asked for the same features as when the packet is written; `listen` reads
packets until the stream has ended. What a client sends is read back packet by packet
(`Submission.reads_decode`), so all of it is (`Submission.listen_encodeAll`).
-/

namespace Columnar

open ByteStream Wire

/-- What a server is told about the client that sends a query; not every revision has the quota
key. -/
structure ReportedClient where
  queryKind : UInt8
  initialUser : String
  initialQueryId : String
  initialAddress : String
  transport : UInt8
  osUser : String
  hostname : String
  clientName : String
  versionMajor : UInt64
  versionMinor : UInt64
  revision : UInt64
  quotaKey : Option String
  deriving DecidableEq, Repr

/-- A packet of a client as a server reads it. -/
inductive Submission where
  | hello (clientName : String) (versionMajor versionMinor revision : UInt64)
    (database user password : String)
  | query (id : String) (client : Option ReportedClient) (settings : List (String × String))
    (stage compression : UInt64) (text : String)
  | data (block : Block)
  | cancel
  | ping

namespace RequestKind

/-- The kind of packet that a server takes this code for. -/
def ofCode? : UInt64 → Option RequestKind
  | 0 => some .hello
  | 1 => some .query
  | 2 => some .data
  | 3 => some .cancel
  | 4 => some .ping
  | _ => none

/-- A server knows every kind of packet by the code that a client gives it. -/
lemma ofCode?_code (k : RequestKind) : ofCode? k.code = some k := by
  cases k <;> rfl

end RequestKind

section

variable {ρ : Type} [Reader ρ]

/-- Reads what a query says about its client. -/
def ReportedClient.decode (r : Revision) : Decoder ρ Error ReportedClient := do
  let queryKind ← Decoder.byte
  let initialUser ← decodeText
  let initialQueryId ← decodeText
  let initialAddress ← decodeText
  let transport ← Decoder.byte
  let osUser ← decodeText
  let hostname ← decodeText
  let clientName ← decodeText
  let versionMajor ← Varint.decode
  let versionMinor ← Varint.decode
  let revision ← Varint.decode
  let quotaKey ← decodeGated r .quotaKeyInClientInfo decodeText
  return {
    queryKind, initialUser, initialQueryId, initialAddress, transport, osUser, hostname, clientName,
    versionMajor, versionMinor, revision, quotaKey }

namespace Submission

/-- Reads a setting and its value, or the empty name that ends the settings. -/
def decodeSetting : Decoder ρ Error ((String × String) ⊕ Unit) := do
  let name ← decodeText
  if name = "" then return .inr ()
  else return .inl (name, ← decodeText)

/-- A loop that reads settings takes bytes in every round. -/
theorem consumes_decodeSetting :
    (decodeSetting : Decoder ρ Error ((String × String) ⊕ Unit)).Consumes :=
  ((Varint.consumes_decode.bind _).bind _).bind _

/-- Reads the settings of a query. -/
def decodeSettings : Decoder ρ Error (List (String × String)) := do
  match ← Decoder.gather decodeSetting consumes_decodeSetting with
  | (settings, .ok ()) => return settings
  | (_, .error e) => .fail e

def decodeHello : Decoder ρ Error Submission := do
  let clientName ← decodeText
  let versionMajor ← Varint.decode
  let versionMinor ← Varint.decode
  let revision ← Varint.decode
  let database ← decodeText
  let user ← decodeText
  let password ← decodeText
  return .hello clientName versionMajor versionMinor revision database user password

def decodeQuery (r : Revision) : Decoder ρ Error Submission := do
  let id ← decodeText
  let client ← decodeGated r .clientInfo (ReportedClient.decode r)
  let settings ← decodeSettings
  let stage ← Varint.decode
  let compression ← Varint.decode
  let text ← decodeText
  return .query id client settings stage compression text

/-- Reads what follows the code of a packet. -/
def decodeBody (r : Revision) : RequestKind → Decoder ρ ClientError Submission
  | .hello => decodeHello.mapError .ofWire
  | .query => (decodeQuery r).mapError .ofWire
  | .data => (.data <$> Block.decode r .builtin).mapError Block.Halt.error
  | .cancel => pure .cancel
  | .ping => pure .ping

/-- Reads a packet. -/
def decode (r : Revision) : Decoder ρ ClientError Submission :=
  Varint.decode.mapError .ofWire >>= fun code =>
    match RequestKind.ofCode? code with
    | none => .fail (.protocol (.unknownPacket code))
    | some kind => decodeBody r kind

/-- A loop that reads packets takes bytes in every round. -/
theorem consumes_decode (r : Revision) : (decode r : Decoder ρ ClientError Submission).Consumes :=
  (Varint.consumes_decode.mapError _).bind _

/-- Reads packets until nothing is left of the stream. -/
def listen [Observable ρ] (r : Revision) (s : ρ) : Except ClientError (List Submission) :=
  if unread s = [] then .ok []
  else
    match _run : (decode r).run s with
    | (.ok p, s') => (listen r s').map (p :: ·)
    | (.error e, _) => .error e
termination_by Reader.remaining s
decreasing_by simpa [_run] using consumes_decode r s p (by simp [_run])

end Submission

end

/-- What a server at the revision makes of what accompanies a query. -/
def ClientInfo.reported (r : Revision) (info : ClientInfo) : ReportedClient :=
  { info with quotaKey := if 54060 ≤ r.number then some info.quotaKey else none }

/-- What a server at the revision makes of a packet. -/
def Request.received (r : Revision) : Request → Submission
  | .hello clientName database user password => .hello clientName 1 1 54126 database user password
  | .query id info text =>
    .query id (if 54032 ≤ r.number then some (info.reported r) else none) [] 2 0 text
  | .data block =>
    .data {
      info := if 51903 ≤ r.number then block.info else {}
      settled := some block.rowCount
      lastFirst := block.lastFirst }
  | .ping => .ping

/-- The texts of the info are not too long for the wire. -/
structure ClientInfo.Fits (info : ClientInfo) : Prop where
  initialUser : FitsText info.initialUser
  initialQueryId : FitsText info.initialQueryId
  initialAddress : FitsText info.initialAddress
  osUser : FitsText info.osUser
  hostname : FitsText info.hostname
  clientName : FitsText info.clientName
  quotaKey : FitsText info.quotaKey

/-- The packet can be sent: its block can be put together, and nothing is too long for the wire. -/
def Request.Fits : Request → Prop
  | .hello clientName database user password =>
    FitsText clientName ∧ FitsText database ∧ FitsText user ∧ FitsText password
  | .query id info text => FitsText id ∧ info.Fits ∧ FitsText text
  | .data block => block.Built ∧ block.Fits
  | .ping => True

/-- A packet takes bytes. -/
lemma Request.encode_ne_nil (r : Revision) (p : Request) : p.encode r ≠ [] :=
  List.append_ne_nil_of_left_ne_nil (Varint.encodeNat_ne_nil _) _

variable {ρ : Type} [Reader ρ] [Observable ρ]

/-- The info of a client is reported as the revision allows. -/
lemma ReportedClient.reads_decode (r : Revision) {info : ClientInfo} (fits : info.Fits) :
    (decode r : Decoder ρ Error ReportedClient).Reads (info.encode r) (info.reported r) := by
  simp only [ClientInfo.encode, List.append_assoc]
  apply (Decoder.Reads.byte info.queryKind).bind
  apply (reads_decodeText fits.initialUser).bind
  apply (reads_decodeText fits.initialQueryId).bind
  apply (reads_decodeText fits.initialAddress).bind
  apply (Decoder.Reads.byte info.transport).bind
  apply (reads_decodeText fits.osUser).bind
  apply (reads_decodeText fits.hostname).bind
  apply (reads_decodeText fits.clientName).bind
  apply (Varint.reads_decode info.versionMajor).bind
  apply (Varint.reads_decode info.versionMinor).bind
  apply (Varint.reads_decode info.revision).bind
  exact (reads_gated (f := .quotaKeyInClientInfo) (reads_decodeText fits.quotaKey)).bind_pure
    (.pure _)

namespace Submission

/-- An empty name is read as the end of the settings. -/
lemma reads_decodeSettings :
    (decodeSettings : Decoder ρ Error (List (String × String))).Reads (encodeText "") [] := by
  have unnamed : FitsText "" := by decide
  have ends : (decodeSetting : Decoder ρ Error ((String × String) ⊕ Unit)).Reads (encodeText "")
      (.inr ()) := (reads_decodeText unnamed).bind_pure (.pure _)
  have none : ∀ x ∈ ([] : List (String × String)),
      (decodeSetting : Decoder ρ Error ((String × String) ⊕ Unit)).Reads (encodeText x.1)
        (.inl (id x)) := nofun
  exact Decoder.Reads.gather_bind id none ends rfl fun _ _ => rfl

/-- The introduction of a client is read as it was sent. -/
lemma reads_decodeHello {clientName database user password : String}
    (fits : (Request.hello clientName database user password).Fits) (r : Revision) :
    (decodeHello : Decoder ρ Error Submission).Reads
      ((Request.hello clientName database user password).encodeBody r)
      (.hello clientName 1 1 54126 database user password) := by
  obtain ⟨named, inDatabase, byUser, withPassword⟩ := fits
  simp only [Request.encodeBody, List.append_assoc]
  apply (reads_decodeText named).bind
  apply (Varint.reads_decode 1).bind
  apply (Varint.reads_decode 1).bind
  apply (Varint.reads_decode 54126).bind
  apply (reads_decodeText inDatabase).bind
  apply (reads_decodeText byUser).bind
  exact (reads_decodeText withPassword).bind_pure (.pure _)

/-- A query is read as it was sent. -/
lemma reads_decodeQuery (r : Revision) {id text : String} {info : ClientInfo}
    (fits : (Request.query id info text).Fits) :
    (decodeQuery r : Decoder ρ Error Submission).Reads
      ((Request.query id info text).encodeBody r) ((Request.query id info text).received r) := by
  obtain ⟨identified, reported, written⟩ := fits
  simp only [Request.encodeBody, List.append_assoc]
  apply (reads_decodeText identified).bind
  apply (reads_gated (f := .clientInfo) (ReportedClient.reads_decode r reported)).bind
  apply reads_decodeSettings.bind
  apply (Varint.reads_decode 2).bind
  apply (Varint.reads_decode 0).bind
  exact (reads_decodeText written).bind_pure (.pure _)

/-- The body of a packet is read as it was sent. -/
lemma reads_decodeBody (r : Revision) {p : Request} (fits : p.Fits) :
    (decodeBody r p.kind : Decoder ρ ClientError Submission).Reads (p.encodeBody r)
      (p.received r) := by
  cases p with
  | hello clientName database user password =>
    exact (reads_decodeHello fits r).mapError ClientError.truncation_ofWire
  | query id info text => exact (reads_decodeQuery r fits).mapError ClientError.truncation_ofWire
  | data block =>
    have unnamed : FitsText "" := by decide
    have read := Block.reads_decode (ρ := ρ) Registry.knowsBuiltin_builtin (r := r) fits.1 fits.2
      unnamed
    have same : block.received r = { block with
        info := if 51903 ≤ r.number then block.info else {}, settled := some block.rowCount } := by
      simp only [Block.received, Revision.supports_iff]
      rfl
    rw [same] at read
    exact (read.map Submission.data).mapError fun e cut => cut
  | ping => exact .pure Submission.ping

/-- A packet is read as it was sent. -/
lemma reads_decode (r : Revision) {p : Request} (fits : p.Fits) :
    (decode r : Decoder ρ ClientError Submission).Reads (p.encode r) (p.received r) := by
  apply ((Varint.reads_decode p.kind.code).mapError ClientError.truncation_ofWire).bind
  rw [RequestKind.ofCode?_code]
  exact reads_decodeBody r fits

/-- A server that hears one packet goes on to listen. -/
lemma listen_cons {r : Revision} {s s' : ρ} {p : Submission} (more : unread s ≠ [])
    (run : (decode r).run s = (.ok p, s')) : listen r s = (listen r s').map (p :: ·) := by
  rw [listen, if_neg more]
  split <;> rename_i run' <;> cases run.symm.trans run'
  rfl

/-- Packets that follow each other are told apart, and nothing is left over. -/
lemma listen_encodeAll (r : Revision) {ps : List Request} (fits : ∀ p ∈ ps, p.Fits) {s : ρ}
    (here : unread s = .ofBytes (Request.encodeAll r ps)) :
    listen r s = .ok (ps.map (Request.received r)) := by
  induction ps generalizing s with
  | nil =>
    have ended : unread s = [] := here
    rw [listen, if_pos ended]
    rfl
  | cons p ps ih =>
    rw [Request.encodeAll, List.flatMap_cons, Feed.ofBytes_append] at here
    obtain ⟨s', run, left⟩ := (reads_decode r (fits p List.mem_cons_self)).whole here
    have more : unread s ≠ [] := by
      rw [here]
      refine List.append_ne_nil_of_left_ne_nil ?_ _
      exact mt List.map_eq_nil_iff.1 (p.encode_ne_nil r)
    rw [listen_cons more run, ih (fun q mem => fits q (List.mem_cons_of_mem p mem)) left]
    rfl

end Submission

end Columnar
