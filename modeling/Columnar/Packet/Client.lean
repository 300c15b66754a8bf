import Columnar.Block.Codec
import Columnar.Options

/-!
# Packets of the client

What a client says: who it is, which query to run, the blocks of an insert, and a ping. A query is
followed by a block without data, because no external tables are sent with it.
-/

namespace Columnar

open Wire

/-- What accompanies a query about the client that sends it. -/
structure ClientInfo where
  queryKind : UInt8
  initialUser : String
  initialQueryId : String
  initialAddress : String
  transport : UInt8
  osUser : String
  hostname : String
  clientName : String
  versionMajor : UInt64
  versionMinor : UInt64
  revision : UInt64
  quotaKey : String
  deriving DecidableEq, Repr

/-- The version of this client. -/
def clientVersion : UInt64 × UInt64 := (1, 1)

namespace ClientInfo

/-- The info of a client with these options, whose queries are its own and come over TCP. -/
def ofOptions (o : Options) : ClientInfo where
  queryKind := 1
  initialUser := ""
  initialQueryId := ""
  initialAddress := "[::ffff:127.0.0.1]:0"
  transport := 1
  osUser := ""
  hostname := ""
  clientName := o.clientName
  versionMajor := clientVersion.1
  versionMinor := clientVersion.2
  revision := Revision.client.number
  quotaKey := o.quotaKey

/-- The bytes of the info. -/
def encode (r : Revision) (info : ClientInfo) : Bytes :=
  [info.queryKind] ++ encodeText info.initialUser ++ encodeText info.initialQueryId ++
    encodeText info.initialAddress ++ [info.transport] ++ encodeText info.osUser ++
    encodeText info.hostname ++ encodeText info.clientName ++ Varint.encode info.versionMajor ++
    Varint.encode info.versionMinor ++ Varint.encode info.revision ++
    Block.gated r .quotaKeyInClientInfo (encodeText info.quotaKey)

end ClientInfo

/-- A packet of the client. -/
inductive Request where
  | hello (clientName database user password : String)
  | query (id : String) (info : ClientInfo) (text : String)
  | data (block : Block)
  | ping

namespace Request

/-- The kind of the packet. -/
def kind : Request → RequestKind
  | .hello .. => .hello
  | .query .. => .query
  | .data _ => .data
  | .ping => .ping

/-- The first packet of a client with these options. -/
def helloOf (o : Options) : Request := .hello o.clientName o.database o.user o.password

/-- The stage up to which a server is asked to run a query: to its end. -/
def completeStage : UInt64 := 2

/-- Blocks are not compressed. -/
def noCompression : UInt64 := 0

/-- The bytes of a packet after its code. -/
def encodeBody (r : Revision) : Request → Bytes
  | .hello clientName database user password =>
    encodeText clientName ++ Varint.encode clientVersion.1 ++ Varint.encode clientVersion.2 ++
      Varint.encode Revision.client.number ++ encodeText database ++ encodeText user ++
      encodeText password
  | .query id info text =>
    encodeText id ++ Block.gated r .clientInfo (info.encode r) ++ encodeText "" ++
      Varint.encode completeStage ++ Varint.encode noCompression ++ encodeText text
  | .data block => block.encode r
  | .ping => []

/-- The bytes of a packet. -/
def encode (r : Revision) (p : Request) : Bytes := Varint.encode p.kind.code ++ p.encodeBody r

/-- The bytes of packets that follow each other. -/
def encodeAll (r : Revision) (ps : List Request) : Bytes := ps.flatMap (encode r)

/-- The packets that start a query. -/
def startQuery (o : Options) (id : UInt64) (text : String) : List Request :=
  [.query (toString id.toNat) (.ofOptions o) text, .data .endMarker]

/-- The packets that carry the rows of an insert. -/
def insertRows (block : Block) : List Request := [.data block, .data .endMarker]

end Request

/-- The query that announces rows for a table. -/
def insertQuery (table : String) : String := "INSERT INTO " ++ table ++ " VALUES"

end Columnar
