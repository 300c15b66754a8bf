import Columnar.Block
import Columnar.Block.Codec
import Columnar.ByteStream.Basic
import Columnar.ByteStream.Buffered
import Columnar.ByteStream.Inbox
import Columnar.ByteStream.Line
import Columnar.ByteStream.Reader
import Columnar.ByteStream.Sink
import Columnar.ByteStream.Source
import Columnar.ClientError
import Columnar.Column
import Columnar.Connection
import Columnar.Decimal.Shortest
import Columnar.Event
import Columnar.Main
import Columnar.Options
import Columnar.Packet.Client
import Columnar.Packet.Kind
import Columnar.Packet.Server
import Columnar.Proofs.Block.Built
import Columnar.Proofs.Block.Decoded
import Columnar.Proofs.Block.Forms
import Columnar.Proofs.Block.History
import Columnar.Proofs.Block.Info
import Columnar.Proofs.Block.Loading
import Columnar.Proofs.Block.Normal
import Columnar.Proofs.Block.Paid
import Columnar.Proofs.Block.Parts
import Columnar.Proofs.Block.RoundTrip
import Columnar.Proofs.ByteStream.Accepted
import Columnar.Proofs.ByteStream.Lines
import Columnar.Proofs.ByteStream.Obliging
import Columnar.Proofs.ByteStream.Unread
import Columnar.Proofs.Connection.Call
import Columnar.Proofs.Connection.EndMarker
import Columnar.Proofs.Connection.Events
import Columnar.Proofs.Connection.Exchange
import Columnar.Proofs.Connection.Handshake
import Columnar.Proofs.Connection.LookAhead
import Columnar.Proofs.Connection.Loops
import Columnar.Proofs.Connection.Movements
import Columnar.Proofs.Connection.Numbering
import Columnar.Proofs.Connection.Opening
import Columnar.Proofs.Connection.Readiness
import Columnar.Proofs.Connection.Requests
import Columnar.Proofs.Connection.Response
import Columnar.Proofs.Connection.Rethrow
import Columnar.Proofs.Connection.Segmentation
import Columnar.Proofs.Connection.Session
import Columnar.Proofs.Connection.State
import Columnar.Proofs.Connection.Truncation
import Columnar.Proofs.Packet.Agrees
import Columnar.Proofs.Packet.Chain
import Columnar.Proofs.Packet.Complete
import Columnar.Proofs.Packet.Fails
import Columnar.Proofs.Packet.Forms
import Columnar.Proofs.Packet.Received
import Columnar.Proofs.Packet.Reply
import Columnar.Proofs.Packet.Submission
import Columnar.Proofs.Shell.Course
import Columnar.Proofs.Shell.Printed
import Columnar.Proofs.Shell.Query
import Columnar.Proofs.Shell.Table
import Columnar.Proofs.Text.Breaks
import Columnar.Proofs.Text.Faults
import Columnar.Proofs.Text.Trim
import Columnar.Proofs.Text.Utf8
import Columnar.Proofs.Text.WellFormed
import Columnar.Proofs.Transport.Delivery
import Columnar.Proofs.Transport.Reading
import Columnar.Proofs.Transport.Steps
import Columnar.Proofs.Wire.Agrees
import Columnar.Proofs.Wire.Fails
import Columnar.Proofs.Wire.Forms
import Columnar.Proofs.Wire.Pays
import Columnar.Proofs.Wire.Reads
import Columnar.Proofs.Wire.Rounds
import Columnar.Proofs.Wire.Sequence
import Columnar.Proofs.Wire.Spells
import Columnar.Proofs.Wire.Text
import Columnar.Proofs.Wire.Values
import Columnar.Proofs.Wire.Varint
import Columnar.QueryId
import Columnar.Revision
import Columnar.ServerException
import Columnar.Shell.Arguments
import Columnar.Shell.Command
import Columnar.Shell.Printer
import Columnar.Shell.Program
import Columnar.Shell.Prompt
import Columnar.Shell.Session
import Columnar.Text.Blank
import Columnar.Text.Utf8
import Columnar.Transport
import Columnar.Wire.Decoder
import Columnar.Wire.Error
import Columnar.Wire.Fixed
import Columnar.Wire.Kind
import Columnar.Wire.Scalar
import Columnar.Wire.Text
import Columnar.Wire.Varint
