import Columnar.ByteStream.Buffered
import Columnar.ByteStream.Sink
import Columnar.Wire.Decoder

/-!
# Transports

A transport joins the two directions of one stream: it reads through a buffer, and it stages what is
to be written until it is flushed, so that a packet reaches the stream in one piece. A flush that
fails before the stream has taken all of this keeps everything that was staged.
-/

namespace Columnar

open ByteStream

/-- A buffered reader and a sink with bytes that wait to be written to it. -/
structure Transport (ρ : Type) where
  input : Buffered ρ
  staged : Bytes := []
  sink : Sink
  shut : Bool := false

namespace Transport

variable {ρ : Type}

/-- A transport over a fresh stream. -/
def ofStream (stream : ρ) (sink : Sink) : Transport ρ := { input := { inner := stream }, sink }

/-- Adds bytes to those that wait. -/
def stage (bs : Bytes) (t : Transport ρ) : Transport ρ := { t with staged := t.staged ++ bs }

/-- Writes what waits, if anything does, onto the sink. -/
def drain (t : Transport ρ) : Except Failure Unit × Sink :=
  if t.shut ∧ t.staged ≠ [] then (.error .brokenPipe, t.sink) else t.sink.writeAll t.staged

/-- Writes what waits and then flushes the sink. -/
def flush (t : Transport ρ) : Except Failure Unit × Transport ρ :=
  match t.drain with
  | (.error e, sink) => (.error e, { t with sink })
  | (.ok (), sink) =>
    match sink.flush with
    | (result, sink) => (result, { t with sink, staged := [] })

/-- Reads with a decoder. -/
def receive [Reader ρ] {ε α : Type} (d : Wire.Decoder (Buffered ρ) ε α) (t : Transport ρ) :
    Except ε α × Transport ρ :=
  match d.run t.input with
  | (result, input) => (result, { t with input })

/-- The transport without the bytes that it has sent so far. -/
def forget (t : Transport ρ) : Transport ρ := { t with sink := t.sink.forget }

/-- The transport after its connection has been shut down. -/
def shutDown (t : Transport ρ) : Transport ρ := { t with shut := true }

end Transport

end Columnar
