import Columnar.Packet.Server

/-!
# Events

What whoever runs a query learns of its response, packet by packet. A pong that comes in between
tells nothing.
-/

namespace Columnar

/-- Something learnt while a response is received. -/
inductive Event where
  | data (block : Block)
  | progress (p : Progress)
  | profile (p : Profile)
  | exception (e : ServerException)
  | finish

/-- What is learnt from a packet. -/
def Packet.event? : Packet → Option Event
  | .data block => some (.data block)
  | .progress p => some (.progress p)
  | .profileInfo p => some (.profile p)
  | .exception e => some (.exception e)
  | .endOfStream => some .finish
  | .hello _ => none
  | .pong => none

/-- What is learnt from the packets of a response and from how it ended. -/
def Event.ofResponse (before : List Packet) (last : Except ClientError Packet) : List Event :=
  before.filterMap Packet.event? ++ last.toOption.toList.filterMap Packet.event?

end Columnar
