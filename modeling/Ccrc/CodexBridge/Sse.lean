import Ccrc.Library.PyJson

/-! An event of the upstream's stream, and the frame of one event to the client. -/

set_option autoImplicit false

namespace Ccrc.CodexBridge

open Library
open Library.Str (lit ascii)

structure SseEvent where
  name : Option Str
  data : Option PyDict
  type : Option Str

namespace Sse

/-- A text with an unpaired surrogate is escaped, so what is written is UTF-8. -/
def dumps (data : PyDict) : Bytes :=
  match (PyJson.dumps false (.dict data)).encode? with
  | some bytes => bytes
  | none => (PyJson.dumps true (.dict data)).flatMap Str.encodePoint

/-- One frame; none is the `ValueError` of a type that is not the event's name. -/
def frame (eventType : Str) (data : PyDict) : Option Bytes :=
  if (data.get? (lit "type")).bind PyJson.str? ≠ some eventType then none
  else
    eventType.encode?.map fun name =>
      ascii "event: " ++ name ++ ascii "\ndata: " ++ dumps data ++ ascii "\n\n"

/-- The bytes of a ping, which is never an event of the message. -/
def ping : Bytes := (frame (lit "ping") [(lit "type", .str (lit "ping"))]).getD []

end Sse

end Ccrc.CodexBridge
