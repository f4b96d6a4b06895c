import PositionFeed.Push.Connection
import PositionFeed.Push.Handshake
import PositionFeed.Push.Wire

namespace PositionFeed

/-!
# What a client says

A conversation turns the bytes of a client into moves of its connection.  It
begins with the handshake, and the frames follow.  Some of what a client says is
answered at once, without the queue of the client.
-/

/-- How far a client was understood. -/
inductive Conversation where
  /-- Its request was not complete so far. -/
  | request (bytes : List UInt8)
  /-- It sends frames. -/
  | talk (reader : Wire.Reader)
  /-- It is not listened to any more. -/
  | over
  deriving Repr, DecidableEq

/-- What follows from what a client says. -/
structure Heard where
  /-- How far the client was understood. -/
  conversation : Conversation
  moves : List ConnectionMove
  /-- The bytes that answer it. -/
  answer : List UInt8
  deriving Repr, DecidableEq

namespace Conversation

/-- The conversation with a client that has said nothing. -/
def fresh : Conversation := .request []

def moveOf : Wire.Arrival → ConnectionMove
  | .text content => .text content
  | .other => .other
  | .ping _ => .other
  | .close _ => .leave
  | .violation => .leave

def answerTo : Wire.Arrival → List UInt8
  | .ping payload => Wire.whole Wire.pongKind payload
  | .close payload => Wire.whole Wire.closeKind payload
  | _ => []

/-- What follows from bytes. -/
def hear (bytes : List UInt8) : Conversation → Heard
  | .request soFar =>
      match Handshake.read (soFar ++ bytes) with
      | .unfinished => ⟨.request (soFar ++ bytes), [], []⟩
      | .refused => ⟨.over, [.handshake false], []⟩
      | .accepted key =>
          ⟨.talk .fresh, [.handshake true], Handshake.answer key⟩
  | .talk reader =>
      let (arrivals, reader) := reader.read bytes
      ⟨if arrivals.any Wire.Arrival.isLast then .over else .talk reader,
        arrivals.map moveOf, arrivals.flatMap answerTo⟩
  | .over => ⟨.over, [], []⟩

/-- What follows when a client says nothing any more. -/
def hearEnd : Conversation → Heard
  | .request _ => ⟨.over, [.handshake false], []⟩
  | .talk _ => ⟨.over, [.leave], []⟩
  | .over => ⟨.over, [], []⟩

end Conversation

end PositionFeed
