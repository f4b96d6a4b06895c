import PositionFeed.Json.Writer
import PositionFeed.Position

namespace PositionFeed

/-!
# Frames for clients

A client receives text frames, and one close frame when the server stops.  The
text of a sample is a JSON object with its coordinates and its time.
-/

/-- A frame that the server sends. -/
inductive Frame where
  | text (content : String)
  /-- The end of the connection, with a code and a reason. -/
  | close (code : Nat) (reason : String)
  deriving Repr, DecidableEq

/-- A sample as clients see it. -/
def Sample.pushTree (sample : Sample) : Json.Tree :=
  .object [
    ("coords", .array [.number sample.position.longitude,
      .number sample.position.latitude]),
    ("time", .integer sample.position.timestamp.toInt)]

namespace Frame

def ofSample (sample : Sample) : Frame :=
  .text sample.pushTree.toCompact

/-- The answer to a text from a client. -/
def echo (text : String) : Frame :=
  .text ("Server received: " ++ text)

/-- The frame that ends a connection when the server stops. -/
def goingAway : Frame :=
  .close 1001 "server shutdown"

end Frame

end PositionFeed
