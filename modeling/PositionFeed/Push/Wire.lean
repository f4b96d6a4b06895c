import PositionFeed.Push.Frame
import PositionFeed.Text.Utf8
import PositionFeed.Word

namespace PositionFeed

/-!
# Frames on the wire

On the wire a frame is a byte that tells its kind and whether a message ends
with it, the length of its payload, and the payload.  A client masks its
payloads with a key of four bytes; the server does not.  A message from a client
may come in several frames, between which short frames about the connection
itself may stand.
-/

namespace Wire

/-- What a client sends. -/
inductive Arrival where
  | text (content : String)
  /-- A message that means nothing here. -/
  | other
  /-- A question whether the server is there. -/
  | ping (payload : List UInt8)
  /-- The end of the connection. -/
  | close (payload : List UInt8)
  /-- Something that no client may send. -/
  | violation
  deriving Repr, DecidableEq

/-- One frame from a client. -/
structure Piece where
  /-- Whether a message ends with it. -/
  final : Bool
  kind : Nat
  /-- What it carries. -/
  payload : List UInt8
  deriving Repr, DecidableEq

/-- The beginning of some bytes. -/
inductive Cut where
  /-- There are too few bytes for a frame. -/
  | unfinished
  /-- There is no frame that begins so. -/
  | violation
  /-- There is a frame, and then other bytes. -/
  | piece (piece : Piece) (rest : List UInt8)
  deriving Repr, DecidableEq

/-- How many bytes one frame from a client may carry. -/
def largestPiece : Nat := 16777216

/-- How many bytes one message from a client may have. -/
def largestMessage : Nat := 67108864

/-- The number of the kind of frame that goes on with a message. -/
def continuation : Nat := 0

def textKind : Nat := 1

/-- The number of messages that are no texts. -/
def binaryKind : Nat := 2

/-- The number of frames that end a connection. -/
def closeKind : Nat := 8

/-- The number of questions whether the other side is there. -/
def pingKind : Nat := 9

/-- The number of the answers to such questions. -/
def pongKind : Nat := 10

/-- Whether frames of a kind are about the connection itself. -/
def isControl (kind : Nat) : Bool := closeKind ≤ kind

/-- In how many bytes the length of a payload is written, if the number where
short lengths stand says that they follow. -/
def lengthWidth (code : Nat) : Nat :=
  if code = 126 then 2 else if code = 127 then 8 else 0

/-- A masked payload without its mask. -/
def unmask (key payload : List UInt8) : List UInt8 :=
  payload.zipIdx.map fun item => item.1 ^^^ key.getD (item.2 % 4) 0

/-- Cuts the first frame off bytes from a client. -/
def cut : List UInt8 → Cut
  | first :: second :: rest =>
      let code := second.toNat % 128
      let width := lengthWidth code
      let length :=
        if width = 0 then code else Word.ofBytes (rest.take width)
      let key := (rest.drop width).take 4
      let body := rest.drop (width + 4)
      if first.toNat / 16 % 8 ≠ 0 ∨ second.toNat < 128 then .violation
      else if rest.length < width then .unfinished
      else if largestPiece < length then .violation
      else if rest.length < width + 4 + length then .unfinished
      else
        .piece ⟨128 ≤ first.toNat, first.toNat % 16, unmask key (body.take length)⟩
          (body.drop length)
  | _ => .unfinished

/-- Cutting a frame off leaves fewer bytes. -/
theorem length_lt_of_cut {bytes rest : List UInt8} {piece : Piece}
    (found : cut bytes = .piece piece rest) : rest.length < bytes.length := by
  match bytes with
  | [] => simp [cut] at found
  | [_] => simp [cut] at found
  | first :: second :: tail =>
      simp only [cut] at found
      repeat' split at found
      all_goals simp only [Cut.piece.injEq, reduceCtorEq] at found
      all_goals
        obtain ⟨_, rfl⟩ := found
        simp only [List.length_drop, List.length_cons]
        omega

/-- The message that is under way: whether it is a text, and its bytes. -/
abbrev Message := Option (Bool × List UInt8)

/-- What a complete message is. -/
def complete (isText : Bool) (bytes : List UInt8) : Arrival :=
  if isText then
    match Utf8.decode bytes with
    | .ok content => .text (String.ofList content)
    | .error _ => .violation
  else .other

/-- Whether a connection may be ended with a payload: nothing, or a number of
two bytes and a reason. -/
def mayClose : List UInt8 → Bool
  | [] => true
  | [_] => false
  | _ :: _ :: reason => (Utf8.decode reason).toBool

/-- What a frame about the connection itself says. -/
def control (piece : Piece) : Arrival :=
  if ¬ piece.final ∨ 125 < piece.payload.length then .violation
  else if piece.kind = closeKind then
    if mayClose piece.payload then .close piece.payload else .violation
  else if piece.kind = pingKind then .ping piece.payload
  else if piece.kind = pongKind then .other
  else .violation

/-- Adds a frame to the bytes of a message. -/
def extend (isText : Bool) (bytes : List UInt8) (piece : Piece) :
    Message × Option Arrival :=
  let bytes := bytes ++ piece.payload
  if largestMessage < bytes.length then (none, some .violation)
  else if piece.final then (none, some (complete isText bytes))
  else (some (isText, bytes), none)

/-- What a frame makes of the message under way, and what arrives with it. -/
def accept (message : Message) (piece : Piece) : Message × Option Arrival :=
  if isControl piece.kind then (message, some (control piece))
  else match message with
    | some (isText, bytes) =>
        if piece.kind = continuation then extend isText bytes piece
        else (message, some .violation)
    | none =>
        if piece.kind = textKind then extend true [] piece
        else if piece.kind = binaryKind then extend false [] piece
        else (message, some .violation)

/-- Whether nothing is read after an arrival. -/
def Arrival.isLast : Arrival → Bool
  | .close _ => true
  | .violation => true
  | _ => false

/-- What a client has sent that was not understood yet. -/
structure Reader where
  /-- The bytes after the last complete frame. -/
  pending : List UInt8
  /-- The message that is under way. -/
  message : Message
  deriving Repr, DecidableEq

/-- A reader that has read nothing. -/
def Reader.fresh : Reader := ⟨[], none⟩

/-- What arrives with bytes, and what is left of them. -/
def arrivals (message : Message) (bytes : List UInt8) : List Arrival × Reader :=
  match found : cut bytes with
  | .unfinished => ([], ⟨bytes, message⟩)
  | .violation => ([.violation], ⟨bytes, message⟩)
  | .piece piece rest =>
      have := length_lt_of_cut found
      let (message, arrival) := accept message piece
      if arrival.any Arrival.isLast then (arrival.toList, ⟨rest, message⟩)
      else
        let (later, reader) := arrivals message rest
        (arrival.toList ++ later, reader)
  termination_by bytes.length

def Reader.read (bytes : List UInt8) (reader : Reader) :
    List Arrival × Reader :=
  arrivals reader.message (reader.pending ++ bytes)

/-- The bytes of the length of a payload. -/
def lengthBytes (length : Nat) : List UInt8 :=
  if length < 126 then [UInt8.ofNat length]
  else if length < 65536 then 126 :: Word.toBytes 2 length
  else 127 :: Word.toBytes 8 length

/-- A frame of the server that holds a whole message. -/
def whole (kind : Nat) (payload : List UInt8) : List UInt8 :=
  UInt8.ofNat (128 + kind) :: lengthBytes payload.length ++ payload

def bytes : Frame → List UInt8
  | .text content => whole textKind (Utf8.encode content.toList)
  | .close code reason =>
      whole closeKind (Word.toBytes 2 code ++ Utf8.encode reason.toList)

end Wire

end PositionFeed
