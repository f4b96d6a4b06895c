import PositionFeed.Push.Digest
import PositionFeed.Text.Base64
import PositionFeed.Text.Blank
import PositionFeed.Text.Utf8

namespace PositionFeed

/-!
# The handshake of a push client

A client asks over HTTP for a connection that carries messages.  Its request
names a key, and the answer proves that the request was understood: it holds the
digest of the key and a fixed text.  A request that asks for anything else gets
no answer.
-/

namespace Handshake

/-- What a client has asked for. -/
inductive Request where
  /-- Its request is not complete. -/
  | unfinished
  /-- It asks for something else. -/
  | refused
  /-- It asks for a connection, with this key. -/
  | accepted (key : String)
  deriving Repr, DecidableEq

/-- How many bytes a request may have. -/
def largestRequest : Nat := 16384

/-- The lines before the first empty one, and what follows it.  The lines so far
and the line under way are given backwards. -/
def headFrom (lines : List (List Char)) (line : List Char) :
    List Char → Option (List (List Char) × List Char)
  | [] => none
  | '\n' :: rest =>
      let line := match line with
        | '\r' :: line => line
        | _ => line
      if line.isEmpty then some (lines.reverse, rest)
      else headFrom (line.reverse :: lines) [] rest
  | c :: rest => headFrom lines (c :: line) rest

/-- The name of a header in lower case, and its value. -/
def header (line : List Char) : String × List Char :=
  (Text.lowered (String.ofList (line.takeWhile (· != ':'))),
    Text.trim ((line.dropWhile (· != ':')).drop 1))

/-- Whether a value is a word, in whatever case. -/
def isWord (word : String) (value : List Char) : Bool :=
  Text.lowered (String.ofList value) == word

/-- Whether a word is in a list of words. -/
def mentions (word : String) (value : List Char) : Bool :=
  ((Text.splitAt ',' value).flatMap (Text.splitAt ' ')).any (isWord word)

/-- Whether the first line of a request asks for something by the right version
of the protocol. -/
def isGet (line : List Char) : Bool :=
  match (Text.splitAt ' ' line).map String.ofList with
  | ["GET", _, "HTTP/1.1"] => true
  | _ => false

/-- The key in the lines of a request for a connection. -/
def key? : List (List Char) → Option String
  | [] => none
  | line :: lines =>
      let headers := lines.map header
      let has (name : String) (check : List Char → Bool) : Bool :=
        (headers.lookup name).any check
      if isGet line && has "connection" (mentions "upgrade") &&
          has "upgrade" (isWord "websocket") &&
          has "sec-websocket-version" (isWord "13") then
        (headers.lookup "sec-websocket-key").map String.ofList
      else none

/-- Reads a request.  A client has to wait for the answer before it goes on. -/
def read (bytes : List UInt8) : Request :=
  match headFrom [] [] (bytes.map fun byte => Char.ofNat byte.toNat) with
  | none => if bytes.length ≤ largestRequest then .unfinished else .refused
  | some (lines, rest) =>
      match key? lines, rest with
      | some key, [] => .accepted key
      | _, _ => .refused

/-- What is appended to a key before the digest is taken. -/
def salt : String := "258EAFA5-E914-47DA-95CA-C5AB0DC85B11"

/-- The proof that a key was understood. -/
def proof (key : String) : String :=
  String.ofList (Base64.encode (Sha1.digest (Utf8.encode (key ++ salt).toList)))

/-- The answer to a request with a key. -/
def answer (key : String) : List UInt8 :=
  Utf8.encode ("\r\n".intercalate [
    "HTTP/1.1 101 Switching Protocols",
    "Connection: Upgrade",
    "Upgrade: websocket",
    "Sec-WebSocket-Accept: " ++ proof key, "", ""]).toList

end Handshake

end PositionFeed
