import PositionFeed.Blueprint.Basic
import PositionFeed.Bus.Record
import PositionFeed.Document.Schema
import PositionFeed.Fault
import PositionFeed.Json.Reader
import PositionFeed.Json.Writer

namespace PositionFeed

/-!
# Records as bytes

In JSON a record is one object without blanks.  In the binary format its fields
follow each other: a number takes four or eight bytes, the lowest first, and a
text is its length in bytes as a number of eight bytes, followed by the text.
The binary reader ignores what follows the last field.
-/

/-- Why bytes are no binary record. -/
inductive BinaryDefect where
  /-- The bytes end inside a number. -/
  | cutNumber
  /-- The bytes end inside a text. -/
  | cutText
  /-- A text is not UTF-8. -/
  | badText (defect : Utf8.Defect)
  deriving Repr, DecidableEq

/-- The wording of bytes that are no binary record. -/
def BinaryDefect.message : BinaryDefect → String
  | .cutNumber => "io error: unexpected end of file"
  | .cutText => "io error: "
  | .badText defect => "string is not valid utf8: " ++ defect.message

/-- Why a datagram carries no position. -/
inductive RecordDefect where
  | json (refusal : Refusal)
  | bincode (defect : BinaryDefect)
  | position (defect : PositionDefect)
  deriving Repr, DecidableEq

/-- The wording of a datagram that carries no position. -/
def RecordDefect.message : RecordDefect → String
  | .json .malformed => "json error"
  | .json (.mismatch reason) => "json error: " ++ reason.message .json
  | .bincode defect => "bincode error: " ++ defect.message
  | .position defect => defect.message

namespace Bincode

/-- A number in so many bytes, the lowest byte first. -/
def encodeNumber : Nat → Nat → List UInt8
  | 0, _ => []
  | width + 1, value =>
      UInt8.ofNat value :: encodeNumber width (value / 256)

/-- A text behind its length. -/
def encodeText (text : String) : List UInt8 :=
  let bytes := Utf8.encode text.toList
  encodeNumber 8 bytes.length ++ bytes

/-- A record in the binary format. -/
def encode (record : Record) : List UInt8 :=
  encodeText record.sender ++ encodeText record.subject ++
    encodeNumber 4 record.subjectNumber.toNat ++ encodeText record.text ++
    encodeNumber 8 record.count.toNat

/-- Reads a number of so many bytes and returns what follows it. -/
def decodeNumber : Nat → List UInt8 → Except BinaryDefect (Nat × List UInt8)
  | 0, bytes => .ok (0, bytes)
  | _ + 1, [] => .error .cutNumber
  | width + 1, byte :: rest => do
      let (high, rest) ← decodeNumber width rest
      .ok (byte.toNat + 256 * high, rest)

/-- Reads a text and returns what follows it. -/
def decodeText (bytes : List UInt8) :
    Except BinaryDefect (String × List UInt8) := do
  let (length, rest) ← decodeNumber 8 bytes
  if rest.length < length then .error .cutText
  else match Utf8.decode (rest.take length) with
    | .ok chars => .ok (String.ofList chars, rest.drop length)
    | .error defect => .error (.badText defect)

/-- Reads a record. -/
def decode (bytes : List UInt8) : Except BinaryDefect Record := do
  let (sender, rest) ← decodeText bytes
  let (subject, rest) ← decodeText rest
  let (subjectNumber, rest) ← decodeNumber 4 rest
  let (text, rest) ← decodeText rest
  let (count, _) ← decodeNumber 8 rest
  .ok ⟨sender, subject, UInt32.ofNat subjectNumber, text, UInt64.ofNat count⟩

end Bincode

namespace Record

open Schema

/-- A record as a JSON object. -/
def tree (record : Record) : Json.Tree :=
  .object [("from", .text record.sender), ("subject", .text record.subject),
    ("subject_id", .integer record.subjectNumber.toNat),
    ("text", .text record.text), ("count", .integer record.count.toNat)]

/-- Reads a record from a JSON document. -/
def ofNode (node : Node) : Reading Record := do
  let present ← record json "BusMessage"
    [.of "from" true Schema.text, .of "subject" true Schema.text,
      .of "subject_id" true natural32, .of "text" true Schema.text,
      .of "count" true natural64] node
  let sender ← present.wanted "from" Schema.text
  let subject ← present.wanted "subject" Schema.text
  let subjectNumber ← present.wanted "subject_id" natural32
  let text ← present.wanted "text" Schema.text
  let count ← present.wanted "count" natural64
  .ok ⟨sender, subject, UInt32.ofNat subjectNumber, text, UInt64.ofNat count⟩

/-- The bytes of a record. -/
def encode (format : WireFormat) (record : Record) : List UInt8 :=
  match format with
  | .json => Utf8.encode record.tree.compact
  | .bincode => Bincode.encode record

/-- Reads a record from bytes. -/
def decode (format : WireFormat) (bytes : List UInt8) :
    Except RecordDefect Record :=
  match format with
  | .json => (Json.read ofNode bytes).mapError .json
  | .bincode => (Bincode.decode bytes).mapError .bincode

/-- Reads the position of the record that bytes hold. -/
def decodePosition (format : WireFormat) (bytes : List UInt8) :
    Except RecordDefect Position := do
  let record ← decode format bytes
  record.position.mapError .position

end Record

/-- A datagram that carries no position, as a fault. -/
def RecordDefect.fault (defect : RecordDefect) : Fault :=
  .codec defect.message

end PositionFeed
