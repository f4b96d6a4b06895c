import PositionFeed.Document.Node
import PositionFeed.Json.Number
import PositionFeed.Text.Utf8

namespace PositionFeed

/-!
# Reading JSON

The reader takes bytes and builds a `Node`.  It never fails: text that is not
JSON leaves a `broken` node or an unclosed collection at the place where the
trouble begins, and nothing after that place is read.

A text whose escapes pair up badly, or whose bytes are not UTF-8, is
`unusable`, and so is a number too large for a double.  Such a value may stand
where nobody reads it.
-/

namespace Json

/-- What is left to read, or nothing when the reader has lost its way. -/
abbrev Rest := Option (List UInt8)

/-- Drops spaces, tabs and line ends. -/
def skipBlanks : List UInt8 → List UInt8
  | [] => []
  | byte :: rest =>
      if byte = 0x20 ∨ byte = 0x0a ∨ byte = 0x09 ∨ byte = 0x0d then
        skipBlanks rest
      else byte :: rest

/-- The rest after the given bytes, if the input begins with them. -/
def dropWord : List UInt8 → List UInt8 → Rest
  | [], input => some input
  | _ :: _, [] => none
  | expected :: word, byte :: rest =>
      if expected = byte then dropWord word rest else none

/-- The value of a hexadecimal digit. -/
def hexValue? (byte : UInt8) : Option Nat :=
  if 0x30 ≤ byte ∧ byte ≤ 0x39 then some (byte.toNat - 0x30)
  else if 0x61 ≤ byte ∧ byte ≤ 0x66 then some (byte.toNat - 0x61 + 10)
  else if 0x41 ≤ byte ∧ byte ≤ 0x46 then some (byte.toNat - 0x41 + 10)
  else none

/-- The value of four hexadecimal digits. -/
def hexUnit? (first second third fourth : UInt8) : Option Nat := do
  let first ← hexValue? first
  let second ← hexValue? second
  let third ← hexValue? third
  let fourth ← hexValue? fourth
  some (((first * 16 + second) * 16 + third) * 16 + fourth)

/-- A part of a text: a byte, or a 16-bit unit written as an escape. -/
inductive Piece where
  /-- A byte that stands for itself. -/
  | byte (value : UInt8)
  /-- An escaped unit. -/
  | unit (value : Nat)
  deriving Repr, DecidableEq

/-- The byte that a one-letter escape stands for. -/
def escapedByte? (letter : UInt8) : Option UInt8 :=
  match letter with
  | 0x22 => some 0x22
  | 0x5c => some 0x5c
  | 0x2f => some 0x2f
  | 0x62 => some 0x08
  | 0x66 => some 0x0c
  | 0x6e => some 0x0a
  | 0x72 => some 0x0d
  | 0x74 => some 0x09
  | _ => none

/-- Reads the parts of a text up to its closing quote. -/
def pieces : List UInt8 → Option (List Piece × List UInt8)
  | [] => none
  | 0x22 :: rest => some ([], rest)
  | 0x5c :: 0x75 :: first :: second :: third :: fourth :: rest =>
      match hexUnit? first second third fourth with
      | none => none
      | some unit =>
          (pieces rest).map fun read => (.unit unit :: read.1, read.2)
  | 0x5c :: letter :: rest =>
      match escapedByte? letter with
      | none => none
      | some byte =>
          (pieces rest).map fun read => (.byte byte :: read.1, read.2)
  | byte :: rest =>
      if byte < 0x20 ∨ byte = 0x5c then none
      else (pieces rest).map fun read => (.byte byte :: read.1, read.2)

/-- Whether a unit is the first half of a pair. -/
def isLeading (unit : Nat) : Bool := 0xd800 ≤ unit && unit ≤ 0xdbff

/-- Whether a unit is the second half of a pair. -/
def isTrailing (unit : Nat) : Bool := 0xdc00 ≤ unit && unit ≤ 0xdfff

/-- The character that two halves stand for. -/
def pairChar (leading trailing : Nat) : Char :=
  Char.ofNat ((leading - 0xd800) * 0x400 + (trailing - 0xdc00) + 0x10000)

/-- The bytes that the parts of a text stand for, unless a half of a pair
stands alone. -/
def assemble : List Piece → Option (List UInt8)
  | [] => some []
  | .byte byte :: rest => (assemble rest).map (byte :: ·)
  | .unit leading :: .unit trailing :: rest =>
      if isLeading leading then
        if isTrailing trailing then
          (assemble rest).map
            (Utf8.encodeChar (pairChar leading trailing) ++ ·)
        else none
      else if isTrailing leading then none
      else
        (assemble (.unit trailing :: rest)).map
          (Utf8.encodeChar (Char.ofNat leading) ++ ·)
  | .unit unit :: rest =>
      if isLeading unit || isTrailing unit then none
      else (assemble rest).map (Utf8.encodeChar (Char.ofNat unit) ++ ·)

/-- The text that the parts between two quotes stand for. -/
def pieceText (parts : List Piece) : Option String :=
  match assemble parts with
  | none => none
  | some bytes =>
      match Utf8.decode bytes with
      | .ok chars => some (String.ofList chars)
      | .error _ => none

/-- Whether a byte is an ASCII digit. -/
def isDigitByte (byte : UInt8) : Bool := 0x30 ≤ byte && byte ≤ 0x39

/-- The digits at the beginning of the input, and what follows them. -/
def digits (input : List UInt8) : List Char × List UInt8 :=
  ((input.takeWhile isDigitByte).map fun byte => Char.ofNat byte.toNat,
    input.dropWhile isDigitByte)

/-- Reads the fraction of a number; a point must be followed by a digit. -/
def fraction (input : List UInt8) :
    Option (Option (List Char) × List UInt8) :=
  match input with
  | 0x2e :: rest =>
      let (places, rest) := digits rest
      if places.isEmpty then none else some (some places, rest)
  | _ => some (none, input)

/-- Reads the exponent of a number; its mark must be followed by a digit. -/
def power (input : List UInt8) :
    Option (Option (Bool × List Char) × List UInt8) :=
  let signed (negative : Bool) (rest : List UInt8) :=
    let (count, rest) := digits rest
    if count.isEmpty then none else some (some (negative, count), rest)
  match input with
  | [] => some (none, input)
  | mark :: rest =>
      if mark = 0x65 ∨ mark = 0x45 then
        match rest with
        | 0x2b :: rest => signed false rest
        | 0x2d :: rest => signed true rest
        | _ => signed false rest
      else some (none, input)

/-- Reads a number, without leading zeros. -/
def spelling (input : List UInt8) : Option (Spelling × List UInt8) := do
  let (negative, input) :=
    match input with
    | 0x2d :: rest => (true, rest)
    | _ => (false, input)
  let (whole, input) := digits input
  if whole.isEmpty ∨ (whole.head? = some '0' ∧ 1 < whole.length) then none
  let (places, input) ← fraction input
  let (power, input) ← power input
  some (⟨negative, whole, places, power⟩, input)

def numberNode (number : Spelling) : Node :=
  match number.value with
  | some (.integer value) => .integer value
  | some (.fraction value) => .fraction value
  | none => .unusable

/-- A literal word and its node. -/
def word (letters : List UInt8) (node : Node) (input : List UInt8) :
    Node × Rest :=
  match dropWord letters input with
  | some rest => (node, some rest)
  | none => (.broken, none)

mutual

/-- Reads one value and what follows it.  The number bounds the steps; the
length of the input is enough. -/
def value : Nat → List UInt8 → Node × Rest
  | 0, _ => (.broken, none)
  | fuel + 1, input =>
      match skipBlanks input with
      | [] => (.broken, none)
      | 0x7b :: rest =>
          let (entries, rest) := members fuel true rest
          (.table entries rest.isSome, rest)
      | 0x5b :: rest =>
          let (items, rest) := elements fuel true rest
          (.sequence items rest.isSome, rest)
      | 0x22 :: rest =>
          match pieces rest with
          | none => (.broken, none)
          | some (parts, rest) =>
              match pieceText parts with
              | some text => (.text text, some rest)
              | none => (.unusable, some rest)
      | 0x6e :: rest => word [0x75, 0x6c, 0x6c] .null rest
      | 0x74 :: rest => word [0x72, 0x75, 0x65] (.boolean true) rest
      | 0x66 :: rest => word [0x61, 0x6c, 0x73, 0x65] (.boolean false) rest
      | input =>
          match spelling input with
          | some (number, rest) => (numberNode number, some rest)
          | none => (.broken, none)

/-- Reads the values of a sequence up to its closing bracket. -/
def elements : Nat → Bool → List UInt8 → List Node × Rest
  | 0, _, _ => ([], none)
  | fuel + 1, first, input =>
      let element (input : List UInt8) : List Node × Rest :=
        match value fuel input with
        | (node, none) => ([node], none)
        | (node, some rest) =>
            let (nodes, rest) := elements fuel false rest
            (node :: nodes, rest)
      match skipBlanks input with
      | 0x5d :: rest => ([], some rest)
      | 0x2c :: rest =>
          if first then ([.broken], none)
          else match skipBlanks rest with
            | [] => ([], none)
            | 0x5d :: _ => ([], none)
            | input => element input
      | input => if first then element input else ([], none)

/-- Reads the entries of a table up to its closing brace. -/
def members : Nat → Bool → List UInt8 → List (Option String × Node) × Rest
  | 0, _, _ => ([], none)
  | fuel + 1, first, input =>
      let entry (input : List UInt8) : List (Option String × Node) × Rest :=
        match input with
        | 0x22 :: rest =>
            match pieces rest with
            | none => ([], none)
            | some (parts, rest) =>
                let key := pieceText parts
                match skipBlanks rest with
                | 0x3a :: rest =>
                    match value fuel rest with
                    | (node, none) => ([(key, node)], none)
                    | (node, some rest) =>
                        let (entries, rest) := members fuel false rest
                        ((key, node) :: entries, rest)
                | _ => ([(key, .broken)], none)
        | _ => ([], none)
      match skipBlanks input with
      | 0x7d :: rest => ([], some rest)
      | 0x2c :: rest => if first then ([], none) else entry (skipBlanks rest)
      | input => if first then entry input else ([], none)

end

/-- A JSON document, and whether nothing but blanks follows its value. -/
def document (input : List UInt8) : Node × Bool :=
  let (node, rest) := value (2 * input.length + 2) input
  (node, match rest with
    | some rest => (skipBlanks rest).isEmpty
    | none => false)

/-- Reads a value from JSON text by a schema. -/
def read (schema : Node → Except Refusal α) (input : List UInt8) :
    Except Refusal α := do
  let (node, complete) := document input
  let result ← schema node
  if complete then .ok result else .error .malformed

end Json

end PositionFeed
