import PositionFeed.Decimal.Literal
import PositionFeed.Word

namespace PositionFeed

/-!
# Socket addresses

An address is four numbers or eight groups, and a port.  It is written
`1.2.3.4:80` or `[2001:db8::1]:80`; in the second form a run of zero groups may
be left out once, the last two groups may be written like the first form, and
a scope may follow after a percent sign.  There are no host names.
-/

/-- The address of a socket. -/
inductive SocketAddress where
  /-- Four numbers and a port. -/
  | four (first second third fourth : UInt8) (port : UInt16)
  | eight (groups : List UInt16) (scope : UInt32) (port : UInt16)
  deriving Repr, DecidableEq

namespace SocketAddress

/-- Why a text is not an address. -/
def syntaxMessage : String := "invalid socket address syntax"

/-- The value of a digit in base ten or sixteen. -/
def digit? (base : Nat) (c : Char) : Option Nat :=
  let value :=
    if '0' ≤ c ∧ c ≤ '9' then c.toNat - '0'.toNat
    else if 'a' ≤ c ∧ c ≤ 'f' then c.toNat - 'a'.toNat + 10
    else if 'A' ≤ c ∧ c ≤ 'F' then c.toNat - 'A'.toNat + 10
    else base
  if value < base then some value else none

/-- Reads the digits at the beginning of a text as a number below a bound. -/
def number (base bound : Nat) (text : List Char) : Option (Nat × List Char) :=
  let isMember (c : Char) : Bool := (digit? base c).isSome
  let digits := text.takeWhile isMember
  let value := digits.foldl
    (fun value c => value * base + (digit? base c).getD 0) 0
  if digits.isEmpty ∨ bound ≤ value then none
  else some (value, text.dropWhile isMember)

/-- Reads a number from 0 to 255 without needless zeros. -/
def octet (text : List Char) : Option (UInt8 × List Char) :=
  let digits := text.takeWhile isDigit
  if 3 < digits.length ∨ (1 < digits.length ∧ digits.head? = some '0') then none
  else (number 10 256 text).map fun read => (UInt8.ofNat read.1, read.2)

/-- Reads a group of one to four hexadecimal digits. -/
def group (text : List Char) : Option (UInt16 × List Char) :=
  if 4 < (text.takeWhile fun c => (digit? 16 c).isSome).length then none
  else (number 16 (Word.size 16) text).map fun read => (UInt16.ofNat read.1, read.2)

/-- The text after a character that must come first. -/
def mark (c : Char) : List Char → Option (List Char)
  | first :: rest => if first = c then some rest else none
  | [] => none

/-- Reads four numbers with points between them. -/
def quad (text : List Char) :
    Option ((UInt8 × UInt8 × UInt8 × UInt8) × List Char) := do
  let (first, text) ← octet text
  let (second, text) ← octet (← mark '.' text)
  let (third, text) ← octet (← mark '.' text)
  let (fourth, text) ← octet (← mark '.' text)
  some ((first, second, third, fourth), text)

/-- Two numbers as one group. -/
def pairGroup (high low : UInt8) : UInt16 :=
  UInt16.ofNat (high.toNat * 256 + low.toNat)

/-- Reads up to so many groups with colons between them.  The result tells
whether the last two were written as four numbers. -/
def groups : Nat → Bool → List Char → List UInt16 × Bool × List Char
  | 0, _, text => ([], false, text)
  | limit + 1, first, text =>
      match (if first then some text else mark ':' text) with
      | none => ([], false, text)
      | some body =>
          match (if 1 ≤ limit then quad body else none) with
          | some ((a, b, c, d), rest) =>
              ([pairGroup a b, pairGroup c d], true, rest)
          | none =>
              match group body with
              | none => ([], false, text)
              | some (value, rest) =>
                  let (values, dotted, rest) := groups limit false rest
                  (value :: values, dotted, rest)

/-- Reads eight groups, of which a run of zeros may be left out. -/
def octuple (text : List Char) : Option (List UInt16 × List Char) := do
  let (head, dotted, rest) := groups 8 true text
  if head.length = 8 then some (head, rest)
  else if dotted then none
  else do
    let rest ← mark ':' rest
    let rest ← mark ':' rest
    let (tail, _, rest) := groups (7 - head.length) true rest
    some (head ++ List.replicate (8 - head.length - tail.length) 0 ++ tail, rest)

/-- Reads a port. -/
def port (text : List Char) : Option (UInt16 × List Char) := do
  let (value, rest) ← number 10 (Word.size 16) (← mark ':' text)
  some (UInt16.ofNat value, rest)

/-- Reads an address of four numbers to the end of the text. -/
def readFour (text : List Char) : Option SocketAddress := do
  let ((a, b, c, d), rest) ← quad text
  let (value, rest) ← port rest
  if rest.isEmpty then some (.four a b c d value) else none

/-- Reads an address of eight groups to the end of the text. -/
def readEight (text : List Char) : Option SocketAddress := do
  let (values, rest) ← octuple (← mark '[' text)
  let (scope, rest) ←
    match rest with
    | '%' :: rest => number 10 (Word.size 32) rest
    | _ => some (0, rest)
  let (value, rest) ← port (← mark ']' rest)
  if rest.isEmpty then some (.eight values (UInt32.ofNat scope) value) else none

/-- The address that a text spells, if it spells one. -/
def read? (text : String) : Option SocketAddress :=
  match readFour text.toList with
  | some address => some address
  | none => readEight text.toList

def portOf : SocketAddress → UInt16
  | .four _ _ _ _ port => port
  | .eight _ _ port => port

/-- Whether an address consists of four numbers. -/
def isFour : SocketAddress → Bool
  | .four .. => true
  | .eight .. => false

/-- Four numbers with points between them. -/
def quadText (a b c d : Nat) : String :=
  s!"{a}.{b}.{c}.{d}"

/-- A group in hexadecimal digits. -/
def groupText (value : UInt16) : String :=
  String.ofList (Nat.toDigits 16 value.toNat)

/-- Groups with colons between them. -/
def groupsText (values : List UInt16) : String :=
  ":".intercalate (values.map groupText)

/-- The length of the run of zeros at the beginning of a list. -/
def zeroRun (values : List UInt16) : Nat :=
  (values.takeWhile (· == 0)).length

/-- The first of the longest runs of zeros, as its position and its length. -/
def longestZeros : Nat → List UInt16 → Nat × Nat
  | _, [] => (0, 0)
  | index, value :: rest =>
      let here := zeroRun (value :: rest)
      let later := longestZeros (index + 1) rest
      if later.2 ≤ here ∧ 0 < here then (index, here) else later

/-- Eight groups; the longest run of at least two zeros is left out. -/
def octupleText (values : List UInt16) : String :=
  match values with
  | [0, 0, 0, 0, 0, 0xffff, high, low] =>
      "::ffff:" ++ quadText (high.toNat / 256) (high.toNat % 256)
        (low.toNat / 256) (low.toNat % 256)
  | _ =>
      let (start, count) := longestZeros 0 values
      if 1 < count then
        groupsText (values.take start) ++ "::" ++
          groupsText (values.drop (start + count))
      else groupsText values

def text : SocketAddress → String
  | .four a b c d port =>
      quadText a.toNat b.toNat c.toNat d.toNat ++ s!":{port}"
  | .eight groups scope port =>
      let scopeText := if scope = 0 then "" else s!"%{scope}"
      "[" ++ octupleText groups ++ scopeText ++ s!"]:{port}"

end SocketAddress

end PositionFeed
