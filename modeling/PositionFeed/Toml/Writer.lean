import PositionFeed.Decimal.Layout

namespace PositionFeed

/-!
# Writing TOML

A text is written in the plainest of four forms that needs no escapes: between
double quotes, between single quotes, and then in the forms over several lines.
Only when none of them will do are characters escaped.
-/

namespace Toml

/-- What a text contains, as far as the choice of its form depends on it. -/
structure Contents where
  /-- The longest run of single quotes. -/
  singleRun : Nat
  /-- The longest run of double quotes. -/
  doubleRun : Nat
  /-- Whether there is a control character other than a tab or a line feed. -/
  control : Bool
  /-- Whether there is a backslash. -/
  backslash : Bool
  /-- Whether there is a line feed. -/
  lineFeed : Bool
  deriving Repr, DecidableEq

/-- Whether a character must be escaped wherever it stands. -/
def isControl (c : Char) : Bool :=
  c != '\t' && c != '\n' && (c.toNat < 0x20 || c.toNat == 0x7f)

/-- The longest run of a character, given the run that ends here. -/
def longestRun (wanted : Char) : Nat → List Char → Nat
  | run, [] => run
  | run, c :: rest =>
      if c = wanted then longestRun wanted (run + 1) rest
      else max run (longestRun wanted 0 rest)

def Contents.of (text : List Char) : Contents where
  singleRun := longestRun '\'' 0 text
  doubleRun := longestRun '"' 0 text
  control := text.any isControl
  backslash := text.any (· == '\\')
  lineFeed := text.any (· == '\n')

/-- The four ways to write a text. -/
inductive Form where
  /-- Between double quotes, on one line, with escapes. -/
  | basic
  /-- Between single quotes, on one line, without escapes. -/
  | literal
  /-- Between tripled double quotes, with escapes. -/
  | longBasic
  /-- Between tripled single quotes, without escapes. -/
  | longLiteral
  deriving Repr, DecidableEq

def Contents.valueForm (contents : Contents) : Form :=
  if ¬ contents.control ∧ ¬ contents.backslash ∧ contents.doubleRun = 0 ∧
      ¬ contents.lineFeed then .basic
  else if ¬ contents.control ∧ contents.singleRun = 0 ∧ ¬ contents.lineFeed then
    .literal
  else if ¬ contents.control ∧ ¬ contents.backslash ∧ contents.doubleRun ≤ 2 then
    .longBasic
  else if ¬ contents.control ∧ contents.singleRun ≤ 2 then .longLiteral
  else if contents.lineFeed then .longBasic
  else .basic

/-- The form in which a text is written as a quoted key. -/
def Contents.keyForm (contents : Contents) : Form :=
  if ¬ contents.control ∧ ¬ contents.lineFeed ∧ ¬ contents.backslash ∧
      contents.doubleRun = 0 then .basic
  else if ¬ contents.control ∧ ¬ contents.lineFeed ∧ contents.singleRun = 0 then
    .literal
  else .basic

/-- The hexadecimal digits of a number, in upper case. -/
def upperHex (width value : Nat) : List Char :=
  let digits := (Nat.toDigits 16 value).map Char.toUpper
  List.replicate (width - digits.length) '0' ++ digits

/-- Escapes a text.  Up to `quotes` double quotes in a row stand for themselves,
and so do line feeds in the long form.  The count is that of the quotes that
end here. -/
def escapeBody (quotes : Nat) (keepLineFeed : Bool) :
    Nat → List Char → List Char
  | _, [] => []
  | run, c :: rest =>
      let plain (text : List Char) : List Char :=
        text ++ escapeBody quotes keepLineFeed 0 rest
      match c with
      | '"' =>
          if quotes ≤ run then plain ['\\', '"']
          else '"' :: escapeBody quotes keepLineFeed (run + 1) rest
      | '\\' => plain ['\\', '\\']
      | '\x08' => plain ['\\', 'b']
      | '\t' => plain ['\\', 't']
      | '\n' => if keepLineFeed then plain ['\n'] else plain ['\\', 'n']
      | '\x0c' => plain ['\\', 'f']
      | '\r' => plain ['\\', 'r']
      | c =>
          if isControl c then plain ('\\' :: 'u' :: upperHex 4 c.toNat)
          else plain [c]

/-- A text in one of the four forms.  A long form of a text with line feeds
begins on a line of its own. -/
def writeForm (form : Form) (text : List Char) : List Char :=
  let start : List Char := if text.any (· == '\n') then ['\n'] else []
  match form with
  | .basic => '"' :: escapeBody 0 false 0 text ++ ['"']
  | .literal => '\'' :: text ++ ['\'']
  | .longBasic =>
      "\"\"\"".toList ++ start ++ escapeBody 2 true 0 text ++ "\"\"\"".toList
  | .longLiteral =>
      "'''".toList ++ start ++ text ++ "'''".toList

/-- A text as a value. -/
def writeText (text : String) : List Char :=
  writeForm (Contents.of text.toList).valueForm text.toList

/-- Whether a character may stand in a key without quotes. -/
def isBareKeyChar (c : Char) : Bool :=
  c.isAlphanum || c == '_' || c == '-'

/-- A key, without quotes where they are not needed. -/
def writeKey (key : String) : List Char :=
  let text := key.toList
  if ¬ text.isEmpty ∧ text.all isBareKeyChar then text
  else writeForm (Contents.of text).keyForm text

/-- A double. -/
def writeNumber (value : Float) : List Char :=
  NumberStyle.toml.text value

/-- A line with a key and the text of its value. -/
def writePair (key : String) (value : List Char) : List Char :=
  writeKey key ++ " = ".toList ++ value ++ ['\n']

end Toml

end PositionFeed
