import PositionFeed.Decimal.Layout

namespace PositionFeed

/-!
# Writing JSON

A `Json.Tree` is what the program writes as JSON.  It is written either without
any blank, as in bus records and push frames, or over several lines with two
blanks for each level, as in exported configurations and reports.
-/

namespace Json

/-- A value to be written. -/
inductive Tree where
  /-- The absent value. -/
  | null
  /-- A truth value. -/
  | boolean (value : Bool)
  /-- A whole number. -/
  | integer (value : Int)
  /-- A double. -/
  | number (value : Float)
  | text (value : String)
  /-- Values in order. -/
  | array (items : List Tree)
  /-- Values under keys, in order. -/
  | object (entries : List (String × Tree))

/-- The digit for a value below sixteen, in lower case. -/
def hexDigit (value : Nat) : Char :=
  Nat.digitChar value

/-- A character inside a text.  Quotes, backslashes and control characters are
escaped and every other character stands for itself. -/
def escaped (c : Char) : List Char :=
  match c with
  | '"' => ['\\', '"']
  | '\\' => ['\\', '\\']
  | '\x08' => ['\\', 'b']
  | '\t' => ['\\', 't']
  | '\n' => ['\\', 'n']
  | '\x0c' => ['\\', 'f']
  | '\r' => ['\\', 'r']
  | c =>
      if c.toNat < 0x20 then
        ['\\', 'u', '0', '0', hexDigit (c.toNat / 16), hexDigit (c.toNat % 16)]
      else [c]

/-- A text between quotes. -/
def quotedText (text : String) : List Char :=
  '"' :: text.toList.flatMap escaped ++ ['"']

/-- A whole number. -/
def integerText (value : Int) : List Char :=
  NumberStyle.signed (value < 0) (Decimal.digitText value.natAbs)

/-- The beginning of a line of the given level. -/
def newLine (level : Nat) : List Char :=
  '\n' :: List.replicate (2 * level) ' '

mutual

/-- The text of a value without blanks. -/
def Tree.compact : Tree → List Char
  | .null => "null".toList
  | .boolean value => (toString value).toList
  | .integer value => integerText value
  | .number value => NumberStyle.json.text value
  | .text value => quotedText value
  | .array items => '[' :: compactItems true items ++ [']']
  | .object entries => '\x7b' :: compactEntries true entries ++ ['\x7d']

/-- The values of an array without blanks. -/
def compactItems : Bool → List Tree → List Char
  | _, [] => []
  | first, item :: rest =>
      (if first then [] else [',']) ++ item.compact ++ compactItems false rest

/-- The entries of an object without blanks. -/
def compactEntries : Bool → List (String × Tree) → List Char
  | _, [] => []
  | first, (key, value) :: rest =>
      (if first then [] else [',']) ++ quotedText key ++
        ':' :: value.compact ++ compactEntries false rest

end

mutual

/-- The text of a value over several lines, at the given level. -/
def Tree.pretty (level : Nat) : Tree → List Char
  | .array [] => "[]".toList
  | .array items =>
      '[' :: prettyItems (level + 1) true items ++ newLine level ++ [']']
  | .object [] => "\x7b\x7d".toList
  | .object entries =>
      '\x7b' :: prettyEntries (level + 1) true entries ++
        newLine level ++ ['\x7d']
  | .null => "null".toList
  | .boolean value => (toString value).toList
  | .integer value => integerText value
  | .number value => NumberStyle.json.text value
  | .text value => quotedText value

/-- The values of an array, one on a line. -/
def prettyItems (level : Nat) : Bool → List Tree → List Char
  | _, [] => []
  | first, item :: rest =>
      (if first then [] else [',']) ++ newLine level ++ item.pretty level ++
        prettyItems level false rest

/-- The entries of an object, one on a line. -/
def prettyEntries (level : Nat) : Bool → List (String × Tree) → List Char
  | _, [] => []
  | first, (key, value) :: rest =>
      (if first then [] else [',']) ++ newLine level ++ quotedText key ++
        ':' :: ' ' :: value.pretty level ++ prettyEntries level false rest

end

/-- The text of a value without blanks. -/
def Tree.toCompact (tree : Tree) : String :=
  String.ofList tree.compact

/-- The text of a value over several lines. -/
def Tree.toPretty (tree : Tree) : String :=
  String.ofList (tree.pretty 0)

end Json

end PositionFeed
