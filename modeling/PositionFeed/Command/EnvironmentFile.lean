import PositionFeed.Command.Line
import PositionFeed.Text.Blank
import PositionFeed.Text.Utf8

namespace PositionFeed

/-!
# Environment files

An environment file sets variables that are not set otherwise.  Each of its
entries is a name, an equals sign and a value; `export` may stand before the
name.  A value may be quoted, may hold escapes, and may name other variables
after a dollar sign.  An entry goes on over a line end inside quotes, and after
a blank a comment may follow.

An entry that cannot be read ends the file.  The entries before it count.
-/

namespace EnvironmentFile

/-- Where an entry stands between two of its characters, as far as it matters
for its end. -/
inductive EntryState where
  | plain
  | blank
  /-- After a backslash. -/
  | escape
  /-- Between single quotes, after a backslash or not. -/
  | strong (escaped : Bool)
  /-- Between double quotes, after a backslash or not. -/
  | weak (escaped : Bool)
  deriving Repr, DecidableEq

/-- The state after a character that is not quoted. -/
def EntryState.afterOpen (c : Char) : EntryState :=
  match c with
  | '\\' => .escape
  | '"' => .weak false
  | '\'' => .strong false
  | _ => .plain

def EntryState.after (c : Char) : EntryState → EntryState
  | .plain =>
      if Text.isBlank c ∧ c ≠ '\n' ∧ c ≠ '\r' then .blank else .afterOpen c
  | .blank => .afterOpen c
  | .escape => .plain
  | .strong true => .strong false
  | .strong false =>
      if c = '\\' then .strong true else if c = '\'' then .plain
      else .strong false
  | .weak true => .weak false
  | .weak false =>
      if c = '\\' then .weak true else if c = '"' then .plain else .weak false

/-- Reads a line up to a comment: what stands before it, and the state at its
end unless there is a comment. -/
def scanLine : EntryState → List Char → List Char × Option EntryState
  | state, [] => ([], some state)
  | state, c :: rest =>
      if state = .blank ∧ c = '#' then ([], none)
      else
        let (kept, last) := scanLine (state.after c) rest
        (c :: kept, last)

/-- The text without its line end. -/
def dropLineEnd (line : List Char) : List Char :=
  match line.reverse with
  | '\n' :: '\r' :: rest => rest.reverse
  | '\n' :: rest => rest.reverse
  | _ => line

/-- Whether a comment is all that a text holds. -/
def isComment (text : List Char) : Bool :=
  (text.dropWhile Text.isBlank).head? == some '#'

/-- Puts lines together to entries.  A line that is no text, and an entry
without an end, are `none`. -/
def entries :
    EntryState → List Char → List (Option (List Char)) →
      List (Option (List Char))
  | .plain, _, [] => []
  | _, _, [] => [none]
  | _, _, none :: _ => [none]
  | state, held, some line :: rest =>
      if isComment (held ++ line) then some [] :: entries .plain [] rest
      else match scanLine state line with
        | (kept, none) => some (held ++ kept) :: entries .plain [] rest
        | (_, some .plain) =>
            some (dropLineEnd (held ++ line)) :: entries .plain [] rest
        | (_, some state) => entries state (held ++ line) rest

/-- Where a value stands between two of its characters. -/
inductive ValueState where
  /-- In text, between double quotes or not. -/
  | text (quoted : Bool)
  /-- After a backslash. -/
  | escape (quoted : Bool)
  /-- Between single quotes. -/
  | strong
  /-- In the name of a variable after a dollar sign. -/
  | name (quoted : Bool) (name : List Char)
  /-- In the name of a variable between braces. -/
  | bracedName (quoted : Bool) (name : List Char)
  | done
  deriving Repr, DecidableEq

/-- The value of a variable, nothing if it is not set. -/
def valueOf (environment : CommandLine.Environment) (name : List Char) :
    List Char :=
  ((List.lookup (String.ofList name) environment).getD "").toList

/-- Whether a character goes on with the name of a variable in a value. -/
def isNameChar (c : Char) : Bool :=
  c.isAlphanum || (127 < c.toNat && ! Text.isBlank c)

/-- What a backslash and a character stand for. -/
def escapeValue? (c : Char) : Option Char :=
  if c ∈ ['\\', '\'', '"', '$', ' '] then some c
  else if c = 'n' then some '\n'
  else none

/-- The end of a value, in the state after its last character. -/
def finishValue (environment : CommandLine.Environment) :
    ValueState → Option (List Char)
  | .text false => some []
  | .escape false => some []
  | .name false name => some (valueOf environment name)
  | .done => some []
  | _ => none

def readValue (environment : CommandLine.Environment) :
    ValueState → List Char → Option (List Char)
  | state, [] => finishValue environment state
  | .done, c :: rest =>
      if c = ' ' ∨ c = '\t' then readValue environment .done rest
      else if c = '#' then some []
      else none
  | .escape quoted, c :: rest => do
      let value ← escapeValue? c
      let later ← readValue environment (.text quoted) rest
      some (value :: later)
  | .strong, c :: rest =>
      if c = '\'' then readValue environment (.text false) rest
      else (readValue environment .strong rest).map (c :: ·)
  | .name quoted name, c :: rest =>
      if isNameChar c then
        readValue environment (.name quoted (name ++ [c])) rest
      else if c = '\x7b' ∧ name = [] then
        readValue environment (.bracedName quoted []) rest
      else if c = '$' then
        (readValue environment (.name quoted []) rest).map
          (valueOf environment name ++ ·)
      else
        (readValue environment (.text quoted) rest).map
          (valueOf environment name ++ c :: ·)
  | .bracedName quoted name, c :: rest =>
      if c = '\x7d' then
        (readValue environment (.text quoted) rest).map
          (valueOf environment name ++ ·)
      else readValue environment (.bracedName quoted (name ++ [c])) rest
  | .text true, c :: rest =>
      match c with
      | '$' => readValue environment (.name true []) rest
      | '"' => readValue environment (.text false) rest
      | '\\' => readValue environment (.escape true) rest
      | c => (readValue environment (.text true) rest).map (c :: ·)
  | .text false, c :: rest =>
      match c with
      | '$' => readValue environment (.name false []) rest
      | '\'' => readValue environment .strong rest
      | '"' => readValue environment (.text true) rest
      | '\\' => readValue environment (.escape false) rest
      | ' ' => readValue environment .done rest
      | '\t' => readValue environment .done rest
      | c => (readValue environment (.text false) rest).map (c :: ·)

/-- Whether a name may begin with a character. -/
def startsName (c : Char) : Bool := c.isAlpha || c == '_'

/-- Whether a name may go on with a character. -/
def continuesName (c : Char) : Bool := c.isAlphanum || c == '_' || c == '.'

/-- Reads a name, and what follows it after blanks. -/
def readName (text : List Char) : Option (List Char × List Char) :=
  if text.head?.any startsName then
    some (text.takeWhile continuesName,
      (text.dropWhile continuesName).dropWhile Text.isBlank)
  else none

/-- Reads a name and an equals sign, and what follows them after blanks. -/
def readAssignment (text : List Char) : Option (List Char × List Char) :=
  match readName text with
  | some (name, '=' :: rest) => some (name, rest.dropWhile Text.isBlank)
  | some (name, rest) =>
      if name = "export".toList then
        match readName rest with
        | some (name, '=' :: rest) => some (name, rest.dropWhile Text.isBlank)
        | _ => none
      else none
  | none => none

/-- Reads an entry that is not empty. -/
def readEntry (environment : CommandLine.Environment) (text : List Char) :
    Option (String × String) :=
  match readAssignment text with
  | none => none
  | some (name, value) =>
      if value.isEmpty ∨ value.head? = some '#' then
        some (String.ofList name, "")
      else
        (readValue environment (.text false) value).map fun value =>
          (String.ofList name, String.ofList value)

/-- Sets a variable that is not set. -/
def setMissing (entry : String × String)
    (environment : CommandLine.Environment) : CommandLine.Environment :=
  if (List.lookup entry.1 environment).isSome then environment
  else environment ++ [entry]

/-- The environment after entries, up to the first that cannot be read. -/
def apply : List (Option (List Char)) → CommandLine.Environment →
    CommandLine.Environment
  | [], environment => environment
  | none :: _, environment => environment
  | some entry :: rest, environment =>
      match (Text.trimEnd entry).dropWhile Text.isBlank with
      | [] => apply rest environment
      | '#' :: _ => apply rest environment
      | text =>
          match readEntry environment text with
          | none => environment
          | some entry => apply rest (setMissing entry environment)

/-- The lines of a file with their ends. -/
def splitLines : List UInt8 → List (List UInt8)
  | [] => []
  | byte :: rest =>
      match byte == 10, splitLines rest with
      | true, lines => [byte] :: lines
      | false, [] => [[byte]]
      | false, line :: lines => (byte :: line) :: lines

/-- The bytes without a byte order mark. -/
def dropMark : List UInt8 → List UInt8
  | 0xef :: 0xbb :: 0xbf :: rest => rest
  | bytes => bytes

def load (bytes : List UInt8) (environment : CommandLine.Environment) :
    CommandLine.Environment :=
  let lines := (splitLines (dropMark bytes)).map fun line =>
    (Utf8.decode line).toOption
  apply (entries .plain [] lines) environment

/-- The names that a file may set or name, among others. -/
def mentions (bytes : List UInt8) : List String :=
  match Utf8.decode bytes with
  | .error _ => []
  | .ok text =>
      (text.splitBy fun first second =>
        continuesName first == continuesName second).map String.ofList

end EnvironmentFile

end PositionFeed
