import PositionFeed.Document.Schema
import PositionFeed.Toml.Scalar
import PositionFeed.Toml.Tree
import PositionFeed.Word

namespace PositionFeed

/-!
# Reading TOML

A document is a list of lines: headers, keys with values, comments and empty
lines.  Each line is one edit of the table at the end of the current header.
Unlike a JSON document, a TOML document with a spelling mistake anywhere has no
tree at all.
-/

namespace Toml

/-- How deeply arrays and inline tables may be nested. -/
def nestingLimit : Nat := 80

/-- Drops spaces and tabs. -/
def skipBlanks (text : List Char) : List Char :=
  text.dropWhile fun c => c == ' ' || c == '\t'

/-- Drops a comment up to the end of its line. -/
def skipComment (text : List Char) : List Char :=
  match text with
  | '#' :: rest => rest.dropWhile isPrintable
  | _ => text

def lineEnd? : List Char → Option (List Char)
  | '\n' :: rest => some rest
  | '\r' :: '\n' :: rest => some rest
  | _ => none

/-- Drops blanks, comments and line ends.  The number bounds the steps; the
length of the text is enough. -/
def skipLines : Nat → List Char → List Char
  | 0, text => text
  | fuel + 1, text =>
      let rest := skipComment (skipBlanks text)
      match lineEnd? rest with
      | some rest => skipLines fuel rest
      | none => rest

/-- Drops everything that may stand between the values of an array. -/
def skipGap (text : List Char) : List Char :=
  skipLines text.length text

/-- Whether a character may stand in a key without quotes. -/
def isKeyChar (c : Char) : Bool :=
  c.isAlphanum || c == '_' || c == '-'

/-- One key, quoted or not. -/
def simpleKey (text : List Char) : Option (String × List Char) :=
  match text with
  | '"' :: rest =>
      (basicBody (rest.length + 1) rest).map fun read =>
        (String.ofList read.1, read.2)
  | '\'' :: rest =>
      (literalBody rest).map fun read => (String.ofList read.1, read.2)
  | _ =>
      let key := text.takeWhile isKeyChar
      if key.isEmpty then none
      else some (String.ofList key, text.dropWhile isKeyChar)

/-- Keys with points between them, and the blanks around the points.  The
number bounds the steps; the length of the text is enough. -/
def dottedKey : Nat → List Char → Option (List String × List Char)
  | 0, _ => none
  | fuel + 1, text => do
      let (key, rest) ← simpleKey (skipBlanks text)
      match skipBlanks rest with
      | '.' :: rest =>
          let (keys, rest) ← dottedKey fuel rest
          some (key :: keys, rest)
      | rest => some ([key], rest)

mutual

/-- Reads a value.  The first number bounds the nesting and the second the
steps. -/
def value : Nat → Nat → List Char → Option (Node × List Char)
  | _, 0, _ => none
  | depth, fuel + 1, text =>
      match text with
      | '[' :: rest =>
          match depth with
          | 0 => none
          | depth + 1 => do
              let (items, rest) ← elements depth fuel rest
              some (.sequence items true, rest)
      | '\x7b' :: rest =>
          match depth with
          | 0 => none
          | depth + 1 => do
              let (entries, rest) ← pairs depth fuel [] rest
              some (tableNode (entryNodes entries), rest)
      | '"' :: _ =>
          (quotedText text).map fun read =>
            (.text (String.ofList read.1), read.2)
      | '\'' :: _ =>
          (quotedText text).map fun read =>
            (.text (String.ofList read.1), read.2)
      | _ => scalar text

/-- Reads the values of an array up to its closing bracket; a comma may follow
the last one. -/
def elements : Nat → Nat → List Char → Option (List Node × List Char)
  | _, 0, _ => none
  | depth, fuel + 1, text =>
      match skipGap text with
      | ']' :: rest => some ([], rest)
      | text => do
          let (node, rest) ← value depth fuel text
          match skipGap rest with
          | ',' :: rest =>
              let (nodes, rest) ← elements depth fuel rest
              some (node :: nodes, rest)
          | ']' :: rest => some ([node], rest)
          | _ => none

/-- Reads the entries of an inline table up to its closing brace; a comma may
follow the last one. -/
def pairs : Nat → Nat → Entries → List Char → Option (Entries × List Char)
  | _, 0, _, _ => none
  | depth, fuel + 1, entries, text =>
      match skipGap text with
      | '\x7d' :: rest => some (entries, rest)
      | text => do
          let (keys, rest) ← dottedKey (text.length + 1) text
          let ('=' :: rest) := rest | none
          let (node, rest) ← value depth fuel (skipBlanks rest)
          let entries ← entries.assign node keys
          match skipGap rest with
          | ',' :: rest => pairs depth fuel entries rest
          | '\x7d' :: rest => some (entries, rest)
          | _ => none

end

/-- The line after a header or a key with its value: nothing but blanks and a
comment may follow on the same line. -/
def endOfLine (text : List Char) : Option (List Char) :=
  match skipComment (skipBlanks text) with
  | [] => some []
  | rest => lineEnd? rest

/-- The last key of a path and the keys before it. -/
def splitLast (keys : List String) : Option (List String × String) :=
  keys.getLast?.map fun last => (keys.dropLast, last)

/-- Reads the lines of a document.  The path is the current header; the number
bounds the steps. -/
def lines : Nat → List String → Entries → List Char → Option Entries
  | 0, _, _, _ => none
  | fuel + 1, path, entries, text =>
      match skipGap text with
      | [] => some entries
      | '[' :: '[' :: rest => do
          let (keys, rest) ← dottedKey (rest.length + 1) rest
          let (']' :: ']' :: rest) := rest | none
          let rest ← endOfLine rest
          let (before, last) ← splitLast keys
          let entries ← entries.enter (Entries.openElement last) before
          lines fuel keys entries rest
      | '[' :: rest => do
          let (keys, rest) ← dottedKey (rest.length + 1) rest
          let (']' :: rest) := rest | none
          let rest ← endOfLine rest
          let (before, last) ← splitLast keys
          let entries ← entries.enter (Entries.openTable last) before
          lines fuel keys entries rest
      | text => do
          let (keys, rest) ← dottedKey (text.length + 1) text
          let ('=' :: rest) := rest | none
          let (node, rest) ← value nestingLimit (text.length + 1) (skipBlanks rest)
          let rest ← endOfLine rest
          let entries ← entries.enter (Entries.assign node keys) path
          lines fuel path entries rest

/-- A document without the mark that may begin it. -/
def dropMark : List Char → List Char
  | '\ufeff' :: rest => rest
  | text => text

/-- The tree of a document, if it is well formed. -/
def document? (text : List Char) : Option Node :=
  (lines (text.length + 1) [] [] (dropMark text)).map fun entries =>
    tableNode (entryNodes entries)

mutual

/-- Whether every whole number of a tree fits into 64 bits with a sign, and
every value can be held. -/
def isPlain : Node → Bool
  | .integer value => Word.leastSigned 64 ≤ value && value ≤ Word.greatestSigned 64
  | .broken => false
  | .sequence items _ => allPlain items
  | .table entries _ => entriesPlain entries
  | _ => true

def allPlain : List Node → Bool
  | [] => true
  | item :: rest => isPlain item && allPlain rest

/-- Whether every value of a table is plain. -/
def entriesPlain : List (Option String × Node) → Bool
  | [] => true
  | (_, value) :: rest => isPlain value && entriesPlain rest

end

/-- Reads a value from TOML text by a schema.  The reason for a refusal is
told for plain documents only. -/
def read (schema : Node → Except Refusal α) (text : List Char) :
    Except Refusal α :=
  match document? text with
  | none => .error .malformed
  | some node =>
      match schema node with
      | .ok result => .ok result
      | .error reason =>
          if isPlain node then .error reason else .error .malformed

end Toml

end PositionFeed
