import PositionFeed.Decimal.Literal
import PositionFeed.Document.Node
import PositionFeed.Word

namespace PositionFeed

/-!
# Schemas

A schema reads a value from a document node.  The functions here cover what
configurations and bus records are made of: numbers, texts, names out of a
fixed list, sequences, maps of texts and records.  The two document formats
differ in few points, which are the fields of a `Dialect`.

A record may be written as a table or as a sequence of its fields in order.
`record` walks over it once, in document order, and stops at the first
field that does not fit; what it returns is the list of the fields present.
-/

namespace Schema

/-- The result of reading a document node. -/
abbrev Reading (α : Type) := Except Refusal α

def refuse (reason : Mismatch) : Reading α :=
  .error (.mismatch reason)

/-- What a node is, for a message. -/
def found : Node → Reading Found
  | .null => .ok .null
  | .boolean value => .ok (.boolean value)
  | .integer value => .ok (.integer value)
  | .fraction value => .ok (.fraction value)
  | .text value => .ok (.text value)
  | .moment _ => .ok .table
  | .sequence .. => .ok .sequence
  | .table .. => .ok .table
  | .unusable => .error .malformed
  | .broken => .error .malformed

/-- Refuses a node because it is of another kind than expected. -/
def wrongKind (expected : String) (node : Node) : Reading α := do
  let what ← found node
  refuse (.wrongKind what expected)

/-- The least whole number a document may hold where a number is wanted. -/
def leastWhole : Int := Word.leastSigned 64

/-- One more than the largest whole number a document may hold where a number
is wanted. -/
def wholeBound : Int := Word.size 64

/-- Whether a whole number fits into 64 bits with or without a sign. -/
def isWord (value : Int) : Bool :=
  leastWhole ≤ value && value < wholeBound

/-- The double nearest to a whole number. -/
def wholeToFloat (value : Int) : Float :=
  Binary64.nearest (value < 0) value.natAbs 1

/-- A number of any spelling. -/
def number (node : Node) : Reading Float :=
  match node with
  | .integer value =>
      if isWord value then .ok (wholeToFloat value) else wrongKind "f64" node
  | .fraction value => .ok value
  | _ => wrongKind "f64" node

/-- A natural number up to a limit, under the name of its kind. -/
def natural (limit : Nat) (kind : String) (node : Node) : Reading Nat :=
  match node with
  | .integer value =>
      if 0 ≤ value ∧ value ≤ limit then .ok value.toNat
      else if isWord value then refuse (.wrongValue (.integer value) kind)
      else wrongKind kind node
  | _ => wrongKind kind node

/-- A natural number of 64 bits. -/
def natural64 : Node → Reading Nat :=
  natural (Word.greatest 64) "u64"

/-- A natural number of 32 bits. -/
def natural32 : Node → Reading Nat :=
  natural (Word.greatest 32) "u32"

def text (node : Node) : Reading String :=
  match node with
  | .text value => .ok value
  | _ => wrongKind "a string" node

/-- A value that may be absent. -/
def optional (read : Node → Reading α) : Node → Reading (Option α)
  | .null => .ok none
  | node => (read node).map some

/-- Reads the items of a sequence in order. -/
def items (read : Node → Reading α) : List Node → Reading (List α)
  | [] => .ok []
  | item :: rest => do
      let value ← read item
      let values ← items read rest
      .ok (value :: values)

/-- Values in order. -/
def sequence (read : Node → Reading α) (node : Node) : Reading (List α) :=
  match node with
  | .sequence nodes closed => do
      let values ← items read nodes
      if closed then .ok values else .error .malformed
  | _ => wrongKind "a sequence" node

/-- Reads the entries of a map of texts in order. -/
def textEntries :
    List (Option String × Node) → Reading (List (String × String))
  | [] => .ok []
  | (none, _) :: _ => .error .malformed
  | (some key, value) :: rest => do
      let value ← text value
      let entries ← textEntries rest
      .ok ((key, value) :: entries)

/-- The key under which a date or a time stands when a map is wanted. -/
def momentKey : String := "$__toml_private_datetime"

/-- Texts under keys. -/
def textMap (node : Node) : Reading (List (String × String)) :=
  match node with
  | .table entries closed => do
      let entries ← textEntries entries
      if closed then .ok entries else .error .malformed
  | .moment spelling => .ok [(momentKey, spelling)]
  | _ => wrongKind "a map" node

/-- One of the given names, or a refusal. -/
def knownName (names : List String) (name : String) : Reading String :=
  if name ∈ names then .ok name else refuse (.unknownVariant name names)

/-- Reads the name of a variant in JSON: a text, or a table that holds `null`
under the name. -/
def jsonVariant (names : List String) : Node → Reading String
  | .text name => knownName names name
  | .table ((some name, value) :: rest) closed => do
      let name ← knownName names name
      match value with
      | .null =>
          if rest.isEmpty ∧ closed then .ok name else .error .malformed
      | _ => wrongKind "unit" value
  | _ => .error .malformed

/-- The word for the kind of a TOML value. -/
def tomlKind : Node → String
  | .text _ => "string"
  | .integer _ => "integer"
  | .fraction _ => "float"
  | .boolean _ => "boolean"
  | .moment _ => "datetime"
  | .sequence .. => "array"
  | _ => "table"

/-- Reads the name of a variant in TOML: a text, or a table that holds nothing
but an empty table or array under the name. -/
def tomlVariant (names : List String) : Node → Reading String
  | .text name => knownName names name
  | .table [] _ => refuse (.variantCount false)
  | .table [(some name, value)] _ => do
      let name ← knownName names name
      match value with
      | .table [] _ => .ok name
      | .sequence [] _ => .ok name
      | .table .. => refuse (.variantSurplus "table")
      | .sequence .. => refuse (.variantSurplus "array")
      | .broken => .error .malformed
      | .unusable => .error .malformed
      | _ => refuse (.variantContent (tomlKind value))
  | .table .. => refuse (.variantCount true)
  | .broken => .error .malformed
  | .unusable => .error .malformed
  | _ => refuse .variantKind

/-- What the document formats do differently. -/
structure Dialect where
  /-- How messages write doubles. -/
  numbers : NumberStyle
  /-- How a name out of a list is written. -/
  variant : List String → Node → Reading String
  /-- Whether a record written as a sequence may go on after its last field. -/
  allowsSurplus : Bool

def json : Dialect where
  numbers := .json
  variant := jsonVariant
  allowsSurplus := false

def toml : Dialect where
  numbers := .pointed
  variant := tomlVariant
  allowsSurplus := true

/-- A field of a record. -/
structure Field where
  name : String
  /-- Whether a record must have it. -/
  required : Bool
  /-- What its value must look like. -/
  check : Node → Reading Unit

/-- A field whose value is read by the given function. -/
def Field.of (name : String) (required : Bool) (read : Node → Reading α) :
    Field where
  name := name
  required := required
  check node := (read node).map fun _ => ()

/-- The fields that a record in a document has, by name. -/
abbrev Present := List (String × Node)

/-- Walks over a record written as a table. -/
def tableFields (fields : List Field) (closed : Bool) :
    Present → List (Option String × Node) → Reading Present
  | present, [] => if closed then .ok present else .error .malformed
  | _, (none, _) :: _ => .error .malformed
  | present, (some key, value) :: rest =>
      match fields.find? (·.name == key) with
      | some field =>
          if present.any (·.1 == key) then refuse (.duplicateField key)
          else do
            field.check value
            tableFields fields closed (present ++ [(key, value)]) rest
      | none =>
          if value.ignorable then tableFields fields closed present rest
          else .error .malformed

/-- Walks over a record written as a sequence.  The index counts the fields
that came before. -/
def sequenceFields (dialect : Dialect) (expected : String) (closed : Bool) :
    Nat → List Field → List Node → Reading Present
  | _, [], surplus =>
      if dialect.allowsSurplus ∨ (surplus.isEmpty ∧ closed) then .ok []
      else .error .malformed
  | index, field :: fields, [] =>
      if ¬ closed then .error .malformed
      else if field.required then refuse (.wrongLength index expected)
      else sequenceFields dialect expected closed (index + 1) fields []
  | index, field :: fields, item :: rest => do
      field.check item
      let present ←
        sequenceFields dialect expected closed (index + 1) fields rest
      .ok ((field.name, item) :: present)

/-- The fields of a record of the named type. -/
def record (dialect : Dialect) (typeName : String) (fields : List Field)
    (node : Node) : Reading Present :=
  let expected := "struct " ++ typeName
  match node with
  | .table entries closed => tableFields fields closed [] entries
  | .sequence nodes closed =>
      sequenceFields dialect (s!"{expected} with {fields.length} elements")
        closed 0 fields nodes
  | .moment _ => .ok []
  | _ => wrongKind expected node

/-- The value of a field, or its default when the record does not have it. -/
def Present.orDefault (present : Present) (name : String)
    (read : Node → Reading α) (default : α) : Reading α :=
  match present.lookup name with
  | some node => read node
  | none => .ok default

/-- The value of a field that the record must have. -/
def Present.wanted (present : Present) (name : String)
    (read : Node → Reading α) : Reading α :=
  match present.lookup name with
  | some node => read node
  | none => refuse (.missingField name)

end Schema

end PositionFeed
