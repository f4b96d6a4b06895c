import PositionFeed.Decimal.Layout
import PositionFeed.Text.Quoted

namespace PositionFeed

/-!
# Documents

A configuration document and a bus record are both read in two steps.  First a
format turns text into a tree of nodes; then a schema turns the tree into a
value.  The tree keeps the places at which the text stopped being well formed:
`broken` stands for text that is no value at all, `unusable` for a value that
is spelled correctly but that nothing can hold, and a sequence or a table that
is not `closed` ends in text that cannot follow its last entry.  A schema meets
these places in the order of the document, so a wrong value before a spelling
mistake is reported, and one after it is not.
-/

/-- A document as a tree. -/
inductive Node where
  /-- The absent value. -/
  | null
  /-- A truth value. -/
  | boolean (value : Bool)
  /-- A whole number. -/
  | integer (value : Int)
  /-- A number with a fraction or an exponent. -/
  | fraction (value : Float)
  | text (value : String)
  /-- A date or a time, in its usual spelling. -/
  | moment (spelling : String)
  /-- Values in order. -/
  | sequence (items : List Node) (closed : Bool)
  /-- Values under keys, in order; a key without a usable text is `none`. -/
  | table (entries : List (Option String × Node)) (closed : Bool)
  /-- A value that is spelled correctly and cannot be held. -/
  | unusable
  /-- No value at all. -/
  | broken
  deriving Repr

namespace Node

mutual

/-- Whether a value nobody asked for can be passed over. -/
def ignorable : Node → Bool
  | .broken => false
  | .sequence items closed => allIgnorable items && closed
  | .table entries closed => entriesIgnorable entries && closed
  | _ => true

/-- Whether every value of a list can be passed over. -/
def allIgnorable : List Node → Bool
  | [] => true
  | item :: rest => item.ignorable && allIgnorable rest

/-- Whether every value of a table can be passed over. -/
def entriesIgnorable : List (Option String × Node) → Bool
  | [] => true
  | (_, value) :: rest => value.ignorable && entriesIgnorable rest

end

end Node

/-- What stands in a document where something else is wanted. -/
inductive Found where
  /-- The absent value. -/
  | null
  /-- A truth value. -/
  | boolean (value : Bool)
  /-- A whole number. -/
  | integer (value : Int)
  | fraction (value : Float)
  | text (value : String)
  /-- Values in order. -/
  | sequence
  /-- Values under keys. -/
  | table
  deriving Repr, DecidableEq

/-- How a value that does not fit is described, with doubles in the style of
the document's format. -/
def Found.describe (style : NumberStyle) : Found → String
  | .null => "null"
  | .boolean value => s!"boolean `{value}`"
  | .integer value => s!"integer `{value}`"
  | .fraction value =>
      "floating point `" ++ String.ofList (style.text value) ++ "`"
  | .text value => "string " ++ Text.quoted value
  | .sequence => "sequence"
  | .table => "map"

/-- Why a document that is well formed has no meaning here. -/
inductive Mismatch where
  /-- A value of another kind. -/
  | wrongKind (found : Found) (expected : String)
  /-- A value of the right kind that is out of bounds. -/
  | wrongValue (found : Found) (expected : String)
  /-- A record written as a sequence that ends too early. -/
  | wrongLength (length : Nat) (expected : String)
  /-- A name that is none of the names allowed. -/
  | unknownVariant (found : String) (expected : List String)
  /-- A record without a field that it must have. -/
  | missingField (name : String)
  /-- A record with one field twice. -/
  | duplicateField (name : String)
  /-- A value that cannot name a variant. -/
  | variantKind
  /-- A table that should hold one variant and holds another number of them. -/
  | variantCount (tooMany : Bool)
  /-- A variant with content of the given kind, where none is wanted. -/
  | variantContent (found : String)
  /-- A variant with a table or a sequence that is not empty. -/
  | variantSurplus (collection : String)
  deriving Repr, DecidableEq

namespace Mismatch

/-- A list of names as a message shows it. -/
def alternatives (names : List String) : String :=
  let ticked := names.map fun name => "`" ++ name ++ "`"
  match ticked with
  | [] => ""
  | [only] => only
  | [first, second] => first ++ " or " ++ second
  | many => "one of " ++ ", ".intercalate many

/-- The wording of a mismatch. -/
def message (style : NumberStyle) : Mismatch → String
  | .wrongKind found expected =>
      "invalid type: " ++ found.describe style ++ ", expected " ++ expected
  | .wrongValue found expected =>
      "invalid value: " ++ found.describe style ++ ", expected " ++ expected
  | .wrongLength length expected =>
      s!"invalid length {length}, expected " ++ expected
  | .unknownVariant found expected =>
      "unknown variant `" ++ found ++ "`, expected " ++ alternatives expected
  | .missingField name => "missing field `" ++ name ++ "`"
  | .duplicateField name => "duplicate field `" ++ name ++ "`"
  | .variantKind => "wanted string or table"
  | .variantCount tooMany =>
      if tooMany then "wanted exactly 1 element, more than 1 element"
      else "wanted exactly 1 element, found 0 elements"
  | .variantContent found => "expected table, found " ++ found
  | .variantSurplus collection => "expected empty " ++ collection

end Mismatch

/-- Why a document is refused. -/
inductive Refusal where
  /-- Its text is not well formed. -/
  | malformed
  /-- It is well formed and does not have the wanted shape. -/
  | mismatch (reason : Mismatch)
  deriving Repr, DecidableEq

end PositionFeed
