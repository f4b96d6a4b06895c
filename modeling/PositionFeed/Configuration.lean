import PositionFeed.Blueprint.Export
import PositionFeed.Blueprint.Rules
import PositionFeed.Blueprint.Schema
import PositionFeed.Fault
import PositionFeed.Json.Reader
import PositionFeed.Text.Utf8
import PositionFeed.Toml.Reader

namespace PositionFeed

/-!
# Configurations

A configuration is the text of a blueprint in one of two formats.  The name of
its file tells the format, and only then is the file read; what it holds is
read as a blueprint, and the blueprint is checked against the rules.
-/

/-- The format of a configuration. -/
inductive ConfigurationFormat where
  | toml
  | json
  deriving Repr, DecidableEq

namespace ConfigurationFormat

/-- The word for a format. -/
def name : ConfigurationFormat → String
  | .toml => "toml"
  | .json => "json"

/-- The format as messages call it. -/
def title : ConfigurationFormat → String
  | .toml => "TOML"
  | .json => "JSON"

/-- The format that an extension of a file name stands for, in any case. -/
def ofExtension? (extension : String) : Option ConfigurationFormat :=
  match Text.lowered extension with
  | "toml" => some .toml
  | "json" => some .json
  | _ => none

/-- How messages write doubles of a document in this format. -/
def numbers : ConfigurationFormat → NumberStyle
  | .toml => .pointed
  | .json => .json

end ConfigurationFormat

/-- What the operating system answers when a file is to be read. -/
inductive FileAnswer where
  /-- There is no such file. -/
  | missing
  | directory
  /-- It holds these bytes. -/
  | content (bytes : List UInt8)
  /-- It cannot be read. -/
  | refused (reason : SystemFault)
  deriving Repr, DecidableEq

/-- The text that a file holds. -/
def FileAnswer.text : FileAnswer → Except SystemFault (List Char)
  | .missing => .error .missing
  | .directory => .error .directory
  | .content bytes =>
      match Utf8.decode bytes with
      | .ok chars => .ok chars
      | .error _ => .error .notText
  | .refused reason => .error reason

/-- Why a configuration is not accepted. -/
inductive ConfigurationDefect where
  /-- The name of the file has no extension. -/
  | noExtension
  /-- The extension stands for no format. -/
  | unknownExtension (extension : String)
  /-- The file cannot be read. -/
  | unreadable (reason : SystemFault)
  /-- The text is no blueprint. -/
  | refused (format : ConfigurationFormat) (refusal : Refusal)
  /-- The blueprint breaks a rule. -/
  | violation (violation : Violation)
  deriving Repr, DecidableEq

/-- What is said about a text that is no blueprint. -/
def ConfigurationFormat.refusalMessage (format : ConfigurationFormat) :
    Refusal → String
  | .malformed => format.title ++ " parse error"
  | .mismatch reason =>
      format.title ++ " parse error: " ++ reason.message format.numbers

/-- A broken rule as a fault. -/
def Violation.fault (violation : Violation) : Fault :=
  .rule violation.field violation.message

/-- A configuration that is not accepted, as a fault. -/
def ConfigurationDefect.fault : ConfigurationDefect → Fault
  | .noExtension =>
      .configuration "cannot determine file format from extension"
  | .unknownExtension extension =>
      .configuration ("unsupported config format: ." ++ extension)
  | .unreadable reason => .system reason.message
  | .refused format refusal => .configuration (format.refusalMessage refusal)
  | .violation broken => broken.fault

namespace Configuration

/-- The last part of a path, if it names a file. -/
def fileName? (path : List Char) : Option (List Char) :=
  let parts := (Text.splitAt '/' path).filter fun part =>
    ! part.isEmpty && part != ['.']
  match parts.getLast? with
  | some part => if part = ['.', '.'] then none else some part
  | none => none

/-- The part of a name after its last point, if something stands before it. -/
def extension? (name : List Char) : Option (List Char) :=
  let ending := (name.reverse.takeWhile (· != '.')).reverse
  if ending.length + 1 < name.length then some ending else none

/-- The format that the name of a file tells. -/
def formatOf (path : String) : Except ConfigurationDefect ConfigurationFormat :=
  match (fileName? path.toList).bind extension? with
  | none => .error .noExtension
  | some extension =>
      let extension := String.ofList extension
      match ConfigurationFormat.ofExtension? extension with
      | some format => .ok format
      | none => .error (.unknownExtension extension)

/-- Reads a blueprint without checking it. -/
def parse (format : ConfigurationFormat) (text : List Char) :
    Except ConfigurationDefect Blueprint :=
  (match format with
    | .toml => Toml.read (Blueprint.decode Schema.toml) text
    | .json =>
        Json.read (Blueprint.decode Schema.json) (Utf8.encode text)).mapError
    (.refused format)

/-- Accepts a blueprint that keeps the rules. -/
def check (blueprint : Blueprint) : Except ConfigurationDefect Unit :=
  blueprint.validate.mapError .violation

/-- Reads a blueprint and checks it. -/
def load (format : ConfigurationFormat) (text : List Char) :
    Except ConfigurationDefect Blueprint := do
  let blueprint ← parse format text
  check blueprint
  .ok blueprint

/-- Reads a blueprint from a file and checks it. -/
def loadFile (path : String) (file : FileAnswer) :
    Except ConfigurationDefect Blueprint := do
  let format ← formatOf path
  let text ← file.text.mapError .unreadable
  load format text

def write (format : ConfigurationFormat) (blueprint : Blueprint) : String :=
  match format with
  | .toml => blueprint.toToml
  | .json => blueprint.toJson

end Configuration

end PositionFeed
