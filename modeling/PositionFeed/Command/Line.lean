namespace PositionFeed

/-!
# Command lines

A command line has two levels, the program's and that of one of its commands,
and each level has options.  An option is written out after two dashes or as a
letter after one; letters may be drawn together.  Its value follows as the next
argument, after an equals sign, or at once after a letter.

A value that stands alone is looked at only when the next option begins or the
level ends, and an argument that nobody knows is reported before a value that
was looked at too late.  When the line leaves an option out, its environment
variable may set it.  Options that are common to both levels count where they
were set most directly, and at the inner level if they were set equally so.
-/

namespace CommandLine

/-- Why a command line is refused, or what it asks for instead. -/
inductive LineFault where
  /-- There is no command and no option. -/
  | nothingGiven
  /-- Help is asked for. -/
  | helpWanted
  /-- The version is asked for. -/
  | versionWanted
  | missingCommand
  /-- There is no such command. -/
  | unknownCommand
  /-- There is no such option or place for an argument. -/
  | unknownArgument
  /-- A value is missing or is none of the values allowed. -/
  | invalidValue
  /-- A value is not a number of the right kind. -/
  | invalidNumber
  /-- An option that takes no value has one. -/
  | tooManyValues
  /-- An option is repeated or excludes another one. -/
  | conflict
  deriving Repr, DecidableEq

/-- Where the setting of an option comes from. -/
inductive Origin where
  | environment
  | line
  deriving Repr, DecidableEq

/-- What an option does. -/
inductive OptionKind (Value : Type) where
  | flag
  /-- It counts, up to a limit, how often it is there; in the environment it is
  a number. -/
  | count (limit : Nat) (read : String → Except LineFault Nat)
  | value (read : String → Except LineFault Value)
  /-- It asks for help. -/
  | help
  /-- It asks for the version. -/
  | version

/-- An option. -/
structure OptionPlan (Value : Type) where
  /-- What follows the two dashes. -/
  name : String
  /-- What follows the one dash. -/
  letter : Option Char
  kind : OptionKind Value
  /-- The environment variable that may set it. -/
  environmentName : Option String

/-- What an option is set to. -/
inductive Setting (Value : Type) where
  | present
  /-- It is there so often. -/
  | times (count : Nat)
  | value (value : Value)

/-- The setting of a named option. -/
structure Entry (Value : Type) where
  /-- The name of the option. -/
  name : String
  /-- Where the setting comes from. -/
  origin : Origin
  /-- What it is set to. -/
  setting : Setting Value

/-- How far the options of a level are read. -/
structure Level (Value : Type) where
  /-- The settings so far. -/
  entries : List (Entry Value)
  /-- An option whose value was not looked at, and the value if it was seen. -/
  pending : Option (OptionPlan Value × Option String)

variable {Value : Type}

namespace Level

/-- A level before its first argument. -/
def empty : Level Value := ⟨[], none⟩

/-- The setting of an option. -/
def find? (level : Level Value) (name : String) : Option (Entry Value) :=
  level.entries.find? (·.name == name)

/-- Whether an option is set. -/
def has (level : Level Value) (name : String) : Bool :=
  (level.find? name).isSome

/-- Sets an option, in place of any earlier setting. -/
def put (level : Level Value) (entry : Entry Value) : Level Value :=
  { level with
    entries := level.entries.filter (·.name != entry.name) ++ [entry] }

/-- Whether the next argument is the value of an option. -/
def awaitsValue (level : Level Value) : Bool :=
  level.pending.any fun pending => pending.2.isNone

/-- How often a counting option is there. -/
def timesOf (level : Level Value) (name : String) : Nat :=
  match level.find? name with
  | some ⟨_, _, .times count⟩ => count
  | _ => 0

end Level

/-- Applies an option that is there on the line, with its value if it has one. -/
def apply (plan : OptionPlan Value) (text : Option String)
    (level : Level Value) : Except LineFault (Level Value) :=
  match plan.kind with
  | .help => .error .helpWanted
  | .version => .error .versionWanted
  | .flag =>
      if level.has plan.name then .error .conflict
      else .ok (level.put ⟨plan.name, .line, .present⟩)
  | .count limit _ =>
      let count := min limit (level.timesOf plan.name + 1)
      .ok (level.put ⟨plan.name, .line, .times count⟩)
  | .value read =>
      match text with
      | none => .error .invalidValue
      | some text =>
          if level.has plan.name then .error .conflict
          else do
            let value ← read text
            .ok (level.put ⟨plan.name, .line, .value value⟩)

/-- Looks at a value that was not looked at. -/
def resolve (level : Level Value) : Except LineFault (Level Value) :=
  match level.pending with
  | none => .ok level
  | some (plan, text) => apply plan text { level with pending := none }

/-- Looks at a value that was not looked at, and applies an option. -/
def react (plan : OptionPlan Value) (text : Option String)
    (level : Level Value) : Except LineFault (Level Value) := do
  let level ← resolve level
  apply plan text level

/-- Looks at a value that was not looked at, and waits for that of an option. -/
def await (plan : OptionPlan Value) (level : Level Value) :
    Except LineFault (Level Value) := do
  let level ← resolve level
  .ok { level with pending := some (plan, none) }

def takesValue (plan : OptionPlan Value) : Bool :=
  match plan.kind with
  | .value _ => true
  | _ => false

/-- Reads an option that is written out, without its dashes. -/
def readLong (plans : List (OptionPlan Value)) (text : List Char)
    (level : Level Value) : Except LineFault (Level Value) :=
  let name := String.ofList (text.takeWhile (· != '='))
  let attached : Option String :=
    match text.dropWhile (· != '=') with
    | _ :: value => some (String.ofList value)
    | [] => none
  match plans.find? (·.name == name) with
  | none => .error .unknownArgument
  | some plan =>
      match takesValue plan, attached with
      | true, some value => react plan (some value) level
      | true, none => await plan level
      | false, some _ => .error .tooManyValues
      | false, none => react plan none level

/-- Reads letters that follow one dash. -/
def readLetters (plans : List (OptionPlan Value)) :
    List Char → Level Value → Except LineFault (Level Value)
  | [], level => .ok level
  | letter :: rest, level =>
      match plans.find? (·.letter == some letter) with
      | none => .error .unknownArgument
      | some plan =>
          if takesValue plan then
            match rest with
            | [] => await plan level
            | '=' :: value => react plan (some (String.ofList value)) level
            | value => react plan (some (String.ofList value)) level
          else do
            let level ← react plan none level
            readLetters plans rest level

/-- What is said about an argument that has no place. -/
def misplaced (commands : List String) (afterDashes : Bool)
    (argument : String) : LineFault :=
  if commands.isEmpty ∨ (afterDashes ∧ argument ∈ commands) then
    .unknownArgument
  else .unknownCommand

/-- Reads the arguments of a level up to a command, which is returned with the
arguments after it.  Two dashes alone end the options. -/
def readArguments (plans : List (OptionPlan Value)) (commands : List String) :
    Bool → Level Value → List String →
      Except LineFault (Level Value × Option (String × List String))
  | _, level, [] => .ok (level, none)
  | true, _, argument :: _ => .error (misplaced commands true argument)
  | false, level, argument :: rest =>
      if ¬ level.awaitsValue ∧ argument ∈ commands then
        .ok (level, some (argument, rest))
      else match argument.toList with
        | ['-', '-'] => readArguments plans commands true level rest
        | '-' :: '-' :: text => do
            let level ← readLong plans text level
            readArguments plans commands false level rest
        | '-' :: letter :: letters => do
            let level ← readLetters plans (letter :: letters) level
            readArguments plans commands false level rest
        | _ =>
            match level.pending with
            | some (plan, none) =>
                readArguments plans commands false
                  { level with pending := some (plan, some argument) } rest
            | _ => .error (misplaced commands false argument)

/-- Environment variables and their values. -/
abbrev Environment := List (String × String)

/-- Sets an option from the environment. -/
def applyVariable (plan : OptionPlan Value) (text : String)
    (level : Level Value) : Except LineFault (Level Value) :=
  match plan.kind with
  | .count _ read => do
      let count ← read text
      .ok (level.put ⟨plan.name, .environment, .times count⟩)
  | .value read => do
      let value ← read text
      .ok (level.put ⟨plan.name, .environment, .value value⟩)
  | _ => .ok level

/-- Sets the options that the line leaves out from the environment. -/
def applyEnvironment (environment : Environment) :
    List (OptionPlan Value) → Level Value → Except LineFault (Level Value)
  | [], level => .ok level
  | plan :: rest, level => do
      let level ←
        match plan.environmentName.bind fun name => List.lookup name environment with
        | none => .ok level
        | some text =>
            if level.has plan.name then .ok level
            else applyVariable plan text level
      applyEnvironment environment rest level

/-- Refuses two options that exclude each other. -/
def checkConflict (first second : String) (level : Level Value) :
    Except LineFault Unit :=
  if level.has first ∧ level.has second then .error .conflict else .ok ()

/-- Ends a level: looks at its last value and at the environment. -/
def finishLevel (environment : Environment) (plans : List (OptionPlan Value))
    (level : Level Value) : Except LineFault (Level Value) := do
  let level ← resolve level
  applyEnvironment environment plans level

/-- The setting that counts for an option common to both levels. -/
def common (outer inner : Level Value) (name : String) :
    Option (Entry Value) :=
  match outer.find? name, inner.find? name with
  | some outer, some inner =>
      if outer.origin = .line ∧ inner.origin = .environment then some outer
      else some inner
  | some outer, none => some outer
  | none, inner => inner

/-- What the help command finds after it: names of commands, of which none has
commands of its own. -/
def readHelp (commands : List String) : List String → LineFault
  | [] => .helpWanted
  | [command] => if command ∈ commands then .helpWanted else .unknownCommand
  | _ => .unknownCommand

end CommandLine

end PositionFeed
