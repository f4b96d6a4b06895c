import PositionFeed.Blueprint.Basic
import PositionFeed.Command.Line
import PositionFeed.Decimal.Literal
import PositionFeed.Word

namespace PositionFeed

/-!
# Invocations

An invocation is what a command line asks the program to do: to run a pipeline,
to validate a configuration, or to show what a configuration means.
-/

/-- The format of log lines. -/
inductive LogFormat where
  | json
  /-- Several lines for a person to read. -/
  | pretty
  /-- One short line. -/
  | compact
  deriving Repr, DecidableEq

/-- The format of log lines as reports call it. -/
def LogFormat.title : LogFormat → String
  | .json => "Json"
  | .pretty => "Pretty"
  | .compact => "Compact"

/-- What a run is asked to do. -/
structure RunOptions where
  /-- The configuration file. -/
  configuration : Option String
  /-- The role, in place of the configured one. -/
  role : Option Role
  /-- The producer's rate, in place of the configured one. -/
  producerRate : Option Float
  /-- How many seconds to run; zero means until a signal. -/
  duration : Nat
  /-- The port where measures are offered; zero means none. -/
  metricsPort : Nat
  /-- Whether to end before anything runs. -/
  dryRun : Bool
  deriving DecidableEq

/-- What a validation is asked to do. -/
structure ValidateOptions where
  /-- The configuration file. -/
  configuration : String
  /-- Whether to answer in JSON. -/
  json : Bool
  deriving Repr, DecidableEq

/-- What an explanation is asked to do. -/
structure InfoOptions where
  /-- The configuration file. -/
  configuration : Option String
  /-- The role, in place of the configured one. -/
  role : Option Role
  /-- Whether to answer in JSON. -/
  json : Bool
  deriving Repr, DecidableEq

/-- What the program is asked to do. -/
inductive Command where
  /-- To run a pipeline. -/
  | run (options : RunOptions)
  /-- To validate a configuration. -/
  | validate (options : ValidateOptions)
  /-- To show what a configuration means. -/
  | info (options : InfoOptions)
  deriving DecidableEq

/-- What a command line asks for. -/
structure Invocation where
  /-- How much more to log. -/
  verbosity : Nat
  /-- Whether to log as little as possible. -/
  quiet : Bool
  /-- The format of log lines. -/
  logFormat : LogFormat
  command : Command
  deriving DecidableEq

namespace CommandLine

/-- The value of an option. -/
inductive OptionValue where
  | path (value : String)
  | role (value : Role)
  | logFormat (value : LogFormat)
  | rate (value : Float)
  /-- A whole number. -/
  | number (value : Nat)

/-- Reads a path, which must not be empty. -/
def readPath (text : String) : Except LineFault OptionValue :=
  if text.isEmpty then .error .invalidValue else .ok (.path text)

def readRole (text : String) : Except LineFault OptionValue :=
  match Role.ofName? text with
  | some role => .ok (.role role)
  | none => .error .invalidValue

def readLogFormat (text : String) : Except LineFault OptionValue :=
  match text with
  | "json" => .ok (.logFormat .json)
  | "pretty" => .ok (.logFormat .pretty)
  | "compact" => .ok (.logFormat .compact)
  | _ => .error .invalidValue

def readRate (text : String) : Except LineFault OptionValue :=
  match FloatLiteral.read text.toList with
  | .ok rate => .ok (.rate rate)
  | .error _ => .error .invalidNumber

/-- Reads a natural number of 64 bits. -/
def readLarge (text : String) : Except LineFault OptionValue :=
  match WholeLiteral.readNat (Word.greatest 64) text.toList with
  | .ok number => .ok (.number number)
  | .error _ => .error .invalidNumber

/-- Reads a natural number up to a limit; a minus sign is allowed before zero. -/
def readSmall (limit : Nat) (text : String) : Except LineFault Nat :=
  match WholeLiteral.read (Word.size 63) (Word.greatest 63) text.toList with
  | .ok number =>
      if 0 ≤ number ∧ number ≤ limit then .ok number.toNat
      else .error .invalidNumber
  | .error _ => .error .invalidNumber

/-- The largest verbosity. -/
def verbosityLimit : Nat := 255

/-- The options common to both levels. -/
def commonPlans : List (OptionPlan OptionValue) := [
  { name := "verbose"
    letter := some 'v'
    kind := .count verbosityLimit (readSmall verbosityLimit)
    environmentName := some "TRAJECTORY_PIPELINE_VERBOSE" },
  { name := "quiet"
    letter := some 'q'
    kind := .flag
    environmentName := none },
  { name := "log-format"
    letter := none
    kind := .value readLogFormat
    environmentName := some "TRAJECTORY_PIPELINE_LOG_FORMAT" }]

/-- The option that asks for help. -/
def helpPlan : OptionPlan OptionValue where
  name := "help"
  letter := some 'h'
  kind := .help
  environmentName := none

def programPlans : List (OptionPlan OptionValue) :=
  commonPlans ++ [helpPlan,
    { name := "version"
      letter := some 'V'
      kind := .version
      environmentName := none }]

/-- The option that names a configuration file. -/
def configurationPlan (environmentName : Option String) : OptionPlan OptionValue where
  name := "config"
  letter := some 'c'
  kind := .value readPath
  environmentName := environmentName

/-- An option without a letter. -/
def wordPlan (name : String) (kind : OptionKind OptionValue)
    (environmentName : Option String) : OptionPlan OptionValue where
  name := name
  letter := none
  kind := kind
  environmentName := environmentName

/-- The options of each command, in the order in which the environment is
looked at. -/
def commandPlans : String → List (OptionPlan OptionValue)
  | "run" => [
      configurationPlan (some "TRAJECTORY_PIPELINE_CONFIG"),
      wordPlan "role" (.value readRole) (some "TRAJECTORY_PIPELINE_ROLE"),
      wordPlan "producer-rate" (.value readRate)
        (some "TRAJECTORY_PIPELINE_PRODUCER_RATE"),
      wordPlan "duration" (.value readLarge)
        (some "TRAJECTORY_PIPELINE_DURATION"),
      wordPlan "metrics-port"
        (.value fun text => (readSmall (Word.greatest 16) text).map .number)
        (some "TRAJECTORY_PIPELINE_METRICS_PORT"),
      wordPlan "dry-run" .flag none]
  | "validate" => [configurationPlan none, wordPlan "json" .flag none]
  | _ => [
      configurationPlan none, wordPlan "role" (.value readRole) none,
      wordPlan "json" .flag none]

def commandNames : List String := ["run", "validate", "info"]

/-- The environment variables that may set an option. -/
def environmentNames : List String :=
  (programPlans ++ commandNames.flatMap commandPlans).filterMap
    (·.environmentName)

def valueOf (level : Level OptionValue) (name : String) :
    Option OptionValue :=
  match level.find? name with
  | some ⟨_, _, .value value⟩ => some value
  | _ => none

/-- The path that an option is set to. -/
def pathOf (level : Level OptionValue) : Option String :=
  match valueOf level "config" with
  | some (.path path) => some path
  | _ => none

/-- The role that an option is set to. -/
def roleOf (level : Level OptionValue) : Option Role :=
  match valueOf level "role" with
  | some (.role role) => some role
  | _ => none

/-- The number that an option is set to, zero if it is not set. -/
def numberOf (level : Level OptionValue) (name : String) : Nat :=
  match valueOf level name with
  | some (.number number) => number
  | _ => 0

/-- What a command is asked to do. -/
def commandOf (name : String) (level : Level OptionValue) : Command :=
  match name with
  | "run" =>
      .run {
        configuration := pathOf level
        role := roleOf level
        producerRate :=
          match valueOf level "producer-rate" with
          | some (.rate rate) => some rate
          | _ => none
        duration := numberOf level "duration"
        metricsPort := numberOf level "metrics-port"
        dryRun := level.has "dry-run" }
  | "validate" =>
      .validate {
        configuration := (pathOf level).getD "config.toml"
        json := level.has "json" }
  | _ =>
      .info {
        configuration := pathOf level
        role := roleOf level
        json := level.has "json" }

/-- The invocation that the settings of both levels make. -/
def invocationOf (outer inner : Level OptionValue) (command : Command) :
    Invocation where
  verbosity :=
    match common outer inner "verbose" with
    | some ⟨_, _, .times count⟩ => count
    | _ => 0
  quiet := (common outer inner "quiet").isSome
  logFormat :=
    match common outer inner "log-format" with
    | some ⟨_, _, .value (.logFormat format)⟩ => format
    | _ => .pretty
  command := command

/-- Ends a level and refuses to be quiet and verbose at once. -/
def closeLevel (environment : Environment)
    (plans : List (OptionPlan OptionValue)) (level : Level OptionValue) :
    Except LineFault (Level OptionValue) := do
  let level ← finishLevel environment plans level
  checkConflict "quiet" "verbose" level
  .ok level

def readCommand (environment : Environment) (name : String)
    (arguments : List String) :
    Except LineFault (Level OptionValue × Command) := do
  let plans := commandPlans name ++ commonPlans ++ [helpPlan]
  let (level, _) ← readArguments plans [] false .empty arguments
  let level ← closeLevel environment plans level
  .ok (level, commandOf name level)

/-- Reads a command line that names no command. -/
def withoutCommand (environment : Environment) (level : Level OptionValue) :
    Except LineFault Invocation := do
  let level ← finishLevel environment programPlans level
  if level.entries.isEmpty then .error .nothingGiven
  else .error .missingCommand

/-- Reads a command line, without the name of the program. -/
def read (environment : Environment) (arguments : List String) :
    Except LineFault Invocation := do
  let (outer, next) ←
    readArguments programPlans (commandNames ++ ["help"]) false .empty arguments
  match next with
  | none => withoutCommand environment outer
  | some ("help", rest) =>
      .error (readHelp (commandNames ++ ["help"]) rest)
  | some (name, rest) => do
      let (inner, command) ← readCommand environment name rest
      let outer ← closeLevel environment programPlans outer
      .ok (invocationOf outer inner command)

end CommandLine

end PositionFeed
