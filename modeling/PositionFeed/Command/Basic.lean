import PositionFeed.Command.Explanation
import PositionFeed.Command.Failure
import PositionFeed.Command.Invocation
import PositionFeed.Command.Verdict
import PositionFeed.Pipeline.Rehearsal

namespace PositionFeed

/-!
# Commands

A command reads at most one configuration file, may replace some of its
settings, and leaves lines of output and perhaps a failure.  A run checks the
blueprint again once its settings are replaced, so what starts always keeps the
rules.
-/

/-- What the operating system answers when files are to be read. -/
abbrev Files := String → FileAnswer

/-- What a command leaves. -/
structure Outcome where
  /-- The lines of output. -/
  output : List String
  failure : Option CommandFailure

/-- An outcome without a failure. -/
def Outcome.success (output : List String) : Outcome := ⟨output, none⟩

/-- An outcome that is nothing but a failure. -/
def Outcome.failed (failure : CommandFailure) : Outcome := ⟨[], some failure⟩

/-- Loads the blueprint of a file, or the default one if no file is named. -/
def Blueprint.ofFile (files : Files) :
    Option String → Except CommandFailure Blueprint
  | none => .ok .default
  | some path =>
      if files path = .missing then .error (.missingFile path)
      else (Configuration.loadFile path (files path)).mapError
        (.unusableFile path)

/-- The blueprint with another role, if one is given. -/
def Blueprint.withRole (role : Option Role) (blueprint : Blueprint) :
    Blueprint :=
  { blueprint with role := role.getD blueprint.role }

/-- The blueprint with another rate of its producer, if one is given. -/
def Blueprint.withProducerRate (rate : Option Float) (blueprint : Blueprint) :
    Blueprint :=
  { blueprint with
    producer :=
      { blueprint.producer with rate := rate.getD blueprint.producer.rate } }

def RunOptions.blueprint (files : Files) (options : RunOptions) :
    Except CommandFailure Blueprint := do
  let loaded ← Blueprint.ofFile files options.configuration
  let blueprint :=
    (loaded.withRole options.role).withProducerRate options.producerRate
  (Configuration.check blueprint).mapError .overruled
  .ok blueprint

/-- What comes before anything runs: the blueprint, and measures are offered on
their port if one is named. -/
def RunOptions.prepare (files : Files) (offer : Nat → Bool)
    (options : RunOptions) : Except CommandFailure Blueprint := do
  let blueprint ← options.blueprint files
  if options.metricsPort ≠ 0 ∧ ¬ offer options.metricsPort then
    throw .noRecorder
  .ok blueprint

/-- Starts the pipeline of a blueprint. -/
def Blueprint.launch (networks : Nat → Network) (blueprint : Blueprint) :
    Except CommandFailure Pipeline :=
  (Pipeline.start networks blueprint).result.mapError .notStarted

/-- A run of a blueprint on a clock that jumps from deadline to deadline. -/
def RunOptions.rehearse (surroundings : Surroundings) (blueprint : Blueprint)
    (options : RunOptions) : Except CommandFailure (List String) := do
  if options.dryRun then return []
  let pipeline ← blueprint.launch fun _ => surroundings.network
  let duration := Span.ofSeconds options.duration
  .ok ((pipeline.rehearse surroundings duration).join duration).1.lines

/-- The outcome of a run that is rehearsed. -/
def RunOptions.outcome (files : Files) (offer : Nat → Bool)
    (surroundings : Surroundings) (options : RunOptions) : Outcome :=
  match (do
    let blueprint ← options.prepare files offer
    options.rehearse surroundings blueprint) with
  | .ok output => .success output
  | .error failure => .failed failure

def ValidateOptions.outcome (files : Files) (options : ValidateOptions) :
    Outcome :=
  let path := options.configuration
  let verdict := Verdict.ofFile path (files path)
  { output :=
      if options.json then [verdict.tree.toPretty] else verdict.lines
    failure := if verdict.isValid then none else some .foundInvalid }

/-- The outcome of an explanation. -/
def InfoOptions.outcome (files : Files) (options : InfoOptions) : Outcome :=
  match Blueprint.ofFile files options.configuration with
  | .error failure => .failed failure
  | .ok loaded =>
      let blueprint := loaded.withRole options.role
      .success
        (if options.json then [(Explanation.tree blueprint).toPretty]
        else Explanation.lines blueprint)

/-- The outcome of a command whose run is rehearsed. -/
def Command.outcome (files : Files) (offer : Nat → Bool)
    (surroundings : Surroundings) : Command → Outcome
  | .run options => options.outcome files offer surroundings
  | .validate options => options.outcome files
  | .info options => options.outcome files

/-- How the program ends. -/
structure Ending where
  /-- The exit code. -/
  code : Nat
  /-- The lines on standard output. -/
  output : List String
  /-- The lines on standard error. -/
  complaint : List String
  deriving Repr, DecidableEq

/-- The exit code of a command line that asks for no command. -/
def CommandLine.LineFault.exitCode : LineFault → Nat
  | .helpWanted => 0
  | .versionWanted => 0
  | _ => 2

/-- How the program ends after an outcome. -/
def Outcome.ending (outcome : Outcome) : Ending :=
  match outcome.failure with
  | none => ⟨0, outcome.output, []⟩
  | some failure => ⟨1, outcome.output, failure.complaint⟩

end PositionFeed
