import PositionFeed.Configuration

namespace PositionFeed

/-!
# Verdicts on configuration files

A verdict says whether a configuration file is accepted.  Of one that is, it
gives a summary and warns of what will work but may not be meant.
-/

/-- What may not be meant. -/
inductive Warning where
  /-- There are no channels, so those usual for the role are used. -/
  | usualChannels (role : Role)
  /-- A channel ticks faster than samples are produced. -/
  | fasterThanProducer (channel : String) (rate producerRate : Float)
  /-- A push channel hands samples on when nobody listens. -/
  | sendsToNobody (channel : String)
  deriving Repr, DecidableEq

/-- The wording of a warning. -/
def Warning.message : Warning → String
  | .usualChannels role =>
      "No channels configured - using the default " ++ role.name ++ " layout"
  | .fasterThanProducer channel rate producerRate =>
      "Channel '" ++ channel ++ "' ticks faster (" ++ plainNumber rate ++
        " Hz) than the producer (" ++ plainNumber producerRate ++
        " Hz); extra ticks will be stale"
  | .sendsToNobody channel =>
      "Channel '" ++ channel ++
        "' counts every tick without clients as a failed send"

/-- What may not be meant by a channel. -/
def ChannelPlan.warnings (producerRate : Float) (plan : ChannelPlan) :
    List Warning :=
  (if producerRate < plan.rate then
    [.fasterThanProducer plan.name plan.rate producerRate]
  else []) ++
  if plan.kind = .websocket ∧ plan.effectivePolicy = .always then
    [.sendsToNobody plan.name]
  else []

/-- What may not be meant by a blueprint. -/
def Blueprint.warnings (blueprint : Blueprint) : List Warning :=
  (if blueprint.channels.isEmpty then [.usualChannels blueprint.role]
  else []) ++
  blueprint.effectiveChannels.flatMap
    (ChannelPlan.warnings blueprint.producer.rate)

/-- What is found in a configuration file. -/
inductive Finding where
  /-- There is no such file. -/
  | missing
  /-- It is not accepted. -/
  | refused (defect : ConfigurationDefect)
  /-- It holds a blueprint that keeps the rules. -/
  | accepted (blueprint : Blueprint)

/-- A verdict on a configuration file. -/
structure Verdict where
  /-- The path of the file. -/
  path : String
  /-- What is found in it. -/
  finding : Finding

namespace Verdict

def ofFile (path : String) (file : FileAnswer) : Verdict where
  path := path
  finding :=
    if file = .missing then .missing
    else match Configuration.loadFile path file with
      | .ok blueprint => .accepted blueprint
      | .error defect => .refused defect

/-- Whether the file is accepted. -/
def isValid (verdict : Verdict) : Bool :=
  match verdict.finding with
  | .accepted _ => true
  | _ => false

/-- What is said of a file that is not accepted. -/
def error? (verdict : Verdict) : Option String :=
  match verdict.finding with
  | .missing => some ("File not found: " ++ verdict.path)
  | .refused defect => some defect.fault.message
  | .accepted _ => none

def warningLines : List Warning → List String
  | [] => []
  | warnings =>
      ["", "⚠ Warnings:"] ++ warnings.map fun warning =>
        "  - " ++ warning.message

def lines (verdict : Verdict) : List String :=
  match verdict.finding with
  | .accepted blueprint =>
      ["✓ Configuration is valid: " ++ verdict.path, "",
        "  Version: " ++ blueprint.version.name,
        "  Role: " ++ blueprint.role.name,
        "  Producer rate: " ++ plainNumber blueprint.producer.rate ++ " Hz",
        "  Channels: " ++ toString blueprint.effectiveChannels.length] ++
        warningLines blueprint.warnings
  | _ =>
      ("✗ Configuration is invalid: " ++ verdict.path) ::
        verdict.error?.toList.flatMap fun error => ["", "  Error: " ++ error]

def summaryTree (blueprint : Blueprint) : Json.Tree :=
  .object [
    ("version", .text blueprint.version.name),
    ("role", .text blueprint.role.name),
    ("producer_rate_hz", .number blueprint.producer.rate),
    ("channel_count", .integer blueprint.effectiveChannels.length)]

/-- The entries about what is found. -/
def findingEntries (verdict : Verdict) : List (String × Json.Tree) :=
  match verdict.finding with
  | .accepted blueprint =>
      (match blueprint.warnings with
        | [] => []
        | warnings =>
            [("warnings", .array (warnings.map (.text ·.message)))]) ++
        [("summary", summaryTree blueprint)]
  | _ => verdict.error?.toList.map fun error => ("error", .text error)

def tree (verdict : Verdict) : Json.Tree :=
  .object ([
    ("valid", .boolean verdict.isValid),
    ("config_path", .text verdict.path)] ++ verdict.findingEntries)

end Verdict

end PositionFeed
