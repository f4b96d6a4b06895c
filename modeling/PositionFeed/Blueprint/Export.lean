import PositionFeed.Blueprint.Basic
import PositionFeed.Json.Writer
import PositionFeed.Toml.Writer

namespace PositionFeed

/-!
# Blueprints as text

Every field of a blueprint is written, also where it has its default value.
Only a channel that names no policy is written without one.  The parameters of a
channel may be written in any order; without a word about it they are written in
the order of their keys.
-/

/-- The order in which the parameters of channels are written. -/
abbrev ParameterOrder := ChannelPlan → List (String × String)

/-- In the order of their keys. -/
def ParameterOrder.byKey : ParameterOrder := fun plan => plan.parameters.entries

namespace Blueprint

/-- The parameters of a channel in JSON. -/
def parametersTree (entries : List (String × String)) : Json.Tree :=
  .object (entries.map fun entry => (entry.1, .text entry.2))

def channelTree (order : ParameterOrder) (plan : ChannelPlan) : Json.Tree :=
  .object ([("name", .text plan.name), ("kind", .text plan.kind.name),
      ("rate_hz", .number plan.rate)] ++
    (match plan.policy with
    | some policy => [("policy", .text policy.name)]
    | none => []) ++
    [("params", parametersTree (order plan))])

def tree (order : ParameterOrder) (blueprint : Blueprint) : Json.Tree :=
  .object [("version", .text blueprint.version.name),
    ("role", .text blueprint.role.name),
    ("producer", .object [("rate_hz", .number blueprint.producer.rate),
      ("log_every", .integer blueprint.producer.logEvery)]),
    ("trajectory", .object [
      ("center_lon", .number blueprint.trajectory.centreLongitude),
      ("center_lat", .number blueprint.trajectory.centreLatitude),
      ("amplitude", .number blueprint.trajectory.amplitude),
      ("angular_step", .number blueprint.trajectory.angularStep)]),
    ("subscriber", .object [
      ("listen_addr", .text blueprint.intake.listenAddress),
      ("format", .text blueprint.intake.format.name)]),
    ("channels", .array (blueprint.channels.map (channelTree order)))]

def toJsonIn (order : ParameterOrder) (blueprint : Blueprint) : String :=
  (blueprint.tree order).toPretty

def toJson (blueprint : Blueprint) : String :=
  blueprint.toJsonIn .byKey

open Toml

def textLine (key value : String) : List Char :=
  writePair key (writeText value)

/-- A line with a key and a double. -/
def numberLine (key : String) (value : Float) : List Char :=
  writePair key (writeNumber value)

/-- An empty line and the head of a section. -/
def sectionHead (head : String) : List Char :=
  '\n' :: head.toList ++ ['\n']

/-- A channel in TOML: its own section and one for its parameters. -/
def channelText (order : ParameterOrder) (plan : ChannelPlan) : List Char :=
  sectionHead "[[channels]]" ++ textLine "name" plan.name ++
    textLine "kind" plan.kind.name ++ numberLine "rate_hz" plan.rate ++
    (match plan.policy with
    | some policy => textLine "policy" policy.name
    | none => []) ++
    sectionHead "[channels.params]" ++
    (order plan).flatMap fun entry => textLine entry.1 entry.2

def tomlText (order : ParameterOrder) (blueprint : Blueprint) : List Char :=
  textLine "version" blueprint.version.name ++
    textLine "role" blueprint.role.name ++
    (if blueprint.channels.isEmpty then writePair "channels" "[]".toList
    else []) ++
    sectionHead "[producer]" ++
    numberLine "rate_hz" blueprint.producer.rate ++
    writePair "log_every" (Decimal.digitText blueprint.producer.logEvery) ++
    sectionHead "[trajectory]" ++
    numberLine "center_lon" blueprint.trajectory.centreLongitude ++
    numberLine "center_lat" blueprint.trajectory.centreLatitude ++
    numberLine "amplitude" blueprint.trajectory.amplitude ++
    numberLine "angular_step" blueprint.trajectory.angularStep ++
    sectionHead "[subscriber]" ++
    textLine "listen_addr" blueprint.intake.listenAddress ++
    textLine "format" blueprint.intake.format.name ++
    blueprint.channels.flatMap (channelText order)

def toTomlIn (order : ParameterOrder) (blueprint : Blueprint) : String :=
  String.ofList (blueprint.tomlText order)

def toToml (blueprint : Blueprint) : String :=
  blueprint.toTomlIn .byKey

end Blueprint

end PositionFeed
