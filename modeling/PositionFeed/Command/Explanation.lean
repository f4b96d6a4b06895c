import PositionFeed.Blueprint.Export

namespace PositionFeed

/-!
# Explanations

An explanation shows what a blueprint means: its source as its role has it, and
its channels with all that they leave to their kinds.
-/

namespace Explanation

/-- A double as explanations write it. -/
def number (value : Float) : String := plainNumber value

/-- The lines about the source. -/
def sourceLines (blueprint : Blueprint) : List String :=
  let producer := blueprint.producer
  let trajectory := blueprint.trajectory
  let intake := blueprint.intake
  match blueprint.role with
  | .publisher =>
      ["", "Producer:",
        "  Rate: " ++ number producer.rate ++ " Hz (log every " ++
          toString producer.logEvery ++ " samples)",
        "  Trajectory: centre (" ++ number trajectory.centreLongitude ++ ", " ++
          number trajectory.centreLatitude ++ "), amplitude " ++
          number trajectory.amplitude ++ ", step " ++
          number trajectory.angularStep ++ " rad"]
  | .subscriber =>
      ["", "Subscriber:",
        "  Listen: " ++ intake.listenAddress ++ " (" ++ intake.format.name ++
          ")"]

/-- The lines about a channel. -/
def channelLines (plan : ChannelPlan) : List String :=
  ("  - " ++ plan.name ++ " (" ++ plan.kind.name ++ ") @ " ++
      number plan.rate ++ " Hz, policy " ++ plan.effectivePolicy.title) ::
    plan.parameters.entries.map fun entry =>
      "      " ++ entry.1 ++ " = " ++ entry.2

def lines (blueprint : Blueprint) : List String :=
  let channels := blueprint.effectiveChannels
  ["", "=== Pipeline Configuration ===", "",
    "Version: " ++ blueprint.version.name, "Role: " ++ blueprint.role.name] ++
    sourceLines blueprint ++
    ["", "Channels (" ++ toString channels.length ++ "):"] ++
    channels.flatMap channelLines ++ [""]

/-- The entry about the source. -/
def sourceEntry (blueprint : Blueprint) : String × Json.Tree :=
  let producer := blueprint.producer
  let trajectory := blueprint.trajectory
  let intake := blueprint.intake
  match blueprint.role with
  | .publisher =>
      ("producer", .object [
        ("rate_hz", .number producer.rate),
        ("log_every", .integer producer.logEvery),
        ("center_lon", .number trajectory.centreLongitude),
        ("center_lat", .number trajectory.centreLatitude),
        ("amplitude", .number trajectory.amplitude),
        ("angular_step", .number trajectory.angularStep)])
  | .subscriber =>
      ("subscriber", .object [
        ("listen_addr", .text intake.listenAddress),
        ("format", .text intake.format.name)])

/-- A channel.  Its parameters are left out if it has none. -/
def channelTree (plan : ChannelPlan) : Json.Tree :=
  .object ([
    ("name", .text plan.name),
    ("kind", .text plan.kind.name),
    ("rate_hz", .number plan.rate),
    ("policy", .text plan.effectivePolicy.title)] ++
    if plan.parameters.entries.isEmpty then []
    else [("params", Blueprint.parametersTree plan.parameters.entries)])

def tree (blueprint : Blueprint) : Json.Tree :=
  .object [
    ("version", .text blueprint.version.name),
    ("role", .text blueprint.role.name),
    sourceEntry blueprint,
    ("channels", .array (blueprint.effectiveChannels.map channelTree))]

end Explanation

end PositionFeed
