import PositionFeed.Blueprint.Parameters
import PositionFeed.Text.Blank

namespace PositionFeed

/-!
# Blueprints

A blueprint says what one process of the feed does.  A publisher walks along a
trajectory and offers each position; a subscriber takes positions from the bus.
Either way every position is passed on over channels, each of which ticks at a
rate of its own.
-/

/-- The version of a configuration. -/
inductive Version where
  /-- The only version so far. -/
  | first
  deriving Repr, DecidableEq, Inhabited

/-- What feeds a process with positions. -/
inductive Role where
  /-- The process makes the positions itself. -/
  | publisher
  /-- The process receives the positions from the bus. -/
  | subscriber
  deriving Repr, DecidableEq, Inhabited

/-- How a record is written on the bus. -/
inductive WireFormat where
  | json
  /-- As bytes of fixed layout. -/
  | bincode
  deriving Repr, DecidableEq, Inhabited

/-- When a channel hands a position on. -/
inductive ForwardPolicy where
  /-- At every tick that finds a new position. -/
  | always
  /-- Only while somebody listens. -/
  | requireAudience
  deriving Repr, DecidableEq, Inhabited

/-- What a channel leads to. -/
inductive ChannelKind where
  /-- Datagrams to one address. -/
  | bus
  /-- Text frames to every connected client. -/
  | websocket
  | log
  deriving Repr, DecidableEq, Inhabited

/-- A channel as it is configured. -/
structure ChannelPlan where
  name : String
  /-- What it leads to. -/
  kind : ChannelKind
  /-- Its ticks per second. -/
  rate : Float
  /-- When it hands a position on; by its kind if absent. -/
  policy : Option ForwardPolicy
  /-- What else its kind needs to know. -/
  parameters : Parameters
  deriving DecidableEq

/-- How positions are produced. -/
structure ProducerPlan where
  /-- Positions per second. -/
  rate : Float
  /-- After how many positions the progress is logged. -/
  logEvery : Nat
  deriving DecidableEq

/-- The shape of the trajectory: a figure eight about a centre. -/
structure Trajectory where
  /-- The longitude of the centre, in degrees. -/
  centreLongitude : Float
  /-- The latitude of the centre, in degrees. -/
  centreLatitude : Float
  /-- Half the width of the figure, in degrees. -/
  amplitude : Float
  /-- The angle between two positions, in radians. -/
  angularStep : Float
  deriving DecidableEq

/-- Where a subscriber listens. -/
structure IntakePlan where
  /-- The address that datagrams are received on. -/
  listenAddress : String
  /-- The format of the datagrams. -/
  format : WireFormat
  deriving DecidableEq

/-- What one process does. -/
structure Blueprint where
  /-- The version of the configuration. -/
  version : Version
  /-- What feeds the process. -/
  role : Role
  producer : ProducerPlan
  /-- Where the positions lie. -/
  trajectory : Trajectory
  /-- Where positions are received. -/
  intake : IntakePlan
  /-- The channels; none means the usual ones for the role. -/
  channels : List ChannelPlan
  deriving DecidableEq

/-- The word for a version. -/
def Version.name : Version → String
  | .first => "V1"

/-- The word for a role. -/
def Role.name : Role → String
  | .publisher => "publisher"
  | .subscriber => "subscriber"

def Role.ofName? : String → Option Role
  | "publisher" => some .publisher
  | "subscriber" => some .subscriber
  | _ => none

/-- The word for a wire format. -/
def WireFormat.name : WireFormat → String
  | .json => "json"
  | .bincode => "bincode"

def WireFormat.ofName? : String → Option WireFormat
  | "json" => some .json
  | "bincode" => some .bincode
  | _ => none

/-- The wire format that a channel parameter names, in any case. -/
def WireFormat.ofParameter? (value : String) : Option WireFormat :=
  WireFormat.ofName? (Text.lowered value)

/-- The word for a forwarding policy in configurations. -/
def ForwardPolicy.name : ForwardPolicy → String
  | .always => "always"
  | .requireAudience => "require_audience"

/-- The word for a forwarding policy in reports. -/
def ForwardPolicy.title : ForwardPolicy → String
  | .always => "Always"
  | .requireAudience => "RequireAudience"

def ForwardPolicy.ofName? : String → Option ForwardPolicy
  | "always" => some .always
  | "require_audience" => some .requireAudience
  | _ => none

/-- The word for a kind of channel. -/
def ChannelKind.name : ChannelKind → String
  | .bus => "bus"
  | .websocket => "websocket"
  | .log => "log"

def ChannelKind.ofName? : String → Option ChannelKind
  | "bus" => some .bus
  | "websocket" => some .websocket
  | "log" => some .log
  | _ => none

/-- The policy of a channel that names none.  Only where clients come and go
does it depend on them. -/
def ChannelKind.defaultPolicy : ChannelKind → ForwardPolicy
  | .websocket => .requireAudience
  | .bus => .always
  | .log => .always

namespace ChannelPlan

/-- A channel without parameters and with the policy of its kind. -/
def plain (name : String) (kind : ChannelKind) (rate : Float) : ChannelPlan where
  name := name
  kind := kind
  rate := rate
  policy := none
  parameters := .empty

def withParameter (plan : ChannelPlan) (key value : String) : ChannelPlan :=
  { plan with parameters := plan.parameters.insert key value }

/-- The policy that a channel follows. -/
def effectivePolicy (plan : ChannelPlan) : ForwardPolicy :=
  plan.policy.getD plan.kind.defaultPolicy

end ChannelPlan

/-- How positions are produced unless configured otherwise. -/
def ProducerPlan.default : ProducerPlan where
  rate := 50.0
  logEvery := 100

/-- The usual trajectory. -/
def Trajectory.default : Trajectory where
  centreLongitude := 107.02243
  centreLatitude := 20.763
  amplitude := 0.05
  angularStep := 0.01

/-- Where a subscriber listens unless configured otherwise. -/
def IntakePlan.default : IntakePlan where
  listenAddress := "0.0.0.0:7400"
  format := .json

/-- The blueprint of an empty configuration. -/
def Blueprint.default : Blueprint where
  version := .first
  role := .publisher
  producer := .default
  trajectory := .default
  intake := .default
  channels := []

/-- The channels of a role that configures none. -/
def Role.usualChannels : Role → List ChannelPlan
  | .publisher =>
      [(ChannelPlan.plain "bus" .bus 20.0).withParameter "addr" "127.0.0.1:7400",
        (ChannelPlan.plain "websocket" .websocket 10.0).withParameter "bind"
          "0.0.0.0:8081"]
  | .subscriber =>
      [(ChannelPlan.plain "websocket" .websocket 10.0).withParameter "bind"
        "0.0.0.0:8082"]

/-- The channels that a process runs. -/
def Blueprint.effectiveChannels (blueprint : Blueprint) : List ChannelPlan :=
  if blueprint.channels.isEmpty then blueprint.role.usualChannels
  else blueprint.channels

end PositionFeed
