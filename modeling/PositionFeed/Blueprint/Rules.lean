import PositionFeed.Address
import PositionFeed.Blueprint.Basic
import PositionFeed.Decimal.Layout
import PositionFeed.Time.Span

namespace PositionFeed

/-!
# Rules for blueprints

A blueprint is checked in five groups of rules, one after the other: rates,
bounds of single fields, the trajectory, the channels that will run, and the
address of a subscriber.  The first broken rule is reported, except that the
bounds of single fields are reported together.
-/

/-- A broken rule. -/
inductive Violation where
  | rateNotPositive (field : String) (rate : Float)
  /-- A rate whose period is nothing or cannot be held. -/
  | rateWithoutPeriod (field : String) (rate : Float)
  /-- Channels without a name, by position, and a progress log after zero
  positions. -/
  | fieldBounds (nameless : List Nat) (logEveryZero : Bool)
  /-- A centre with an impossible longitude. -/
  | longitude (value : Float)
  /-- A centre with an impossible latitude. -/
  | latitude (value : Float)
  /-- A width that is negative or not finite. -/
  | amplitude (value : Float)
  /-- A step that is not finite. -/
  | angularStep
  /-- A channel without a name. -/
  | emptyName (index : Nat)
  /-- A second channel with one name. -/
  | duplicateName (name : String)
  /-- A channel without a parameter that its kind needs. -/
  | missingParameter (channel key : String)
  /-- A text that is no address, and the field where it stands. -/
  | invalidAddress (field value : String)
  /-- A format that does not exist. -/
  | unknownFormat (channel value : String)
  deriving Repr, DecidableEq

namespace Violation

/-- The line about channels without names. -/
def namelessLine (positions : List Nat) : String :=
  String.join (positions.map fun index =>
    s!"channels[{index}].name: Validation error: length")

/-- The lines about the bounds of single fields. -/
def boundLines (nameless : List Nat) (logEveryZero : Bool) : List String :=
  (if nameless.isEmpty then [] else [namelessLine nameless]) ++
    (if logEveryZero then ["producer.log_every: Validation error: range"]
    else [])

/-- The field that breaks a rule. -/
def field : Violation → String
  | .rateNotPositive field _ => field
  | .rateWithoutPeriod field _ => field
  | .fieldBounds .. => "blueprint"
  | .longitude _ => "trajectory.center_lon"
  | .latitude _ => "trajectory.center_lat"
  | .amplitude _ => "trajectory.amplitude"
  | .angularStep => "trajectory.angular_step"
  | .emptyName index => s!"channels[{index}].name"
  | .duplicateName name => "channels[name=" ++ name ++ "]"
  | .missingParameter channel key => "channels[" ++ channel ++ "].params." ++ key
  | .invalidAddress field _ => field
  | .unknownFormat channel _ => "channels[" ++ channel ++ "].params.format"

/-- What is wrong with the field. -/
def message : Violation → String
  | .rateNotPositive _ rate => "rate_hz must be > 0, got " ++ plainNumber rate
  | .rateWithoutPeriod _ rate =>
      "rate_hz " ++ plainNumber rate ++ " has no representable tick period"
  | .fieldBounds nameless logEveryZero =>
      "\n".intercalate (boundLines nameless logEveryZero)
  | .longitude value =>
      "longitude must be within [-180, 180], got " ++ plainNumber value
  | .latitude value =>
      "latitude must be within [-90, 90], got " ++ plainNumber value
  | .amplitude value =>
      "amplitude must be finite and >= 0, got " ++ plainNumber value
  | .angularStep => "angular_step must be finite"
  | .emptyName _ => "channel name cannot be empty"
  | .duplicateName _ => "duplicate channel name"
  | .missingParameter _ key => "missing '" ++ key ++ "'"
  | .invalidAddress _ value =>
      "invalid address '" ++ value ++ "': " ++ SocketAddress.syntaxMessage
  | .unknownFormat _ value => "unknown format '" ++ value ++ "'"

end Violation

namespace Rules

/-- The outcome of a check. -/
abbrev Check := Except Violation Unit

/-- A rate must be a positive number with a period that can be held and is not
nothing. -/
def rate (field : String) (value : Float) : Check :=
  if ¬ isPositiveRate value then .error (.rateNotPositive field value)
  else match Span.ofRate? value with
    | some period =>
        if period.nanos = 0 then .error (.rateWithoutPeriod field value)
        else .ok ()
    | none => .error (.rateWithoutPeriod field value)

/-- The rates of channels in order. -/
def channelRates : List ChannelPlan → Check
  | [] => .ok ()
  | plan :: rest => do
      rate ("channels[" ++ plan.name ++ "].rate_hz") plan.rate
      channelRates rest

/-- Every rate is one that can be kept. -/
def rates (blueprint : Blueprint) : Check := do
  rate "producer.rate_hz" blueprint.producer.rate
  channelRates blueprint.channels

/-- The positions of the channels without names. -/
def namelessFrom : Nat → List ChannelPlan → List Nat
  | _, [] => []
  | index, plan :: rest =>
      if plan.name = "" then index :: namelessFrom (index + 1) rest
      else namelessFrom (index + 1) rest

/-- Configured channels have names, and progress is logged after at least one
position. -/
def fieldBounds (blueprint : Blueprint) : Check :=
  let nameless := namelessFrom 0 blueprint.channels
  let logEveryZero := blueprint.producer.logEvery == 0
  if nameless.isEmpty ∧ ¬ logEveryZero then .ok ()
  else .error (.fieldBounds nameless logEveryZero)

/-- Whether a number lies between two bounds. -/
def within (least greatest value : Float) : Bool :=
  least ≤ value && value ≤ greatest

/-- The trajectory has a place on the map and finite measures. -/
def trajectory (blueprint : Blueprint) : Check :=
  let shape := blueprint.trajectory
  if ¬ within (-180.0) 180.0 shape.centreLongitude then
    .error (.longitude shape.centreLongitude)
  else if ¬ within (-90.0) 90.0 shape.centreLatitude then
    .error (.latitude shape.centreLatitude)
  else if ¬ shape.amplitude.isFinite ∨ shape.amplitude < 0.0 then
    .error (.amplitude shape.amplitude)
  else if ¬ shape.angularStep.isFinite then .error .angularStep
  else .ok ()

/-- A text must be an address. -/
def address (field value : String) : Check :=
  match SocketAddress.read? value with
  | some _ => .ok ()
  | none => .error (.invalidAddress field value)

/-- The parameter that a kind of channel cannot do without. -/
def neededParameter : ChannelKind → Option String
  | .bus => some "addr"
  | .websocket => some "bind"
  | .log => none

/-- A channel has the address that its kind needs. -/
def channelAddress (plan : ChannelPlan) : Check :=
  match neededParameter plan.kind with
  | none => .ok ()
  | some key =>
      match plan.parameters.get? key with
      | none => .error (.missingParameter plan.name key)
      | some value =>
          address ("channels[" ++ plan.name ++ "].params." ++ key) value

/-- A format that a channel names exists. -/
def channelFormat (plan : ChannelPlan) : Check :=
  match plan.parameters.get? "format" with
  | none => .ok ()
  | some value =>
      match WireFormat.ofParameter? value with
      | some _ => .ok ()
      | none => .error (.unknownFormat plan.name value)

/-- Channels have distinct names and usable parameters.  The names seen so far
and the position of the first channel are given. -/
def channelsFrom : Nat → List String → List ChannelPlan → Check
  | _, _, [] => .ok ()
  | index, seen, plan :: rest => do
      if plan.name = "" then throw (.emptyName index)
      if plan.name ∈ seen then throw (.duplicateName plan.name)
      channelAddress plan
      channelFormat plan
      channelsFrom (index + 1) (plan.name :: seen) rest

/-- The channels that will run are well formed. -/
def channels (blueprint : Blueprint) : Check :=
  channelsFrom 0 [] blueprint.effectiveChannels

/-- A subscriber has an address to listen on. -/
def intake (blueprint : Blueprint) : Check :=
  match blueprint.role with
  | .publisher => .ok ()
  | .subscriber =>
      address "subscriber.listen_addr" blueprint.intake.listenAddress

end Rules

/-- Checks a blueprint against all rules. -/
def Blueprint.validate (blueprint : Blueprint) : Except Violation Unit := do
  Rules.rates blueprint
  Rules.fieldBounds blueprint
  Rules.trajectory blueprint
  Rules.channels blueprint
  Rules.intake blueprint

end PositionFeed
