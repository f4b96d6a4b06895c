import PositionFeed.Blueprint.Basic
import PositionFeed.Document.Schema

namespace PositionFeed

/-!
# Blueprints in documents

A blueprint is a record of six fields, none of which is required.  A field that
is absent has the value that it has in the default blueprint, and the same holds
inside each of its sections.  Only a channel has fields it cannot do without:
its name, its kind and its rate.
-/

open Schema

/-- Reads a name out of a list and looks up what it stands for. -/
def named (dialect : Dialect) (names : List String)
    (ofName? : String → Option α) (default : α) (node : Node) : Reading α :=
  (dialect.variant names node).map fun name => (ofName? name).getD default

def Version.decode (dialect : Dialect) : Node → Reading Version :=
  named dialect ["V1"] (fun _ => some .first) .first

def Role.decode (dialect : Dialect) : Node → Reading Role :=
  named dialect ["publisher", "subscriber"] Role.ofName? .publisher

def WireFormat.decode (dialect : Dialect) : Node → Reading WireFormat :=
  named dialect ["json", "bincode"] WireFormat.ofName? .json

def ChannelKind.decode (dialect : Dialect) : Node → Reading ChannelKind :=
  named dialect ["bus", "websocket", "log"] ChannelKind.ofName? .log

def ForwardPolicy.decode (dialect : Dialect) : Node → Reading ForwardPolicy :=
  named dialect ["always", "require_audience"] ForwardPolicy.ofName? .always

/-- Reads the producer section. -/
def ProducerPlan.decode (dialect : Dialect) (node : Node) :
    Reading ProducerPlan := do
  let present ← record dialect "ProducerConfig"
    [.of "rate_hz" false number, .of "log_every" false natural64] node
  let rate ← present.orDefault "rate_hz" number ProducerPlan.default.rate
  let logEvery ←
    present.orDefault "log_every" natural64 ProducerPlan.default.logEvery
  .ok ⟨rate, logEvery⟩

/-- Reads the trajectory section. -/
def Trajectory.decode (dialect : Dialect) (node : Node) :
    Reading Trajectory := do
  let present ← record dialect "TrajectoryConfig"
    [.of "center_lon" false number, .of "center_lat" false number,
      .of "amplitude" false number, .of "angular_step" false number] node
  let centreLongitude ←
    present.orDefault "center_lon" number Trajectory.default.centreLongitude
  let centreLatitude ←
    present.orDefault "center_lat" number Trajectory.default.centreLatitude
  let amplitude ←
    present.orDefault "amplitude" number Trajectory.default.amplitude
  let angularStep ←
    present.orDefault "angular_step" number Trajectory.default.angularStep
  .ok ⟨centreLongitude, centreLatitude, amplitude, angularStep⟩

/-- Reads the subscriber section. -/
def IntakePlan.decode (dialect : Dialect) (node : Node) :
    Reading IntakePlan := do
  let format := WireFormat.decode dialect
  let present ← record dialect "SubscriberConfig"
    [.of "listen_addr" false text, .of "format" false format] node
  let listenAddress ←
    present.orDefault "listen_addr" text IntakePlan.default.listenAddress
  let format ← present.orDefault "format" format IntakePlan.default.format
  .ok ⟨listenAddress, format⟩

def ChannelPlan.decode (dialect : Dialect) (node : Node) :
    Reading ChannelPlan := do
  let kind := ChannelKind.decode dialect
  let policy := optional (ForwardPolicy.decode dialect)
  let present ← record dialect "ChannelConfig"
    [.of "name" true text, .of "kind" true kind, .of "rate_hz" true number,
      .of "policy" false policy, .of "params" false textMap] node
  let name ← present.wanted "name" text
  let kind ← present.wanted "kind" kind
  let rate ← present.wanted "rate_hz" number
  let policy ← present.orDefault "policy" policy none
  let parameters ← present.orDefault "params" textMap []
  .ok ⟨name, kind, rate, policy, Parameters.ofList parameters⟩

def Blueprint.decode (dialect : Dialect) (node : Node) : Reading Blueprint := do
  let version := Version.decode dialect
  let role := Role.decode dialect
  let producer := ProducerPlan.decode dialect
  let trajectory := Trajectory.decode dialect
  let intake := IntakePlan.decode dialect
  let channels := sequence (ChannelPlan.decode dialect)
  let present ← record dialect "PipelineBlueprint"
    [.of "version" false version, .of "role" false role,
      .of "producer" false producer, .of "trajectory" false trajectory,
      .of "subscriber" false intake, .of "channels" false channels] node
  let version ← present.orDefault "version" version Blueprint.default.version
  let role ← present.orDefault "role" role Blueprint.default.role
  let producer ←
    present.orDefault "producer" producer Blueprint.default.producer
  let trajectory ←
    present.orDefault "trajectory" trajectory Blueprint.default.trajectory
  let intake ← present.orDefault "subscriber" intake Blueprint.default.intake
  let channels ←
    present.orDefault "channels" channels Blueprint.default.channels
  .ok ⟨version, role, producer, trajectory, intake, channels⟩

end PositionFeed
