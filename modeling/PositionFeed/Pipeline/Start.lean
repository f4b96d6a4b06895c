import PositionFeed.Bus.Intake
import PositionFeed.Channel.Basic
import PositionFeed.Producer.Basic
import PositionFeed.Schedule.Loop

namespace PositionFeed

/-!
# Starting a pipeline

A pipeline has one source and any number of channels around one cache.  It is
built before anything runs: the channels in their order, each first its rate
and then its outlet, and the source last.  The first step that fails ends the
start, and the push servers that were built until then are stopped.
-/

/-- A channel that runs. -/
structure RunningChannel where
  /-- Its configured rate. -/
  rate : Float
  /-- What makes it tick. -/
  loop : Loop
  /-- What ticks. -/
  channel : Channel
  /-- The sample that its outlet has not answered for yet. -/
  inFlight : Option Sample

/-- What feeds the cache. -/
inductive Source where
  /-- A producer and what makes it tick. -/
  | producer (loop : Loop) (producer : Producer)
  /-- An intake and the address it listens on. -/
  | intake (address : SocketAddress) (intake : Intake)

/-- A pipeline that runs. -/
structure Pipeline where
  /-- What it was configured as. -/
  role : Role
  cache : Cache
  signal : StopSignal
  tokens : Tokens
  /-- What feeds the cache. -/
  source : Source
  /-- The channels, in the order of their configuration. -/
  channels : List RunningChannel

/-- Why a pipeline did not start. -/
inductive StartFault where
  /-- A rate that nothing can tick at. -/
  | rate (defect : RateDefect)
  /-- A channel that could not be set up. -/
  | channel (name : String) (reason : SetupFault)
  /-- An address to listen on that is none. -/
  | listenAddress (value : String)
  /-- An address that cannot be listened on. -/
  | listen (reason : SetupFault)
  /-- A socket that listens and does not say where. -/
  | whereabouts (reason : SystemFault)
  deriving Repr, DecidableEq

/-- What a start does that outlives it. -/
inductive StartAction where
  /-- A channel was built, perhaps with a server that the token stops. -/
  | built (channel : String) (token : Option Token)
  /-- A server was stopped. -/
  | stopped (token : Token)
  /-- The source began to run. -/
  | sourceRuns
  /-- A channel began to run. -/
  | channelRuns (channel : String)
  deriving Repr, DecidableEq

/-- The faults that a setup fault names, the outermost first. -/
def SetupFault.chain (reason : SetupFault) : List String :=
  reason.message ::
    match reason with
    | .creation .. => []
    | .bind _ cause => [cause.message]
    | .system cause => [cause.message]

/-- The faults that a failed start names, the outermost first. -/
def StartFault.chain : StartFault → List String
  | .rate defect => [defect.message]
  | .channel name reason =>
      ("Failed to start channel '" ++ name ++ "'") :: reason.chain
  | .listenAddress value =>
      ["Invalid listen address '" ++ value ++ "'", SocketAddress.syntaxMessage]
  | .listen reason => "Failed to start bus listener" :: reason.chain
  | .whereabouts reason => [reason.message]

/-- A channel that was built and does not run yet. -/
structure BuiltChannel where
  /-- Its configured rate. -/
  rate : Float
  ticker : Ticker
  /-- What will tick. -/
  channel : Channel

namespace Start

/-- How far a start has come. -/
structure Progress where
  /-- The channels built so far. -/
  channels : List BuiltChannel
  tokens : Tokens
  /-- What the start has done. -/
  actions : List StartAction
  /-- What was to be seen of it. -/
  events : List Event

/-- The token that stops the server of a channel, if it has one. -/
def tokenOf (channel : Channel) : Option Token :=
  match channel.outlet with
  | .push outlet => some outlet.server.token
  | _ => none

def buildChannel (network : Network) (root : Token) (plan : ChannelPlan)
    (progress : Progress) : Except StartFault Progress :=
  match Ticker.ofRate plan.name plan.rate with
  | .error defect => .error (.rate defect)
  | .ok ticker =>
      match Channel.create network plan root progress.tokens with
      | .error reason => .error (.channel plan.name reason)
      | .ok (channel, tokens, events) =>
          .ok {
            channels := progress.channels ++ [⟨plan.rate, ticker, channel⟩]
            tokens := tokens
            actions :=
              progress.actions ++ [.built plan.name (tokenOf channel)]
            events := progress.events ++ events }

/-- Builds channels in order.  The operating system's answers may differ from
channel to channel; they are given by how many channels were built before. -/
def buildChannels (networks : Nat → Network) (root : Token) :
    List ChannelPlan → Progress → Progress × Option StartFault
  | [], progress => (progress, none)
  | plan :: rest, progress =>
      match buildChannel (networks progress.channels.length) root plan
        progress with
      | .error fault => (progress, some fault)
      | .ok progress => buildChannels networks root rest progress

/-- Binds the socket that a subscriber listens on, and returns what was to be
seen as well.  The socket is asked once more where it is, to remember it. -/
def buildIntake (network : Network) (format : WireFormat)
    (address : SocketAddress) : Except StartFault Source × List Event :=
  match network.listenFault? address with
  | some reason => (.error (.listen reason), [])
  | none =>
      (match network.locate 1 address with
        | some reason => .error (.whereabouts reason)
        | none => .ok (.intake address (Intake.begin format)),
        [.notice .listenerBound])

def buildSource (network : Network) (blueprint : Blueprint) :
    Except StartFault Source × List Event :=
  match blueprint.role with
  | .publisher =>
      match Ticker.ofRate Producer.name blueprint.producer.rate with
      | .error defect => (.error (.rate defect), [])
      | .ok ticker =>
          (.ok (.producer (Loop.begin ticker Producer.name .origin)
            (Producer.begin blueprint.trajectory blueprint.producer.logEvery)),
            [])
  | .subscriber =>
      let value := blueprint.intake.listenAddress
      match SocketAddress.read? value with
      | none => (.error (.listenAddress value), [])
      | some address => buildIntake network blueprint.intake.format address

/-- What is to be seen when a source begins to run. -/
def sourceEvents : Source → List Event
  | .producer loop _ => loop.beginEvents
  | .intake .. => []

/-- Sets a channel running. -/
def runChannel (built : BuiltChannel) : RunningChannel where
  rate := built.rate
  loop := Loop.begin built.ticker built.channel.distributor.name .origin
  channel := built.channel
  inFlight := none

/-- The tokens of the servers that were built. -/
def serverTokens (progress : Progress) : List Token :=
  progress.channels.filterMap fun built => tokenOf built.channel

/-- Stops every server that was built. -/
def undo (progress : Progress) : Progress :=
  { progress with
    tokens := (serverTokens progress).foldl (fun tokens token =>
      tokens.cancel token) progress.tokens
    actions := progress.actions ++ (serverTokens progress).map .stopped }

end Start

/-- What a start comes to: a pipeline or a fault, the tokens, what was done and
what was to be seen. -/
structure Started where
  /-- The pipeline, or why there is none. -/
  result : Except StartFault Pipeline
  tokens : Tokens
  /-- What was done. -/
  actions : List StartAction
  /-- What was to be seen. -/
  events : List Event

open Start in
/-- Starts a pipeline.  The operating system's answers are given for every
channel by its position, and for the source by the number of channels. -/
def Pipeline.start (networks : Nat → Network) (blueprint : Blueprint) :
    Started :=
  let (signal, tokens) := StopSignal.fresh .empty
  let plans := blueprint.effectiveChannels
  let failed (progress : Progress) (fault : StartFault) : Started :=
    let progress := undo progress
    ⟨.error fault, progress.tokens, progress.actions, progress.events⟩
  let (progress, failure) :=
    buildChannels networks signal.token plans ⟨[], tokens, [], []⟩
  match failure with
  | some fault => failed progress fault
  | none =>
      let (source, seen) := buildSource (networks plans.length) blueprint
      let progress := { progress with events := progress.events ++ seen }
      match source with
      | .error fault => failed progress fault
      | .ok source =>
          let channels := progress.channels.map runChannel
          { result := .ok {
              role := blueprint.role
              cache := .empty
              signal := signal
              tokens := progress.tokens
              source := source
              channels := channels }
            tokens := progress.tokens
            actions := progress.actions ++ .sourceRuns ::
              channels.map fun running =>
                .channelRuns running.channel.distributor.name
            events := progress.events ++ sourceEvents source ++
              channels.flatMap fun running => running.loop.beginEvents }

end PositionFeed
