import PositionFeed.Pipeline.Start

namespace PositionFeed

/-!
# A running pipeline

A pipeline moves when one of its loops is polled, when a datagram comes in, when
something happens to a push server, or when it is stopped.  The outlet of a
channel may keep a sample waiting; the tick then goes on at a later poll, unless
the stop signal comes first and cuts it off.
-/

/-- What a channel finds when it is polled. -/
structure ChannelPoll where
  /-- Whether the stop signal is there. -/
  stopped : Bool
  /-- The time of the loops. -/
  now : Instant
  /-- The time of the day, in milliseconds. -/
  clock : Int64
  /-- What the operating system says to sockets. -/
  network : Network
  /-- Whether the outlet keeps a sample waiting. -/
  waits : Bool

namespace RunningChannel

/-- Polls the loop alone. -/
def pollLoop (running : RunningChannel) (found : ChannelPoll)
    (answer : TaskAnswer) : RunningChannel × List Event :=
  let (loop, happenings) :=
    running.loop.poll ⟨found.stopped, found.now, answer⟩
  ({ running with loop := loop }, happenings.flatMap loop.eventsOf)

/-- Carries out what a tick found to do, or keeps its sample waiting. -/
def work (running : RunningChannel) (found : ChannelPoll)
    (decision : Decision) : RunningChannel × List Event :=
  match decision, found.waits with
  | .handOff sample, true =>
      { running with inFlight := some sample }.pollLoop found .pending
  | _, _ =>
      let (channel, result, events) :=
        running.channel.carryOut found.network found.clock decision
      let (running, later) :=
        { running with channel := channel, inFlight := none }.pollLoop found
          (.finished (result.map fun _ => ()))
      (running, events ++ later)

def poll (running : RunningChannel) (cache : Cache) (found : ChannelPoll) :
    RunningChannel × List Event :=
  if found.stopped then running.pollLoop found .pending
  else match running.loop.phase, running.inFlight with
    | .due, _ => running.work found (running.channel.decide cache)
    | .working, some sample => running.work found (.handOff sample)
    | _, _ => running.pollLoop found .pending

end RunningChannel

/-- What happens to a pipeline. -/
inductive PipelineMove where
  /-- Its source is polled. -/
  | source (now : Instant) (clock : Int64)
  /-- The channel at a position is polled. -/
  | channel (position : Nat) (now : Instant) (clock : Int64)
      (network : Network) (waits : Bool)
  /-- A datagram comes in. -/
  | datagram (bytes : List UInt8)
  /-- Something happens to the push server of the channel at a position. -/
  | server (position : Nat) (move : ServerMove)
  /-- It is asked to stop. -/
  | stop

namespace Pipeline

/-- Whether the stop signal was triggered. -/
def isStopping (pipeline : Pipeline) : Bool :=
  pipeline.signal.isTriggered pipeline.tokens

/-- Triggers the stop signal and says whether this was the first time. -/
def stop (pipeline : Pipeline) : Bool × Pipeline :=
  let (first, signal, tokens) := pipeline.signal.trigger pipeline.tokens
  (first, { pipeline with signal := signal, tokens := tokens })

def pollSource (pipeline : Pipeline) (wave : Wave) (now : Instant)
    (clock : Int64) : Pipeline × List Event :=
  match pipeline.source with
  | .intake .. => (pipeline, [])
  | .producer loop producer =>
      let stopped := pipeline.isStopping
      if loop.phase = .due ∧ ¬ stopped then
        let (producer, cache, events) :=
          producer.tick wave clock pipeline.cache
        let (loop, happenings) :=
          loop.poll ⟨stopped, now, .finished (.ok ())⟩
        ({ pipeline with cache := cache, source := .producer loop producer },
          events ++ happenings.flatMap loop.eventsOf)
      else
        let (loop, happenings) := loop.poll ⟨stopped, now, .pending⟩
        ({ pipeline with source := .producer loop producer },
          happenings.flatMap loop.eventsOf)

def pollChannel (pipeline : Pipeline) (position : Nat) (found : ChannelPoll) :
    Pipeline × List Event :=
  match pipeline.channels[position]? with
  | none => (pipeline, [])
  | some running =>
      let (running, events) := running.poll pipeline.cache found
      ({ pipeline with channels := pipeline.channels.set position running },
        events)

def takeDatagram (pipeline : Pipeline) (bytes : List UInt8) :
    Pipeline × List Event :=
  match pipeline.source with
  | .producer .. => (pipeline, [])
  | .intake address intake =>
      if pipeline.isStopping then (pipeline, [])
      else
        let (intake, cache, _, events) := intake.receive pipeline.cache bytes
        ({ pipeline with cache := cache, source := .intake address intake },
          events)

/-- The push servers, with the positions of their channels. -/
def servers (pipeline : Pipeline) : List (Nat × Server) :=
  pipeline.channels.zipIdx.filterMap fun item =>
    match item.1.channel.outlet with
    | .push outlet => some (item.2, outlet.server)
    | _ => none

/-- Moves the push server of the channel at a position. -/
def moveServer (pipeline : Pipeline) (position : Nat) (move : ServerMove) :
    Pipeline × List Event :=
  match pipeline.channels[position]? with
  | none => (pipeline, [])
  | some running =>
      match running.channel.outlet with
      | .push outlet =>
          let stopped := pipeline.tokens.isCancelled outlet.server.token
          let (server, events) := outlet.server.move stopped move
          let channel :=
            { running.channel with
              outlet := .push { outlet with server := server } }
          ({ pipeline with
              channels :=
                pipeline.channels.set position { running with channel := channel } },
            events)
      | _ => (pipeline, [])

def move (pipeline : Pipeline) (wave : Wave) :
    PipelineMove → Pipeline × List Event
  | .source now clock => pipeline.pollSource wave now clock
  | .channel position now clock network waits =>
      pipeline.pollChannel position
        ⟨pipeline.isStopping, now, clock, network, waits⟩
  | .datagram bytes => pipeline.takeDatagram bytes
  | .server position move => pipeline.moveServer position move
  | .stop => (pipeline.stop.2, [])

/-- The moves that push servers can make on their own, if they can make them. -/
def settling (pipeline : Pipeline) : List PipelineMove :=
  pipeline.servers.flatMap fun item => item.2.settling.map (.server item.1)

/-- The moves with which push servers give their connections up. -/
def givingUp (pipeline : Pipeline) : List PipelineMove :=
  pipeline.servers.flatMap fun item => item.2.givingUp.map (.server item.1)

/-- Whether every push server has stopped. -/
def isSettled (pipeline : Pipeline) : Bool :=
  pipeline.servers.all (·.2.phase == .stopped)

/-- The connection of a push server at a position. -/
def connection? (pipeline : Pipeline) (channel position : Nat) :
    Option Connection := do
  (← pipeline.servers.lookup channel).connections[position]?

/-- Makes moves one after the other. -/
def moves (pipeline : Pipeline) (wave : Wave) :
    List PipelineMove → Pipeline × List Event
  | [] => (pipeline, [])
  | next :: rest =>
      let (pipeline, events) := pipeline.move wave next
      let (pipeline, later) := pipeline.moves wave rest
      (pipeline, events ++ later)

end Pipeline

end PositionFeed
