import PositionFeed.Pipeline.Statistics

namespace PositionFeed

/-!
# Rehearsing a pipeline

A rehearsal runs a pipeline for a set time on a clock that jumps from one
deadline to the next.  Deadlines go off at whole milliseconds; of two that go
off together the source comes first, and then the channels in their order.
-/

/-- What surrounds a pipeline: the functions of its trajectory, the time of the
day and the operating system. -/
structure Surroundings where
  /-- The functions that trajectories are drawn with. -/
  wave : Wave
  /-- The time of the day, in milliseconds. -/
  clock : Int64
  /-- What the operating system says to sockets. -/
  network : Network

namespace Pipeline

/-- When a loop that sleeps goes on. -/
def wakeTime (loop : Loop) : Instant := loop.schedule.deadline.ceilMilli

/-- The earliest deadline among channels, with the position of its channel.
The first of them has the given position. -/
def nextChannel : Nat → List RunningChannel → Option (Instant × Nat)
  | _, [] => none
  | position, running :: rest =>
      let own := wakeTime running.loop
      match nextChannel (position + 1) rest with
      | none => some (own, position)
      | some next =>
          if next.1 < own then some next else some (own, position)

/-- The earliest deadline of the pipeline, and the position of its channel if
it is not the source's. -/
def nextDeadline (pipeline : Pipeline) : Option (Instant × Option Nat) :=
  let channel :=
    (nextChannel 0 pipeline.channels).map fun next => (next.1, some next.2)
  match pipeline.source, channel with
  | .intake .., _ => channel
  | .producer loop _, none => some (wakeTime loop, none)
  | .producer loop _, some next =>
      if next.1 < wakeTime loop then some next else some (wakeTime loop, none)

/-- The moves of a tick at the given time, of a channel or of the source. -/
def tickMoves (surroundings : Surroundings) (now : Instant) :
    Option Nat → List PipelineMove
  | none =>
      [.source now surroundings.clock, .source now surroundings.clock]
  | some position =>
      let poll : PipelineMove :=
        .channel position now surroundings.clock surroundings.network false
      [poll, poll]

/-- Ticks at most so often before an instant. -/
def tickUntil (surroundings : Surroundings) (finish : Instant) :
    Nat → Pipeline → Pipeline
  | 0, pipeline => pipeline
  | fuel + 1, pipeline =>
      match pipeline.nextDeadline with
      | none => pipeline
      | some (wake, position) =>
          if finish ≤ wake then pipeline
          else
            tickUntil surroundings finish fuel
              (pipeline.moves surroundings.wave
                (tickMoves surroundings wake position)).1

/-- The moves with which a pipeline ends. -/
def endMoves (surroundings : Surroundings) (now : Instant) (channels : Nat) :
    List PipelineMove :=
  .stop :: .source now surroundings.clock ::
    (List.range channels).map fun position =>
      .channel position now surroundings.clock surroundings.network false

/-- Enough ticks for so long a run: no loop ticks more than four times in one
millisecond. -/
def enough (pipeline : Pipeline) (duration : Span) : Nat :=
  (pipeline.channels.length + 1) * (4 * (duration.nanos / Span.perMilli) + 8)

/-- Runs a pipeline that was just started for a set time and stops it. -/
def rehearse (surroundings : Surroundings) (duration : Span)
    (pipeline : Pipeline) : Pipeline :=
  let finish := Instant.origin.after duration
  let pipeline :=
    tickUntil surroundings finish (pipeline.enough duration) pipeline
  (pipeline.moves surroundings.wave
    (endMoves surroundings finish pipeline.channels.length)).1

end Pipeline

end PositionFeed
