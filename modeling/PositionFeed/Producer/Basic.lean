import PositionFeed.Cache
import PositionFeed.Producer.Walk
import PositionFeed.Telemetry.Notice

namespace PositionFeed

/-!
# The producer

At every tick the producer takes the next position of its walk and puts it into
the cache.  It logs its progress after every so many ticks.
-/

/-- The task that feeds the cache of a publisher. -/
structure Producer where
  walk : Walk
  /-- After how many ticks it logs its progress, at least one. -/
  logEvery : Nat
  /-- Its ticks so far. -/
  ticks : Nat

namespace Producer

/-- The name of the task. -/
def name : String := "producer"

/-- The producer before its first tick. -/
def begin (trajectory : Trajectory) (logEvery : Nat) : Producer where
  walk := Walk.begin trajectory
  logEvery := max logEvery 1
  ticks := 0

/-- What a tick that stored the given sample leaves to be seen. -/
def events (producer : Producer) (sample : Sample) : List Event :=
  .measure (.sampleProduced sample.sequence) ::
    if (producer.ticks + 1) % producer.logEvery = 0 then
      [.notice (.sampleProduced sample.sequence)]
    else []

/-- One tick at the given time: the producer and the cache after it, and what
is to be seen of it. -/
def tick (wave : Wave) (now : Int64) (producer : Producer) (cache : Cache) :
    Producer × Cache × List Event :=
  let position := producer.walk.position wave now
  ({ producer with
      walk := producer.walk.advance
      ticks := producer.ticks + 1 },
    cache.update position,
    producer.events (cache.nextSample position))

end Producer

end PositionFeed
