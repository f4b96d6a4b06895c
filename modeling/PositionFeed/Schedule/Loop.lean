import PositionFeed.Fault
import PositionFeed.Schedule.Deadline
import PositionFeed.Telemetry.Notice

namespace PositionFeed

/-!
# The loop that ticks

A loop sleeps until its deadline, counts a tick and runs its task.  It is a
machine that moves when it is polled, and a poll always looks at the stop
signal first: a loop that sees the signal ends, whether its deadline has passed
or its task has not finished.  A task that finishes during the poll in which it
raises the signal itself is still counted with its result.

Results of the task are counted and logged.  They do not touch the schedule.
-/

/-- What a loop counts. -/
structure ScheduleCounts where
  /-- Ticks, also one that was cut off. -/
  ticks : Nat
  /-- Ticks whose task failed. -/
  failed : Nat
  /-- Deadlines given up. -/
  resyncs : Nat
  deriving Repr, DecidableEq

/-- The counts of a loop that has not ticked. -/
def ScheduleCounts.zero : ScheduleCounts := ⟨0, 0, 0⟩

/-- Where a loop is. -/
inductive LoopPhase where
  /-- It waits for its deadline. -/
  | sleeping
  /-- It has counted a tick and has not begun its task. -/
  | due
  /-- Its task has begun and has not finished. -/
  | working
  /-- It has seen the stop signal. -/
  | ended
  deriving Repr, DecidableEq

/-- A loop between two polls. -/
structure Loop where
  ticker : Ticker
  /-- The name of its task. -/
  task : String
  /-- Its deadlines. -/
  schedule : Schedule
  counts : ScheduleCounts
  phase : LoopPhase
  deriving Repr, DecidableEq

/-- What the task answers when it is polled. -/
inductive TaskAnswer where
  /-- It has to wait. -/
  | pending
  | finished (result : Except Fault Unit)

/-- What a loop finds when it is polled. -/
structure Poll where
  /-- Whether the stop signal is there. -/
  stopped : Bool
  /-- The time. -/
  now : Instant
  /-- What the task answers if it is asked. -/
  answer : TaskAnswer

/-- What happens in a loop. -/
inductive Happening where
  /-- A tick was counted. -/
  | counted (time : Instant)
  /-- The task of a tick began. -/
  | began (time : Instant)
  /-- The task of a tick finished. -/
  | finished (time : Instant) (result : Except Fault Unit)
  /-- A deadline was given up that was so far behind. -/
  | resynced (lag : Span)
  /-- A tick was cut off. -/
  | cutOff (time : Instant)
  | ended (time : Instant)

namespace Loop

/-- The loop before its first poll. -/
def begin (ticker : Ticker) (task : String) (start : Instant) : Loop where
  ticker := ticker
  task := task
  schedule := Schedule.begin ticker.period start
  counts := .zero
  phase := .sleeping

/-- The loop before its first poll, if a clock can hold its first deadline. -/
def begin? (ticker : Ticker) (task : String) (start : Instant) :
    Except ClockOverflow Loop := do
  let _ ← Schedule.begin? ticker.period start
  .ok (begin ticker task start)

/-- The counts after a task finished. -/
def countResult (counts : ScheduleCounts) (result : Except Fault Unit)
    (lag : Option Span) : ScheduleCounts where
  ticks := counts.ticks
  failed := match result with
    | .ok () => counts.failed
    | .error _ => counts.failed + 1
  resyncs := match lag with
    | some _ => counts.resyncs + 1
    | none => counts.resyncs

/-- The loop after its task finished. -/
def finish (loop : Loop) (now : Instant) (result : Except Fault Unit) : Loop :=
  { loop with
    schedule := loop.schedule.advance now
    counts := countResult loop.counts result (loop.schedule.lag? now)
    phase := .sleeping }

/-- What happens when the task finishes. -/
def finishHappenings (loop : Loop) (now : Instant)
    (result : Except Fault Unit) : List Happening :=
  .finished now result ::
    match loop.schedule.lag? now with
    | some lag => [.resynced lag]
    | none => []

def pollTask (loop : Loop) (now : Instant) :
    TaskAnswer → Loop × List Happening
  | .pending => ({ loop with phase := .working }, [])
  | .finished result =>
      (loop.finish now result, loop.finishHappenings now result)

def poll (loop : Loop) (found : Poll) : Loop × List Happening :=
  match loop.phase with
  | .ended => (loop, [])
  | .sleeping =>
      if found.stopped then
        ({ loop with phase := .ended }, [.ended found.now])
      else if loop.schedule.deadline ≤ found.now then
        ({ loop with
            counts := { loop.counts with ticks := loop.counts.ticks + 1 }
            phase := .due },
          [.counted found.now])
      else (loop, [])
  | .due =>
      if found.stopped then
        ({ loop with phase := .ended },
          [.cutOff found.now, .ended found.now])
      else
        let (loop, happenings) := loop.pollTask found.now found.answer
        (loop, .began found.now :: happenings)
  | .working =>
      if found.stopped then
        ({ loop with phase := .ended },
          [.cutOff found.now, .ended found.now])
      else loop.pollTask found.now found.answer

/-- Polls the loop again and again. -/
def run (loop : Loop) : List Poll → Loop × List Happening
  | [] => (loop, [])
  | found :: rest =>
      let (loop, happenings) := loop.poll found
      let (loop, later) := loop.run rest
      (loop, happenings ++ later)

/-- What is to be seen when a loop begins. -/
def beginEvents (loop : Loop) : List Event :=
  [.notice (.schedulerStarted loop.ticker.period.micros)]

/-- What is to be seen of a happening in a loop that then has these counts. -/
def eventsOf (loop : Loop) : Happening → List Event
  | .finished _ (.error _) =>
      [.measure (.tickFailure loop.task), .notice .tickFailed]
  | .resynced lag =>
      [.measure (.resync loop.ticker.name lag.toMillis), .notice .scheduleReset]
  | .ended _ => [.notice (.schedulerStopped loop.counts.ticks)]
  | _ => []

end Loop

end PositionFeed
