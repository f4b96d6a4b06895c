import PositionFeed.Schedule.Loop

namespace PositionFeed

/-!
# Rehearsals

A rehearsal runs a loop with a task that follows a plan, on a clock that jumps
from one timer to the next.  Timers go off at whole milliseconds.  The stop
signal comes at a set time, or from the task itself after so many ticks.
-/

/-- What the task does in one tick. -/
structure Chore where
  /-- How long it works. -/
  work : Span
  /-- The fault that it ends with, if any. -/
  fault : Option Fault

/-- A chore that takes no time and succeeds. -/
def Chore.none : Chore := ⟨⟨0⟩, Option.none⟩

/-- How a chore ends. -/
def Chore.result (chore : Chore) : Except Fault Unit :=
  match chore.fault with
  | some fault => .error fault
  | Option.none => .ok ()

/-- What a rehearsal follows. -/
structure Rehearsal where
  /-- The chores of the first ticks. -/
  plan : List Chore
  /-- The tick in which the task triggers the stop signal. -/
  stopAfter : Option Nat
  /-- The time at which somebody else triggers it. -/
  stopAt : Option Instant
  /-- Whether it was triggered before. -/
  stopped : Bool

/-- When a tick began and when it finished. -/
structure TickSpan where
  /-- Its beginning. -/
  start : Instant
  /-- Its end, unless it was cut off. -/
  finish : Option Instant
  deriving Repr, DecidableEq

/-- What a rehearsal shows. -/
structure Rehearsed where
  /-- The loop at the end. -/
  loop : Loop
  /-- The ticks, in order. -/
  ticks : List TickSpan
  /-- All that happened, in order. -/
  happenings : List Happening
  /-- The time at the end. -/
  time : Instant

namespace Rehearsal

/-- The later of two instants. -/
def later (first second : Instant) : Instant :=
  if first ≤ second then second else first

/-- Whether the stop signal comes from outside up to an instant. -/
def stopsBy (rehearsal : Rehearsal) (time : Instant) : Option Instant :=
  match rehearsal.stopAt with
  | some stop => if stop ≤ time then some stop else none
  | none => none

/-- The loop polled at the given times, and what happened. -/
def polled (loop : Loop) (polls : List Poll) (shown : Rehearsed) : Rehearsed :=
  let (loop, happenings) := loop.run polls
  { shown with loop := loop, happenings := shown.happenings ++ happenings }

/-- One tick that begins at the given time, and whether the task triggered the
stop signal in it. -/
def tick (rehearsal : Rehearsal) (start : Instant) (shown : Rehearsed) :
    Rehearsed × Bool :=
  let chore := (rehearsal.plan[shown.ticks.length]?).getD .none
  let finish := (start.after chore.work).ceilMilli
  let due : List Poll := [⟨false, start, .pending⟩, ⟨false, start, .pending⟩]
  match if start < finish then rehearsal.stopsBy finish else none with
  | some stop =>
      let shown := polled shown.loop (due ++ [⟨true, stop, .pending⟩]) shown
      ({ shown with
          ticks := shown.ticks ++ [⟨start, none⟩]
          time := stop }, true)
  | none =>
      let shown := polled shown.loop
        (due ++ [⟨false, finish, .finished chore.result⟩]) shown
      let ticks := shown.ticks ++ [⟨start, some finish⟩]
      ({ shown with ticks := ticks, time := finish },
        rehearsal.stopAfter.any (· ≤ ticks.length))

/-- Runs at most so many ticks. -/
def runFrom (rehearsal : Rehearsal) : Nat → Bool → Rehearsed → Rehearsed
  | 0, _, shown => shown
  | fuel + 1, stopped, shown =>
      let wake := later shown.time shown.loop.schedule.deadline.ceilMilli
      if stopped then
        polled shown.loop [⟨true, shown.time, .pending⟩] shown
      else match rehearsal.stopsBy wake with
        | some stop =>
            let time := later shown.time stop
            { polled shown.loop [⟨true, time, .pending⟩] shown with
              time := time }
        | none =>
            let (shown, stopped) := rehearsal.tick wake shown
            runFrom rehearsal fuel stopped shown

/-- Enough ticks for a rehearsal: no more than four begin in one millisecond. -/
def enough (rehearsal : Rehearsal) : Nat :=
  (match rehearsal.stopAfter with
    | some count => count + 2
    | none => 0) +
  (match rehearsal.stopAt with
    | some stop => 4 * stop.millis + 8
    | none => 0) + 2

/-- Runs a loop from the origin of time. -/
def run (rehearsal : Rehearsal) (ticker : Ticker) (task : String) : Rehearsed :=
  rehearsal.runFrom rehearsal.enough rehearsal.stopped
    { loop := Loop.begin ticker task .origin
      ticks := []
      happenings := []
      time := .origin }

end Rehearsal

end PositionFeed
