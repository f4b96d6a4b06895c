import PositionFeed.Decimal.Layout
import PositionFeed.Time.Span

namespace PositionFeed

/-!
# Deadlines

A schedule has a deadline and moves it on by one period after each tick, so
that lateness does not add up.  When the new deadline is still more than two
periods behind the end of the tick, the schedule gives up its grid: the next
deadline is one period after the end of the tick.

The arithmetic here knows no largest number.  `begin?` and `advance?` say when
a clock can hold its results.
-/

/-- A row of deadlines. -/
structure Schedule where
  /-- The time between two deadlines. -/
  period : Span
  /-- The next deadline. -/
  deadline : Instant
  deriving Repr, DecidableEq

/-- A sum or a product that a clock cannot hold. -/
inductive ClockOverflow where
  /-- An instant plus a span. -/
  | sum
  /-- So many times a span. -/
  | product
  deriving Repr, DecidableEq

/-- The wording of a result that a clock cannot hold. -/
def ClockOverflow.message : ClockOverflow → String
  | .sum => "overflow when adding duration to instant"
  | .product => "overflow when multiplying duration by scalar"

namespace Schedule

/-- How many periods a deadline may be behind. -/
def driftLimit : Nat := 2

/-- The schedule whose first deadline is one period after a start. -/
def begin (period : Span) (start : Instant) : Schedule :=
  ⟨period, start.after period⟩

/-- The deadline after the next one. -/
def following (schedule : Schedule) : Instant :=
  schedule.deadline.after schedule.period

/-- The instant after which the following deadline is given up. -/
def patience (schedule : Schedule) : Instant :=
  schedule.following.after (schedule.period.times driftLimit)

/-- How far behind the following deadline is at the end of a tick, if it is
given up. -/
def lag? (schedule : Schedule) (now : Instant) : Option Span :=
  if schedule.patience < now then some (schedule.following.spanTo now) else none

/-- The schedule after a tick that ended at the given instant. -/
def advance (schedule : Schedule) (now : Instant) : Schedule :=
  match schedule.lag? now with
  | some _ => { schedule with deadline := now.after schedule.period }
  | none => { schedule with deadline := schedule.following }

/-- An instant, if a clock can hold it. -/
def held (instant : Instant) : Except ClockOverflow Instant :=
  if instant.fits then .ok instant else .error .sum

/-- The schedule from a start, if a clock can hold its first deadline. -/
def begin? (period : Span) (start : Instant) :
    Except ClockOverflow Schedule := do
  let deadline ← held (start.after period)
  .ok ⟨period, deadline⟩

/-- The schedule after a tick, and how far behind a deadline was that it gave
up, if a clock can hold all that has to be computed. -/
def advance? (schedule : Schedule) (now : Instant) :
    Except ClockOverflow (Schedule × Option Span) := do
  let _ ← held schedule.following
  if ¬ (schedule.period.times driftLimit).fits then throw .product
  let _ ← held schedule.patience
  let next := schedule.advance now
  let _ ← held next.deadline
  .ok (next, schedule.lag? now)

end Schedule

/-- Why nothing can tick at a rate or with a period. -/
inductive RateDefect where
  /-- The rate has no period. -/
  | invalidRate (name : String) (rate : Float)
  | noPeriod (name : String)
  deriving Repr, DecidableEq

/-- The wording of a rate or a period that nothing can tick with. -/
def RateDefect.message : RateDefect → String
  | .invalidRate name rate =>
      "scheduler '" ++ name ++ "': rate must be finite and > 0, got " ++
        plainNumber rate
  | .noPeriod name => "scheduler '" ++ name ++ "': period must be non-zero"

/-- A named thing that ticks with a period. -/
structure Ticker where
  name : String
  /-- The time between two ticks. -/
  period : Span
  deriving Repr, DecidableEq

namespace Ticker

/-- Something that ticks with a period, unless the period is nothing. -/
def ofPeriod (name : String) (period : Span) : Except RateDefect Ticker :=
  if period.nanos = 0 then .error (.noPeriod name) else .ok ⟨name, period⟩

/-- Something that ticks at a rate, if the rate is a positive number whose
period can be held and is not nothing. -/
def ofRate (name : String) (rate : Float) : Except RateDefect Ticker :=
  if isPositiveRate rate then
    match Span.ofRate? rate with
    | some period => ofPeriod name period
    | none => .error (.invalidRate name rate)
  else .error (.invalidRate name rate)

end Ticker

end PositionFeed
