import PositionFeed.Proofs.Blueprint.Rules
import PositionFeed.Proofs.Result
import PositionFeed.Proofs.Schedule.Pace

namespace PositionFeed

/-!
# What a clock can hold

A span holds twice as many seconds as an instant, and a schedule adds its
period to instants.  So a rate may have a period that can be held as a span and
still be too slow for any clock: its first deadline, or the instants that its
first advance looks at, lie beyond the last instant.  What a schedule computes
without bounds is what it computes on a clock as long as the clock holds it.
-/

namespace Schedule

/-- A tick that ended too late: the grid is given up. -/
theorem advance_of_late
    {schedule : Schedule}
    {now : Instant}
    (late : schedule.patience < now) :
    schedule.lag? now = some (schedule.following.spanTo now) ∧
      schedule.advance now =
        { schedule with deadline := now.after schedule.period } := by
  have lag : schedule.lag? now = some (schedule.following.spanTo now) :=
    if_pos late
  exact ⟨lag, by simp only [advance, lag]⟩

/-- A tick that ended in time: the grid is kept. -/
theorem advance_of_inTime
    {schedule : Schedule}
    {now : Instant}
    (inTime : ¬ schedule.patience < now) :
    schedule.lag? now = none ∧
      schedule.advance now =
        { schedule with deadline := schedule.following } := by
  have lag : schedule.lag? now = none :=
    if_neg inTime
  exact ⟨lag, by simp only [advance, lag]⟩

theorem held_eq_ok_iff
    {instant result : Instant} :
    held instant = .ok result ↔ instant.fits = true ∧ result = instant := by
  unfold held
  by_cases fits : instant.fits = true
  · simp [fits, eq_comm]
  · simp [fits]

/-- A clock holds the first deadline. -/
theorem begin?_eq_ok_iff
    {period : Span}
    {start : Instant}
    {begun : Schedule} :
    begin? period start = .ok begun ↔
      (start.after period).fits = true ∧ begun = begin period start := by
  unfold begin?
  rw [Result.bind_eq_ok_iff]
  constructor
  · rintro ⟨deadline, isHeld, begins⟩
    obtain ⟨fits, rfl⟩ := held_eq_ok_iff.mp isHeld
    cases begins
    exact ⟨fits, rfl⟩
  · rintro ⟨fits, rfl⟩
    exact ⟨_, held_eq_ok_iff.mpr ⟨fits, rfl⟩, rfl⟩

/-- A clock holds all that an advance at an instant computes. -/
structure Holds (schedule : Schedule) (now : Instant) : Prop where
  following :
    schedule.following.fits = true
  limit :
    (schedule.period.times driftLimit).fits = true
  patience :
    schedule.patience.fits = true
  next :
    (schedule.advance now).deadline.fits = true

/-- An advance comes to an end exactly if a clock holds what it computes. -/
theorem advance?_eq_ok_iff
    {schedule : Schedule}
    {now : Instant}
    {result : Schedule × Option Span} :
    schedule.advance? now = .ok result ↔
      schedule.Holds now ∧
        result = (schedule.advance now, schedule.lag? now) := by
  unfold advance?
  constructor
  · intro ended
    obtain ⟨_, isFollowing, ended⟩ := Result.bind_eq_ok_iff.mp ended
    by_cases limit : (schedule.period.times driftLimit).fits = true
    · simp only [limit, not_true_eq_false, ↓reduceIte] at ended
      obtain ⟨_, isPatience, ended⟩ := Result.bind_eq_ok_iff.mp ended
      obtain ⟨_, isNext, ended⟩ := Result.bind_eq_ok_iff.mp ended
      cases ended
      exact ⟨{
        following := (held_eq_ok_iff.mp isFollowing).1
        limit := limit
        patience := (held_eq_ok_iff.mp isPatience).1
        next := (held_eq_ok_iff.mp isNext).1
      }, rfl⟩
    · simp only [limit] at ended
      cases ended
  · rintro ⟨holds, rfl⟩
    have isFollowing := held_eq_ok_iff.mpr ⟨holds.following, rfl⟩
    have isPatience := held_eq_ok_iff.mpr ⟨holds.patience, rfl⟩
    have isNext := held_eq_ok_iff.mpr ⟨holds.next, rfl⟩
    simp only [isFollowing, holds.limit, isPatience, isNext]
    rfl

end Schedule

/-! ## Bounds in nanoseconds -/

theorem Instant.fits_iff
    {instant : Instant} :
    instant.fits = true ↔
      instant.nanos < Instant.secondBound * Span.perSecond := by
  have positive : 0 < Span.perSecond := by
    decide
  exact decide_eq_true_iff.trans (Nat.div_lt_iff_lt_mul positive)

theorem Span.fits_iff
    {span : Span} :
    span.fits = true ↔ span.nanos < Span.secondBound * Span.perSecond := by
  have positive : 0 < Span.perSecond := by
    decide
  exact decide_eq_true_iff.trans (Nat.div_lt_iff_lt_mul positive)

theorem Instant.fits_of_le
    {first second : Instant}
    (notAfter : first ≤ second)
    (fits : second.fits = true) :
    first.fits = true :=
  fits_iff.mpr (Nat.lt_of_le_of_lt notAfter (fits_iff.mp fits))

/-! ## The first deadlines of a loop -/

namespace Schedule

variable
  {period : Span}
  {start now : Instant}

/-- A schedule loses patience with its first deadline four periods after its
start. -/
theorem patience_begin
    (period : Span)
    (start : Instant) :
    (begin period start).patience = start.after (period.times 4) := by
  simp only [patience, following, begin, driftLimit, Instant.after, Span.times,
    Instant.mk.injEq]
  omega

/-- What the first advance computes can be held if the end of its patience can
be held, and the new deadline of a tick that ended after that. -/
theorem holds_begin_iff :
    (begin period start).Holds now ↔
      (start.after (period.times 4)).fits = true ∧
        (start.after (period.times 4) < now →
          (now.after period).fits = true) := by
  have patienceIs := patience_begin period start
  constructor
  · intro holds
    have patience := holds.patience
    rw [patienceIs] at patience
    refine ⟨patience, ?_⟩
    intro late
    rw [← patienceIs] at late
    have next := holds.next
    rw [(advance_of_late late).2] at next
    exact next
  · rintro ⟨fits, next⟩
    have onClock := Instant.fits_iff.mp fits
    have following : (begin period start).following.fits = true := by
      apply Instant.fits_of_le ?_ fits
      simp only [Instant.le_iff, Schedule.following, begin,
        Instant.nanos_after, Span.nanos_times]
      omega
    refine {
      following := following
      limit := ?_
      patience := patienceIs ▸ fits
      next := ?_
    }
    · have twice : Instant.secondBound ≤ Span.secondBound := by
        decide
      have bounds := Nat.mul_le_mul_right Span.perSecond twice
      rw [Instant.nanos_after, Span.nanos_times] at onClock
      rw [Span.fits_iff, Span.nanos_times]
      simp only [begin, driftLimit]
      omega
    · by_cases late : (begin period start).patience < now
      · rw [(advance_of_late late).2]
        exact next (patienceIs ▸ late)
      · rw [(advance_of_inTime late).2]
        exact following

end Schedule

theorem Loop.exists_begin?_iff
    {ticker : Ticker}
    {task : String}
    {start : Instant} :
    (∃ loop, Loop.begin? ticker task start = .ok loop) ↔
      (start.after ticker.period).fits = true := by
  constructor
  · rintro ⟨loop, begins⟩
    obtain ⟨schedule, begun, _⟩ := Result.bind_eq_ok_iff.mp begins
    exact (Schedule.begin?_eq_ok_iff.mp begun).1
  · intro fits
    have begun := Schedule.begin?_eq_ok_iff.mpr ⟨fits, rfl⟩
    exact ⟨Loop.begin ticker task start,
      Result.bind_eq_ok_iff.mpr ⟨_, begun, rfl⟩⟩

/-- The last moment of a clock at which loops are expected to begin. -/
def Instant.latestStart : Instant :=
  ⟨Word.size 32 * Span.perSecond⟩

/-- A period that is short enough for every loop that begins by then. -/
def Span.longestSafe : Span :=
  .ofSeconds (Word.size 61 - Word.size 30 - 1)

namespace Ticker

theorem period_ne_zero_of_ofRate
    {name : String}
    {rate : Float}
    {ticker : Ticker}
    (made : ofRate name rate = .ok ticker) :
    ticker.period.nanos ≠ 0 := by
  unfold ofRate at made
  split at made
  · split at made
    · rename_i period _
      unfold ofPeriod at made
      split at made
      · cases made
      · rename_i something
        cases made
        exact something
    · cases made
  · cases made

/-- What a loop asks of the clock that it begins on. -/
structure Asks (ticker : Ticker) (start : Instant) : Prop where
  /-- It begins exactly if the clock holds its first deadline. -/
  begins :
    ∀ task,
      (∃ loop, Loop.begin? ticker task start = .ok loop) ↔
        (start.after ticker.period).fits = true
  /-- Its first advance comes to an end exactly if the clock holds the fourth
  period after the start and, for a tick that ended later, the period after its
  end. -/
  advances :
    ∀ now,
      (∃ result,
          (Schedule.begin ticker.period start).advance? now = .ok result) ↔
        (start.after (ticker.period.times 4)).fits = true ∧
          (start.after (ticker.period.times 4) < now →
            (now.after ticker.period).fits = true)
  /-- With a short period neither fails, unless the tick ended within a period
  of the end of the clock. -/
  safe :
    start ≤ .latestStart → ticker.period.nanos ≤ Span.longestSafe.nanos →
      (∀ task, ∃ loop, Loop.begin? ticker task start = .ok loop) ∧
        ∀ now, (now.after ticker.period).fits = true →
          ∃ result,
            (Schedule.begin ticker.period start).advance? now = .ok result

theorem asks
    (ticker : Ticker)
    (start : Instant) :
    ticker.Asks start := by
  have advances (now : Instant) :
      (∃ result,
          (Schedule.begin ticker.period start).advance? now = .ok result) ↔
        (start.after (ticker.period.times 4)).fits = true ∧
          (start.after (ticker.period.times 4) < now →
            (now.after ticker.period).fits = true) := by
    rw [← Schedule.holds_begin_iff]
    constructor
    · rintro ⟨result, ended⟩
      exact (Schedule.advance?_eq_ok_iff.mp ended).1
    · intro holds
      exact ⟨_, Schedule.advance?_eq_ok_iff.mpr ⟨holds, rfl⟩⟩
  refine {
    begins := fun _ => Loop.exists_begin?_iff
    advances := advances
    safe := ?_
  }
  intro early short
  have fourth : (start.after (ticker.period.times 4)).fits = true := by
    have bound :
        Instant.latestStart.nanos + Span.longestSafe.nanos * 4 <
          Instant.secondBound * Span.perSecond := by
      decide
    rw [Instant.le_iff] at early
    rw [Instant.fits_iff, Instant.nanos_after, Span.nanos_times]
    omega
  constructor
  · intro task
    apply Loop.exists_begin?_iff.mpr
    apply Instant.fits_of_le ?_ fourth
    simp only [Instant.le_iff, Instant.nanos_after, Span.nanos_times]
    omega
  · intro now fits
    exact (advances now).mpr ⟨fourth, fun _ => fits⟩

/-- For every rate that the rules allow there is a ticker with a period, and
the clock that its loop begins on decides how far the loop comes. -/
theorem every_allowed_rate_asks_the_clock
    {field : String}
    {rate : Float}
    (allowed : Rules.rate field rate = .ok ())
    (name : String) :
    ∃ ticker, ofRate name rate = .ok ticker ∧
      ticker.period.nanos ≠ 0 ∧ ∀ start, ticker.Asks start := by
  obtain ⟨ticker, made⟩ := (Rules.rate_eq_ok_iff name).mp allowed
  exact ⟨ticker, made, period_ne_zero_of_ofRate made, ticker.asks⟩

/-- One tick in seventy thousand million years. -/
theorem slowRate_asks_the_clock :
    Rules.rate "producer.rate_hz" 4.4e-19 = .ok () ∧
      ∃ ticker, ofRate "producer" 4.4e-19 = .ok ticker ∧
        ticker.period.nanos ≠ 0 ∧ ∀ start, ticker.Asks start :=
  have allowed : Rules.rate "producer.rate_hz" 4.4e-19 = .ok () := by
    decide +kernel
  ⟨allowed, every_allowed_rate_asks_the_clock allowed "producer"⟩

end Ticker

/-- The usual blueprint with another rate of the producer. -/
def Blueprint.producingAt (rate : Float) : Blueprint :=
  { Blueprint.default with producer := { ProducerPlan.default with rate } }

/-- The rules allow a rate whose period no clock can hold, and one whose loop
begins and overflows in its first advance, at the time of its first tick. -/
theorem Blueprint.producingAt_overflows :
    ((producingAt 1e-19).validate = .ok () ∧
      ∃ ticker, Ticker.ofRate "producer" 1e-19 = .ok ticker ∧
        Loop.begin? ticker "producer" .origin = .error .sum) ∧
    (producingAt 2.5e-19).validate = .ok () ∧
      ∃ ticker, Ticker.ofRate "producer" 2.5e-19 = .ok ticker ∧
        (Loop.begin? ticker "producer" .origin).isOk = true ∧
        (Schedule.begin ticker.period .origin).advance?
          (Instant.origin.after ticker.period) = .error .sum := by
  refine ⟨⟨by decide +kernel, ⟨"producer", .ofSeconds 10000000000000000000⟩,
    by decide +kernel, by decide +kernel⟩, by decide +kernel,
    ⟨"producer", .ofSeconds 3999999999999999488⟩, by decide +kernel,
    by decide +kernel, by decide +kernel⟩

end PositionFeed
