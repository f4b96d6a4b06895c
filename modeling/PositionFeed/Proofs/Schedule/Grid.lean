import PositionFeed.Proofs.Run
import PositionFeed.Proofs.Schedule.Clock

namespace PositionFeed

/-!
# The grid of deadlines

The deadlines of a schedule lie on a grid: they are whole periods after an
anchor.  The anchor is the start at first.  A tick that ends more than three
periods after its own deadline makes the schedule give the grid up, and the end
of that tick is the next anchor.  So lateness does not add up on a grid, and no
deadline is more than two periods behind the end of any tick before it.
-/

namespace Schedule

/-- The schedule after ticks that ended at the given instants. -/
def advances (schedule : Schedule) (ends : List Instant) : Schedule :=
  ends.foldl advance schedule

/-- The lags that a schedule returns over ticks that ended at the given
instants. -/
def lags (schedule : Schedule) (ends : List Instant) : List Span :=
  Run.yielded advance (fun schedule now => (schedule.lag? now).toList)
    schedule ends

theorem advances_append
    (schedule : Schedule)
    (earlier later : List Instant) :
    schedule.advances (earlier ++ later) =
      (schedule.advances earlier).advances later :=
  List.foldl_append

@[simp] theorem advances_concat
    (schedule : Schedule)
    (ends : List Instant)
    (now : Instant) :
    schedule.advances (ends ++ [now]) = (schedule.advances ends).advance now :=
  advances_append schedule ends [now]

theorem lags_concat
    (schedule : Schedule)
    (ends : List Instant)
    (now : Instant) :
    schedule.lags (ends ++ [now]) =
      schedule.lags ends ++ ((schedule.advances ends).lag? now).toList :=
  Run.yielded_concat _ _ schedule ends now

@[simp] theorem period_advance
    (schedule : Schedule)
    (now : Instant) :
    (schedule.advance now).period = schedule.period := by
  by_cases late : schedule.patience < now
  · rw [(advance_of_late late).2]
  · rw [(advance_of_inTime late).2]

@[simp] theorem period_advances
    (schedule : Schedule)
    (ends : List Instant) :
    (schedule.advances ends).period = schedule.period := by
  induction ends using List.reverseRecOn with
  | nil =>
      rfl
  | append_singleton ends now inductionHypothesis =>
      rw [advances_concat, period_advance, inductionHypothesis]

theorem patience_eq
    (schedule : Schedule) :
    schedule.patience = schedule.deadline.after (schedule.period.times 3) := by
  simp only [patience, following, driftLimit, Instant.after, Span.times,
    Instant.mk.injEq]
  omega

/-- A deadline moves on by at least one period. -/
theorem following_le_advance
    (schedule : Schedule)
    (now : Instant) :
    schedule.following ≤ (schedule.advance now).deadline := by
  by_cases late : schedule.patience < now
  · rw [(advance_of_late late).2]
    simp only [patience, Instant.lt_iff, Instant.nanos_after] at late
    simp only [Instant.le_iff, Instant.nanos_after]
    omega
  · rw [(advance_of_inTime late).2]
    exact Nat.le_refl _

/-! ## Anchors -/

/-- A grid is anchored at the start until a deadline is given up, and from then
on at the end of the last tick after which one was.  The last list has the ends
of the ticks since. -/
inductive Anchored (begun : Schedule) (start : Instant) :
    List Instant → Instant → List Instant → Prop where
  | atStart
      {ends : List Instant}
      (kept : begun.lags ends = []) :
      begun.Anchored start ends start ends
  | atResync
      {earlier since : List Instant}
      {anchor : Instant}
      (givenUp : ((begun.advances earlier).lag? anchor).isSome = true)
      (kept : (begun.advances (earlier ++ [anchor])).lags since = []) :
      begun.Anchored start (earlier ++ anchor :: since) anchor since

/-- An advance that keeps the grid keeps the anchor. -/
theorem Anchored.keep
    {begun : Schedule}
    {start anchor now : Instant}
    {ends since : List Instant}
    (anchored : begun.Anchored start ends anchor since)
    (keeps : (begun.advances ends).lag? now = none) :
    begun.Anchored start (ends ++ [now]) anchor (since ++ [now]) := by
  cases anchored with
  | atStart kept =>
      apply atStart
      rw [lags_concat, kept, keeps]
      rfl
  | @atResync earlier since anchor givenUp kept =>
      have same :
          (begun.advances (earlier ++ [anchor])).advances since =
            begun.advances (earlier ++ anchor :: since) := by
        rw [← advances_append, List.append_assoc]
        rfl
      rw [List.append_assoc, List.cons_append]
      apply atResync givenUp
      rw [lags_concat, kept, same, keeps]
      rfl

/-- The deadline is as many periods after the anchor as there were advances
since, and one more. -/
theorem exists_anchored
    (period : Span)
    (start : Instant)
    (ends : List Instant) :
    let begun := begin period start
    ∃ anchor since, begun.Anchored start ends anchor since ∧
      (begun.advances ends).deadline =
        anchor.after (period.times (since.length + 1)) := by
  intro begun
  induction ends using List.reverseRecOn with
  | nil =>
      refine ⟨start, [], .atStart rfl, ?_⟩
      simp only [advances, List.foldl_nil, begun, begin, Instant.after,
        Span.times, List.length_nil, Nat.zero_add, Nat.mul_one]
  | append_singleton ends now inductionHypothesis =>
      obtain ⟨anchor, since, anchored, onGrid⟩ := inductionHypothesis
      have periodIs : (begun.advances ends).period = period :=
        period_advances begun ends
      rw [advances_concat]
      by_cases late : (begun.advances ends).patience < now
      · obtain ⟨lag, advanced⟩ := advance_of_late late
        refine ⟨now, [], .atResync (by rw [lag]; rfl) rfl, ?_⟩
        rw [advanced, periodIs]
        simp only [Instant.after, Span.times, List.length_nil, Nat.zero_add,
          Nat.mul_one]
      · obtain ⟨lag, advanced⟩ := advance_of_inTime late
        refine ⟨anchor, since ++ [now], anchored.keep lag, ?_⟩
        rw [advanced, following, onGrid, periodIs]
        simp only [Instant.after, Span.times, List.length_append,
          List.length_singleton, Instant.mk.injEq, Nat.mul_succ]
        omega

/-- No deadline is more than two periods behind the end of a tick before it. -/
theorem end_le_deadline
    {schedule : Schedule}
    {ends : List Instant}
    {now : Instant}
    (ended : now ∈ ends) :
    now ≤ (schedule.advances ends).deadline.after
      (schedule.period.times driftLimit) := by
  induction ends using List.reverseRecOn with
  | nil =>
      cases ended
  | append_singleton ends last inductionHypothesis =>
      have periodIs := period_advances schedule ends
      have following := following_le_advance (schedule.advances ends) last
      rw [advances_concat]
      rcases List.mem_append.mp ended with before | isLast
      · have near := inductionHypothesis before
        rw [Schedule.following, periodIs] at following
        simp only [Instant.le_iff, Instant.nanos_after] at near following ⊢
        omega
      · rw [List.mem_singleton.mp isLast]
        by_cases late : (schedule.advances ends).patience < last
        · rw [(advance_of_late late).2]
          simp only [Instant.le_iff, Instant.nanos_after]
          omega
        · rw [(advance_of_inTime late).2, ← periodIs]
          exact Nat.le_of_not_lt late

/-- Each tick ends within three periods of its own deadline. -/
def Punctual (begun : Schedule) (ends : List Instant) : Prop :=
  ∀ earlier now later, ends = earlier ++ now :: later →
    now ≤ (begun.advances earlier).deadline.after (begun.period.times 3)

theorem Punctual.of_append
    {begun : Schedule}
    {earlier later : List Instant}
    (punctual : begun.Punctual (earlier ++ later)) :
    begun.Punctual earlier := by
  rintro before now after rfl
  apply punctual before now (after ++ later)
  rw [List.append_assoc]
  rfl

/-- No deadline is given up after punctual ticks. -/
theorem Punctual.lags_eq_nil
    {begun : Schedule}
    {ends : List Instant}
    (punctual : begun.Punctual ends) :
    begun.lags ends = [] := by
  induction ends using List.reverseRecOn with
  | nil =>
      rfl
  | append_singleton ends now inductionHypothesis =>
      have inTime : ¬ (begun.advances ends).patience < now := by
        rw [patience_eq, period_advances]
        exact Nat.not_lt_of_le (punctual ends now [] rfl)
      rw [lags_concat, inductionHypothesis punctual.of_append,
        (advance_of_inTime inTime).1]
      rfl

/-- As long as no deadline is given up, the anchor is the start. -/
theorem Anchored.eq_start
    {begun : Schedule}
    {start anchor : Instant}
    {ends since : List Instant}
    (anchored : begun.Anchored start ends anchor since)
    (kept : begun.lags ends = []) :
    anchor = start ∧ since = ends := by
  cases anchored with
  | atStart _ =>
      exact ⟨rfl, rfl⟩
  | @atResync earlier since anchor givenUp _ =>
      obtain ⟨lag, isLag⟩ := Option.isSome_iff_exists.mp givenUp
      have split := Run.yielded_append advance
        (fun schedule now => (schedule.lag? now).toList) begun earlier
        (anchor :: since)
      rw [lags, split, List.append_eq_nil_iff] at kept
      have nothing := kept.2
      simp only [Run.yielded, List.append_eq_nil_iff] at nothing
      have here : ((begun.advances earlier).lag? anchor).toList = [] :=
        nothing.1
      rw [isLag] at here
      cases here

/-- What an advance from a deadline comes to at an instant. -/
structure Advances (schedule : Schedule) (now : Instant) : Prop where
  /-- The grid is given up exactly after the third period behind the
  deadline. -/
  resyncs :
    (schedule.lag? now).isSome = true ↔
      schedule.deadline.after (schedule.period.times 3) < now
  /-- The lag counts from the following deadline and exceeds two periods, and
  the next deadline is one period after the end of the tick. -/
  late :
    ∀ lag, schedule.lag? now = some lag →
      lag = (schedule.deadline.after schedule.period).spanTo now ∧
        (schedule.period.times 2).nanos < lag.nanos ∧
        schedule.advance now =
          ⟨schedule.period, now.after schedule.period⟩
  inTime :
    schedule.lag? now = none →
      schedule.advance now =
        ⟨schedule.period, schedule.deadline.after schedule.period⟩
  /-- On a clock an advance comes to the same or to an overflow. -/
  onClock :
    ∀ result,
      schedule.advance? now = .ok result ↔
        schedule.Holds now ∧
          result = (schedule.advance now, schedule.lag? now)

theorem advances_at
    (schedule : Schedule)
    (now : Instant) :
    schedule.Advances now := by
  have patience := schedule.patience_eq
  by_cases isLate : schedule.patience < now
  · obtain ⟨lag, advanced⟩ := advance_of_late isLate
    refine {
      resyncs := by simpa [lag, ← patience] using isLate
      late := ?_
      inTime := ?_
      onClock := fun _ => advance?_eq_ok_iff
    }
    · intro span isSpan
      rw [lag] at isSpan
      cases isSpan
      refine ⟨rfl, ?_, advanced⟩
      simp only [Schedule.patience, Instant.lt_iff, Instant.nanos_after,
        Span.nanos_times, driftLimit] at isLate
      simp only [Instant.spanTo, Span.nanos_times]
      omega
    · intro kept
      rw [lag] at kept
      cases kept
  · obtain ⟨lag, advanced⟩ := advance_of_inTime isLate
    refine {
      resyncs := by simpa [lag, ← patience] using isLate
      late := ?_
      inTime := fun _ => advanced
      onClock := fun _ => advance?_eq_ok_iff
    }
    intro span isSpan
    rw [lag] at isSpan
    cases isSpan

/-- What is promised of the deadlines of a schedule, over ticks that ended at
the given instants. -/
structure KeepsGrid
    (period : Span)
    (start : Instant)
    (ends : List Instant) : Prop where
  /-- Each advance keeps the grid or gives it up. -/
  advances :
    ∀ deadline now, (Schedule.mk period deadline).Advances now
  /-- The deadline lies on the grid of the last anchor. -/
  onGrid :
    ∃ anchor since, (begin period start).Anchored start ends anchor since ∧
      ((begin period start).advances ends).deadline =
        anchor.after (period.times (since.length + 1))
  /-- It is at most two periods behind the end of any tick. -/
  near :
    ∀ now ∈ ends,
      now ≤ ((begin period start).advances ends).deadline.after
        (period.times 2)
  /-- Ticks that end in time give no deadline up, and each deadline is as many
  periods after the start as its place is worth. -/
  punctual :
    (begin period start).Punctual ends →
      (begin period start).lags ends = [] ∧
        ∀ earlier later, ends = earlier ++ later →
          ((begin period start).advances earlier).deadline =
            start.after (period.times (earlier.length + 1))

/-- Over all ticks, whenever they end, a schedule keeps the deadlines on its
grid. -/
theorem every_run_keeps_the_grid
    (period : Span)
    (start : Instant)
    (ends : List Instant) :
    KeepsGrid period start ends := by
  refine {
    advances := fun deadline now => advances_at ⟨period, deadline⟩ now
    onGrid := exists_anchored period start ends
    near := fun now ended => end_le_deadline ended
    punctual := ?_
  }
  intro punctual
  refine ⟨punctual.lags_eq_nil, ?_⟩
  rintro earlier later rfl
  obtain ⟨anchor, since, anchored, onGrid⟩ :=
    exists_anchored period start earlier
  obtain ⟨rfl, rfl⟩ := anchored.eq_start punctual.of_append.lags_eq_nil
  exact onGrid

/-- The second tick ends late and gives the grid up, the third one ends at its
limit and keeps the new one. -/
example :
    let begun := begin (.ofMillis 10) .origin
    let ends : List Instant := [⟨25000000⟩, ⟨90000000⟩, ⟨130000000⟩]
    begun.lags ends = [.ofMillis 60] ∧
      (begun.advances ends).deadline = ⟨110000000⟩ := by
  decide

end Schedule

end PositionFeed
