import PositionFeed.Proofs.Schedule.Stop

namespace PositionFeed

/-!
# What results change

The result of a task is counted and logged, and nothing else comes of it.  A
run in which every task succeeds at the times at which it finished is the same
run but for the results that are shown and the count of failures.  So two runs
that find the same at the same times make the same ticks, keep the same
deadlines and end together, whatever their tasks come to.
-/

/-- An answer with its result replaced by success. -/
def TaskAnswer.succeeding : TaskAnswer → TaskAnswer
  | .pending => .pending
  | .finished _ => .finished (.ok ())

/-- A poll at which a task that finishes succeeds. -/
def Poll.succeeding (found : Poll) : Poll :=
  { found with answer := found.answer.succeeding }

/-- What happens when a task that finishes succeeds. -/
def Happening.succeeding : Happening → Happening
  | .finished time _ => .finished time (.ok ())
  | happening => happening

namespace Loop

/-- The loop as if no task had failed. -/
def succeeding (loop : Loop) : Loop :=
  { loop with counts := { loop.counts with failed := 0 } }

@[simp] theorem succeeding_begin
    (ticker : Ticker)
    (task : String)
    (start : Instant) :
    (begin ticker task start).succeeding = begin ticker task start := rfl

theorem succeeding_finishHappenings
    (loop : Loop)
    (now : Instant)
    (result : Except Fault Unit) :
    (loop.finishHappenings now result).map Happening.succeeding =
      loop.succeeding.finishHappenings now (.ok ()) := by
  cases lag : loop.schedule.lag? now <;>
    simp [finishHappenings, succeeding, lag, Happening.succeeding]

theorem succeeding_pollTask
    (loop : Loop)
    (now : Instant)
    (answer : TaskAnswer) :
    loop.succeeding.pollTask now answer.succeeding =
      ((loop.pollTask now answer).1.succeeding,
        (loop.pollTask now answer).2.map Happening.succeeding) := by
  cases answer with
  | pending =>
      rfl
  | finished result =>
      exact Prod.ext rfl (loop.succeeding_finishHappenings now result).symm

theorem succeeding_lastHappenings
    (loop : Loop)
    (now : Instant) :
    (loop.lastHappenings now).map Happening.succeeding =
      loop.succeeding.lastHappenings now := by
  obtain ⟨ticker, task, schedule, counts, phase⟩ := loop
  cases phase <;> rfl

/-- A poll does the same, and the same happens in it, when the task succeeds. -/
theorem succeeding_poll
    (loop : Loop)
    (found : Poll) :
    loop.succeeding.poll found.succeeding =
      ((loop.poll found).1.succeeding,
        (loop.poll found).2.map Happening.succeeding) := by
  obtain ⟨stopped, now, answer⟩ := found
  have samePhase : loop.succeeding.phase = loop.phase := rfl
  have sameDeadline :
      loop.succeeding.schedule.deadline = loop.schedule.deadline := rfl
  cases stopped with
  | true =>
      rw [poll_of_stopped, succeeding_lastHappenings]
      exact poll_of_stopped _ _ _
  | false =>
      cases phase : loop.phase with
      | ended =>
          simp only [poll, samePhase, phase]
          rfl
      | sleeping =>
          by_cases passed : loop.schedule.deadline ≤ now <;>
            simp only [poll, samePhase, phase, Poll.succeeding, sameDeadline,
              passed] <;> rfl
      | due =>
          simp only [poll, samePhase, phase, Poll.succeeding,
            succeeding_pollTask]
          rfl
      | working =>
          simp only [poll, samePhase, phase, Poll.succeeding,
            succeeding_pollTask]
          rfl

/-- A run does the same when every task succeeds. -/
theorem succeeding_run
    (loop : Loop)
    (polls : List Poll) :
    loop.succeeding.run (polls.map Poll.succeeding) =
      ((loop.run polls).1.succeeding,
        (loop.run polls).2.map Happening.succeeding) := by
  induction polls generalizing loop with
  | nil =>
      rfl
  | cons found rest inductionHypothesis =>
      simp only [List.map_cons, run, succeeding_poll, inductionHypothesis,
        List.map_append]

theorem noted_succeeding
    (deadline : Instant)
    (ticks : List Tick)
    (happening : Happening) :
    Tick.noted deadline ticks happening.succeeding =
      Tick.noted deadline ticks happening := by
  cases happening <;> rfl

/-- The ticks of a run are the same when every task succeeds. -/
theorem succeeding_ticks
    (loop : Loop)
    (ticks : List Tick)
    (polls : List Poll) :
    loop.succeeding.ticks ticks (polls.map Poll.succeeding) =
      loop.ticks ticks polls := by
  induction polls generalizing loop ticks with
  | nil =>
      rfl
  | cons found rest inductionHypothesis =>
      simp only [List.map_cons, Loop.ticks, succeeding_poll, List.foldl_map,
        noted_succeeding, inductionHypothesis]
      rfl

theorem resynced_succeeding
    (happenings : List Happening) :
    (happenings.map Happening.succeeding).filterMap Happening.resynced? =
      happenings.filterMap Happening.resynced? := by
  rw [List.filterMap_map]
  apply List.filterMap_congr
  intro happening _
  cases happening <;> rfl

/-! ## The end of a run -/

/-- The tally is kept over every run. -/
theorem Tallies.run
    {begun : Schedule}
    {loop : Loop}
    {happenings : List Happening}
    (tallies : loop.Tallies begun happenings)
    (polls : List Poll) :
    (loop.run polls).1.Tallies begun (happenings ++ (loop.run polls).2) := by
  induction polls generalizing loop happenings with
  | nil =>
      simpa [Loop.run] using tallies
  | cons found rest inductionHypothesis =>
      have polled := inductionHypothesis (tallies.poll found)
      rw [List.append_assoc] at polled
      exact polled

/-- Only a poll that finds the stop signal ends a loop. -/
theorem phase_poll_eq_ended_iff
    (loop : Loop)
    (found : Poll) :
    (loop.poll found).1.phase = .ended ↔
      loop.phase = .ended ∨ found.stopped = true := by
  have turn := loop.turn_poll found
  generalize loop.poll found = polled at turn ⊢
  obtain ⟨after, happened⟩ := polled
  cases turn with
  | stays ended =>
      exact ⟨.inl, fun _ => ended⟩
  | ends stopped sleeping =>
      simp [stopped]
  | cutsOff stopped inTick =>
      simp [stopped]
  | sleeps goes sleeping early =>
      simp [goes]
  | counts goes sleeping passed =>
      simp [goes, sleeping]
  | begins goes due pending =>
      simp [goes, due]
  | works goes working pending =>
      simp [goes]
  | beginsAndFinishes goes due finished =>
      simp [goes, due]
  | finishes goes working finished =>
      simp [goes, working]

theorem phase_run_eq_ended_iff
    (loop : Loop)
    (polls : List Poll) :
    (loop.run polls).1.phase = .ended ↔
      loop.phase = .ended ∨ ∃ found ∈ polls, found.stopped = true := by
  induction polls generalizing loop with
  | nil =>
      simp [run]
  | cons found rest inductionHypothesis =>
      simp only [run, inductionHypothesis, phase_poll_eq_ended_iff,
        List.exists_mem_cons_iff]
      exact or_assoc

/-! ## Two runs -/

/-- Two runs of a loop take the same course. -/
structure SameCourse (loop : Loop) (polls others : List Poll) : Prop where
  /-- Each tick has the same deadline, begins and finishes at the same times and
  makes the loop report the same lag. -/
  ticks :
    loop.ticks [] polls = loop.ticks [] others
  /-- The same happens to the end, but for the results that are shown. -/
  happenings :
    (loop.run polls).2.map Happening.succeeding =
      (loop.run others).2.map Happening.succeeding
  lags :
    (loop.run polls).2.filterMap Happening.resynced? =
      (loop.run others).2.filterMap Happening.resynced?
  schedule :
    (loop.run polls).1.schedule = (loop.run others).1.schedule
  phase :
    (loop.run polls).1.phase = (loop.run others).1.phase
  counted :
    (loop.run polls).1.counts.ticks = (loop.run others).1.counts.ticks
  resyncs :
    (loop.run polls).1.counts.resyncs = (loop.run others).1.counts.resyncs

/-- Polls that differ only in results let a loop take the same course. -/
theorem sameCourse
    {loop : Loop}
    {polls others : List Poll}
    (sameTimes : polls.map Poll.succeeding = others.map Poll.succeeding) :
    loop.SameCourse polls others := by
  have runs := loop.succeeding_run polls
  rw [sameTimes, succeeding_run, Prod.mk.injEq] at runs
  obtain ⟨sameLoop, sameHappenings⟩ := runs
  refine {
    ticks := ?_
    happenings := sameHappenings.symm
    lags := ?_
    schedule := (congrArg Loop.schedule sameLoop).symm
    phase := (congrArg Loop.phase sameLoop).symm
    counted := (congrArg (fun loop => loop.counts.ticks) sameLoop).symm
    resyncs := (congrArg (fun loop => loop.counts.resyncs) sameLoop).symm
  }
  · rw [← succeeding_ticks, sameTimes, succeeding_ticks]
  · rw [← resynced_succeeding, ← sameHappenings, resynced_succeeding]

/-- Two runs that find the same at the same times take the same course, whatever
the results of their tasks are.  Faults are counted, and only the stop signal
ends a run. -/
theorem every_run_disregards_results
    (ticker : Ticker)
    (task : String)
    (start : Instant)
    (polls others : List Poll)
    (sameTimes : polls.map Poll.succeeding = others.map Poll.succeeding) :
    let loop := begin ticker task start
    loop.SameCourse polls others ∧
      ∀ list ∈ [polls, others],
        (loop.run list).1.counts.failed =
            ((loop.run list).2.filterMap Happening.failed?).length ∧
          ((loop.run list).1.phase = .ended ↔
            ∃ found ∈ list, found.stopped = true) := by
  intro loop
  refine ⟨sameCourse sameTimes, ?_⟩
  intro list _
  have tallies := (Tallies.begin ticker task start).run list
  refine ⟨tallies.failed, ?_⟩
  rw [phase_run_eq_ended_iff]
  exact or_iff_right nofun

/-- The slow polls, with a fault whenever the task finishes. -/
def failingPolls : List Poll :=
  slowPolls.map fun found =>
    match found.answer with
    | .pending => found
    | .finished _ => { found with answer := .finished (.error (.other "no")) }

theorem failingPolls_take_the_same_course :
    slowPolls.map Poll.succeeding = failingPolls.map Poll.succeeding ∧
      let loop := begin ⟨"drift", .ofMillis 10⟩ "slow" .origin
      loop.SameCourse slowPolls failingPolls ∧
        ∀ list ∈ [slowPolls, failingPolls],
          (loop.run list).1.counts.failed =
              ((loop.run list).2.filterMap Happening.failed?).length ∧
            ((loop.run list).1.phase = .ended ↔
              ∃ found ∈ list, found.stopped = true) :=
  ⟨rfl, every_run_disregards_results ⟨"drift", .ofMillis 10⟩ "slow" .origin
    slowPolls failingPolls rfl⟩

end Loop

end PositionFeed
