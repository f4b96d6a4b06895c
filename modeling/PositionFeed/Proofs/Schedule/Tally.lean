import PositionFeed.Proofs.Schedule.Pace

namespace PositionFeed

/-!
# What a loop counts

The counts of a loop can be read off what happened in it: every tick finished
or was cut off, at most the last one was, and only those that finished count as
failed, give a deadline up or move the schedule on.
-/

namespace Happening

def cutOff? : Happening → Option Instant
  | .cutOff time => some time
  | _ => none

def failed? : Happening → Option Fault
  | .finished _ (.error fault) => some fault
  | _ => none

end Happening

/-- The fault that a task ended with, if it did. -/
def faultOf : Except Fault Unit → Option Fault
  | .ok () => none
  | .error fault => some fault

namespace Loop

@[simp] theorem finished_finishHappenings
    (loop : Loop)
    (now : Instant)
    (result : Except Fault Unit) :
    (loop.finishHappenings now result).filterMap Happening.finished? =
      [now] := by
  cases lag : loop.schedule.lag? now <;>
    simp [finishHappenings, lag, Happening.finished?]

@[simp] theorem cutOff_finishHappenings
    (loop : Loop)
    (now : Instant)
    (result : Except Fault Unit) :
    (loop.finishHappenings now result).filterMap Happening.cutOff? = [] := by
  cases lag : loop.schedule.lag? now <;>
    simp [finishHappenings, lag, Happening.cutOff?]

@[simp] theorem failed_finishHappenings
    (loop : Loop)
    (now : Instant)
    (result : Except Fault Unit) :
    (loop.finishHappenings now result).filterMap Happening.failed? =
      (faultOf result).toList := by
  cases lag : loop.schedule.lag? now <;> cases result <;>
    simp [finishHappenings, lag, Happening.failed?, faultOf]

@[simp] theorem resynced_finishHappenings
    (loop : Loop)
    (now : Instant)
    (result : Except Fault Unit) :
    (loop.finishHappenings now result).filterMap Happening.resynced? =
      (loop.schedule.lag? now).toList := by
  cases lag : loop.schedule.lag? now <;>
    simp [finishHappenings, lag, List.filterMap_cons, Happening.resynced?]

@[simp] theorem counts_finish
    (loop : Loop)
    (now : Instant)
    (result : Except Fault Unit) :
    (loop.finish now result).counts =
      { ticks := loop.counts.ticks
        failed := loop.counts.failed + (faultOf result).toList.length
        resyncs :=
          loop.counts.resyncs + (loop.schedule.lag? now).toList.length } := by
  cases lag : loop.schedule.lag? now <;> cases result <;>
    simp [finish, countResult, lag, faultOf]

/-- What a loop counted, and where its schedule stands, after this has
happened. -/
structure Tallies
    (begun : Schedule)
    (loop : Loop)
    (happenings : List Happening) : Prop where
  ticks :
    loop.counts.ticks =
      (happenings.filterMap Happening.finished?).length +
        (happenings.filterMap Happening.cutOff?).length +
        loop.phase.inTick.toNat
  cutOnce :
    (happenings.filterMap Happening.cutOff?).length ≤ 1
  uncut :
    loop.phase ≠ .ended → happenings.filterMap Happening.cutOff? = []
  failed :
    loop.counts.failed = (happenings.filterMap Happening.failed?).length
  resyncs :
    loop.counts.resyncs = (happenings.filterMap Happening.resynced?).length
  schedule :
    loop.schedule =
      (happenings.filterMap Happening.finished?).foldl Schedule.advance begun

namespace Tallies

variable
  {begun : Schedule}
  {loop : Loop}
  {happenings : List Happening}

theorem begin
    (ticker : Ticker)
    (task : String)
    (start : Instant) :
    (Loop.begin ticker task start).Tallies (.begin ticker.period start) [] where
  ticks := rfl
  cutOnce := Nat.zero_le 1
  uncut _ := rfl
  failed := rfl
  resyncs := rfl
  schedule := rfl

/-- A happening that is no end of a tick leaves the tally as it is, but for the
tick that it may begin to count. -/
theorem silent
    (tallies : loop.Tallies begun happenings)
    {after : Loop}
    {happening : Happening}
    (notFinished : happening.finished? = none)
    (notCutOff : happening.cutOff? = none)
    (notFailed : happening.failed? = none)
    (notResynced : happening.resynced? = none)
    (counts :
      after.counts =
        { loop.counts with
          ticks :=
            loop.counts.ticks + after.phase.inTick.toNat -
              loop.phase.inTick.toNat })
    (schedule : after.schedule = loop.schedule)
    (runs : loop.phase ≠ .ended) :
    after.Tallies begun (happenings ++ [happening]) where
  ticks := by
    rw [counts]
    simp [notFinished, notCutOff, tallies.ticks]
    omega
  cutOnce := by
    simpa [List.filterMap_cons, notCutOff] using tallies.cutOnce
  uncut _ := by
    simpa [List.filterMap_cons, notCutOff] using tallies.uncut runs
  failed := by
    rw [counts]
    simpa [List.filterMap_cons, notFailed] using tallies.failed
  resyncs := by
    rw [counts]
    simpa [List.filterMap_cons, notResynced] using tallies.resyncs
  schedule := by
    rw [schedule]
    simpa [List.filterMap_cons, notFinished] using tallies.schedule

/-- A task that finishes is counted with its result, and the schedule moves on
once. -/
theorem finish
    (tallies : loop.Tallies begun happenings)
    (inTick : loop.phase.inTick = true)
    (now : Instant)
    (result : Except Fault Unit) :
    (loop.finish now result).Tallies begun
      (happenings ++ loop.finishHappenings now result) := by
  have running : loop.phase ≠ .ended := by
    rintro ended
    simp [ended, LoopPhase.inTick] at inTick
  have uncut := tallies.uncut running
  have asleep : (loop.finish now result).phase.inTick = false := rfl
  have moved : (loop.finish now result).schedule = loop.schedule.advance now :=
    rfl
  refine {
    ticks := ?_
    cutOnce := ?_
    uncut := ?_
    failed := ?_
    resyncs := ?_
    schedule := ?_
  }
  · have ticks := tallies.ticks
    simp only [inTick] at ticks
    simp [asleep, ticks]
    omega
  · simp [uncut]
  · simp [uncut]
  · simp [tallies.failed]
  · simp [tallies.resyncs]
  · simp [moved, ← tallies.schedule]

/-- The loop ends within a tick, which stays counted and counts for nothing
else. -/
theorem cutShort
    (tallies : loop.Tallies begun happenings)
    (inTick : loop.phase.inTick = true)
    (now : Instant) :
    ({ loop with phase := .ended } : Loop).Tallies begun
      (happenings ++ [.cutOff now, .ended now]) := by
  have running : loop.phase ≠ .ended := by
    rintro ended
    simp [ended, LoopPhase.inTick] at inTick
  have uncut := tallies.uncut running
  refine {
    ticks := ?_
    cutOnce := ?_
    uncut := ?_
    failed := ?_
    resyncs := ?_
    schedule := ?_
  }
  · have ticks := tallies.ticks
    simp only [inTick] at ticks
    simp [List.filterMap_cons, Happening.finished?, Happening.cutOff?,
      LoopPhase.inTick, ticks, uncut]
  · simp [List.filterMap_cons, Happening.cutOff?, uncut]
  · simp
  · simpa [List.filterMap_cons, Happening.failed?] using tallies.failed
  · simpa [List.filterMap_cons, Happening.resynced?] using tallies.resyncs
  · simpa [List.filterMap_cons, Happening.finished?] using tallies.schedule

/-- The tally is kept over every poll. -/
theorem poll
    (tallies : loop.Tallies begun happenings)
    (found : Poll) :
    (loop.poll found).1.Tallies begun (happenings ++ (loop.poll found).2) := by
  have turn := loop.turn_poll found
  generalize loop.poll found = polled at turn ⊢
  obtain ⟨after, happened⟩ := polled
  cases turn with
  | stays ended =>
      simpa using tallies
  | ends stopped sleeping =>
      refine tallies.silent rfl rfl rfl rfl ?_ rfl ?_
      · simp [sleeping, LoopPhase.inTick]
      · simp [sleeping]
  | cutsOff stopped inTick =>
      exact tallies.cutShort inTick found.now
  | sleeps goes sleeping early =>
      simpa using tallies
  | counts goes sleeping passed =>
      refine tallies.silent rfl rfl rfl rfl ?_ rfl ?_
      · simp [sleeping, LoopPhase.inTick]
      · simp [sleeping]
  | begins goes due pending =>
      refine tallies.silent rfl rfl rfl rfl ?_ rfl ?_
      · simp [due, LoopPhase.inTick]
      · simp [due]
  | works goes working pending =>
      simpa using tallies
  | @beginsAndFinishes goes due result finished =>
      have begun :
          ({ loop with phase := .working } : Loop).Tallies begun
            (happenings ++ [.began found.now]) := by
        refine tallies.silent rfl rfl rfl rfl ?_ rfl ?_
        · simp [due, LoopPhase.inTick]
        · simp [due]
      have after := begun.finish rfl found.now result
      rw [List.append_assoc] at after
      exact after
  | @finishes goes working result finished =>
      exact tallies.finish (by rw [working]; rfl) found.now result

end Tallies

/-- The last tick of a loop has not finished: it was cut off, or it still goes
on. -/
def EndsInTick (happenings : List Happening) (loop : Loop) : Prop :=
  loop.phase.inTick = true ∨ ∃ time, .cutOff time ∈ happenings

theorem exists_cutOff_iff
    {happenings : List Happening} :
    (∃ time, .cutOff time ∈ happenings) ↔
      happenings.filterMap Happening.cutOff? ≠ [] := by
  constructor
  · rintro ⟨time, member⟩
    exact List.ne_nil_of_mem
      (List.mem_filterMap.mpr ⟨.cutOff time, member, rfl⟩)
  · intro nonempty
    obtain ⟨time, member⟩ := List.exists_mem_of_ne_nil _ nonempty
    obtain ⟨happening, isThere, cutsAt⟩ := List.mem_filterMap.mp member
    cases happening <;> cases cutsAt
    exact ⟨time, isThere⟩

/-- A loop has counted the ticks that finished, and one more exactly if it ends
in a tick. -/
theorem Tallies.ticks_cases
    {begun : Schedule}
    {loop : Loop}
    {happenings : List Happening}
    (tallies : loop.Tallies begun happenings) :
    let finished := (happenings.filterMap Happening.finished?).length
    loop.counts.ticks = finished ∧ ¬ loop.EndsInTick happenings ∨
      loop.counts.ticks = finished + 1 ∧ loop.EndsInTick happenings := by
  intro finished
  have ticks := tallies.ticks
  have once := tallies.cutOnce
  cases inTick : loop.phase.inTick with
  | true =>
      have goesOn : loop.phase ≠ .ended := by
        rintro ended
        simp [ended, LoopPhase.inTick] at inTick
      rw [inTick, tallies.uncut goesOn] at ticks
      exact .inr ⟨ticks, .inl inTick⟩
  | false =>
      rw [inTick] at ticks
      by_cases uncut : happenings.filterMap Happening.cutOff? = []
      · rw [uncut] at ticks
        refine .inl ⟨ticks, ?_⟩
        rintro (goesOn | cutOff)
        · simp [inTick] at goesOn
        · exact exists_cutOff_iff.mp cutOff uncut
      · have nonempty := List.length_pos_iff.mpr uncut
        refine .inr ⟨?_, .inr (exists_cutOff_iff.mpr uncut)⟩
        rw [Bool.toNat_false] at ticks
        omega

/-- A poll whose task has to wait finishes no tick. -/
theorem nothing_finished_of_pending
    (loop : Loop)
    (stopped : Bool)
    (now : Instant) :
    let happened := (loop.poll ⟨stopped, now, .pending⟩).2
    happened.filterMap Happening.finished? = [] ∧
      happened.filterMap Happening.failed? = [] := by
  have turn := loop.turn_poll ⟨stopped, now, .pending⟩
  generalize loop.poll ⟨stopped, now, .pending⟩ = polled at turn ⊢
  obtain ⟨after, happened⟩ := polled
  cases turn with
  | beginsAndFinishes goes due finished =>
      cases finished
  | finishes goes working finished =>
      cases finished
  | _ =>
      exact ⟨rfl, rfl⟩

/-- A task that is asked and finishes does so once. -/
theorem once_finished_of_inTick
    {loop : Loop}
    (inTick : loop.phase.inTick = true)
    (now : Instant)
    (result : Except Fault Unit) :
    let happened := (loop.poll ⟨false, now, .finished result⟩).2
    happened.filterMap Happening.finished? = [now] ∧
      happened.filterMap Happening.failed? = (faultOf result).toList := by
  cases phase : loop.phase with
  | sleeping =>
      simp [phase, LoopPhase.inTick] at inTick
  | due =>
      simp [poll, phase, pollTask, List.filterMap_cons, Happening.finished?,
        Happening.failed?]
  | working =>
      simp [poll, phase, pollTask]
  | ended =>
      simp [phase, LoopPhase.inTick] at inTick

end Loop

end PositionFeed
