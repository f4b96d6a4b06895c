import PositionFeed.Schedule.Loop

namespace PositionFeed

/-!
# One poll of a loop

A poll takes a loop one turn further.  Which turn it takes is decided by the
stop signal first, then by the phase of the loop, and last by the time or by
the answer of the task.  What holds of a loop over all polls is proved turn by
turn.
-/

/-- A loop in this phase has counted a tick that it has not finished. -/
def LoopPhase.inTick : LoopPhase → Bool
  | .due => true
  | .working => true
  | _ => false

namespace Loop

/-- The turns that a loop can take when it is polled, and what happens in
them. -/
inductive Turn (loop : Loop) (found : Poll) : Loop → List Happening → Prop where
  | stays
      (ended : loop.phase = .ended) :
      loop.Turn found loop []
  | ends
      (stopped : found.stopped = true)
      (sleeping : loop.phase = .sleeping) :
      loop.Turn found { loop with phase := .ended } [.ended found.now]
  | cutsOff
      (stopped : found.stopped = true)
      (inTick : loop.phase.inTick = true) :
      loop.Turn found { loop with phase := .ended }
        [.cutOff found.now, .ended found.now]
  | sleeps
      (goes : found.stopped = false)
      (sleeping : loop.phase = .sleeping)
      (early : ¬ loop.schedule.deadline ≤ found.now) :
      loop.Turn found loop []
  | counts
      (goes : found.stopped = false)
      (sleeping : loop.phase = .sleeping)
      (passed : loop.schedule.deadline ≤ found.now) :
      loop.Turn found
        { loop with
          counts := { loop.counts with ticks := loop.counts.ticks + 1 }
          phase := .due }
        [.counted found.now]
  | begins
      (goes : found.stopped = false)
      (due : loop.phase = .due)
      (pending : found.answer = .pending) :
      loop.Turn found { loop with phase := .working } [.began found.now]
  | works
      (goes : found.stopped = false)
      (working : loop.phase = .working)
      (pending : found.answer = .pending) :
      loop.Turn found loop []
  | beginsAndFinishes
      (goes : found.stopped = false)
      (due : loop.phase = .due)
      {result : Except Fault Unit}
      (finished : found.answer = .finished result) :
      loop.Turn found (loop.finish found.now result)
        (.began found.now :: loop.finishHappenings found.now result)
  | finishes
      (goes : found.stopped = false)
      (working : loop.phase = .working)
      {result : Except Fault Unit}
      (finished : found.answer = .finished result) :
      loop.Turn found (loop.finish found.now result)
        (loop.finishHappenings found.now result)

/-- Every poll is one of these turns. -/
theorem turn_poll
    (loop : Loop)
    (found : Poll) :
    loop.Turn found (loop.poll found).1 (loop.poll found).2 := by
  obtain ⟨stopped, now, answer⟩ := found
  cases phase : loop.phase with
  | ended =>
      simp only [poll, phase]
      exact .stays phase
  | sleeping =>
      cases stopped with
      | true =>
          simp only [poll, phase, ↓reduceIte]
          exact .ends rfl phase
      | false =>
          by_cases passed : loop.schedule.deadline ≤ now
          · simp only [poll, phase, passed, Bool.false_eq_true, ↓reduceIte]
            exact .counts rfl phase passed
          · simp only [poll, phase, passed, Bool.false_eq_true, ↓reduceIte]
            exact .sleeps rfl phase passed
  | due =>
      cases stopped with
      | true =>
          simp only [poll, phase, ↓reduceIte]
          exact .cutsOff rfl (by rw [phase]; rfl)
      | false =>
          simp only [poll, phase, Bool.false_eq_true, ↓reduceIte]
          cases answer with
          | pending =>
              exact .begins rfl phase rfl
          | finished result =>
              exact .beginsAndFinishes rfl phase rfl
  | working =>
      cases stopped with
      | true =>
          simp only [poll, phase, ↓reduceIte]
          exact .cutsOff rfl (by rw [phase]; rfl)
      | false =>
          simp only [poll, phase, Bool.false_eq_true, ↓reduceIte]
          cases answer with
          | pending =>
              have same : { loop with phase := .working } = loop := by
                rw [← phase]
              simp only [pollTask, same]
              exact .works rfl phase rfl
          | finished result =>
              exact .finishes rfl phase rfl

end Loop

end PositionFeed
