import PositionFeed.Proofs.Run
import PositionFeed.Proofs.Schedule.Tally
import PositionFeed.Stop.Signal

namespace PositionFeed

/-!
# Stopping a loop

A loop watches a stop signal that anybody may trigger at any moment, its own
task included.  The poll that finds the signal triggered is the last one that
does anything: it ends the loop, whether a deadline has passed or a task has
not finished.  A task that triggers the signal and finishes in the same poll is
not cut off, since the signal was looked at before.

What the loop counts until then is what has happened in it.
-/

namespace Loop

/-- What happens in a loop that sees the signal. -/
def lastHappenings (loop : Loop) (now : Instant) : List Happening :=
  match loop.phase with
  | .ended => []
  | .sleeping => [.ended now]
  | _ => [.cutOff now, .ended now]

/-- A loop that sees the signal ends, whatever else it finds. -/
theorem poll_of_stopped
    (loop : Loop)
    (now : Instant)
    (answer : TaskAnswer) :
    loop.poll ⟨true, now, answer⟩ =
      ({ loop with phase := .ended }, loop.lastHappenings now) := by
  obtain ⟨ticker, task, schedule, counts, phase⟩ := loop
  cases phase <;> rfl

/-- A task that is asked and finishes is counted, signal or not. -/
theorem poll_of_finished
    {loop : Loop}
    (inTick : loop.phase.inTick = true)
    (now : Instant)
    (result : Except Fault Unit) :
    (loop.poll ⟨false, now, .finished result⟩).1 = loop.finish now result ∧
      .finished now result ∈ (loop.poll ⟨false, now, .finished result⟩).2 := by
  cases phase : loop.phase with
  | sleeping =>
      simp [phase, LoopPhase.inTick] at inTick
  | due =>
      simp [poll, phase, pollTask, finishHappenings]
  | working =>
      simp [poll, phase, pollTask, finishHappenings]
  | ended =>
      simp [phase, LoopPhase.inTick] at inTick

end Loop

/-! ## The signal -/

/-- A loop and the stop signal that it watches. -/
structure Watch where
  loop : Loop
  signal : StopSignal
  /-- The tokens, of which the signal has one. -/
  tokens : Tokens

/-- What happens to a loop and its signal. -/
inductive WatchMove where
  /-- Somebody raises the flag of the signal. -/
  | raise
  /-- Somebody cancels the token of the signal. -/
  | cancel
  /-- The loop is polled at a time.  Its task, if it is asked, gives the answer,
  and it may trigger the signal before it does. -/
  | poll (now : Instant) (answer : TaskAnswer) (triggers : Bool)

namespace Watch

/-- A loop that was not polled, and a signal that may have been triggered. -/
def begin
    (ticker : Ticker)
    (task : String)
    (start : Instant)
    (signal : StopSignal)
    (tokens : Tokens) : Watch :=
  ⟨Loop.begin ticker task start, signal, tokens⟩

/-- Whether the loop sees the signal when it is polled. -/
def isTriggered (watch : Watch) : Bool :=
  watch.signal.isTriggered watch.tokens

/-- Whether a poll asks the task. -/
def asksTask (watch : Watch) : Bool :=
  watch.loop.phase.inTick && ! watch.isTriggered

/-- The loop and its signal after somebody triggered it. -/
def trigger (watch : Watch) : Watch :=
  let (_, signal, tokens) := watch.signal.trigger watch.tokens
  { watch with signal := signal, tokens := tokens }

/-- What a poll finds. -/
def found (watch : Watch) (now : Instant) (answer : TaskAnswer) : Poll :=
  ⟨watch.isTriggered, now, answer⟩

def move (watch : Watch) : WatchMove → Watch
  | .raise => { watch with signal := watch.signal.raise.2 }
  | .cancel => { watch with tokens := watch.signal.cancel watch.tokens }
  | .poll now answer triggers =>
      let polled :=
        { watch with loop := (watch.loop.poll (watch.found now answer)).1 }
      if triggers && watch.asksTask then polled.trigger else polled

/-- What happens in the loop over a move. -/
def happens (watch : Watch) : WatchMove → List Happening
  | .poll now answer _ => (watch.loop.poll (watch.found now answer)).2
  | _ => []

/-- Makes moves one after the other. -/
def moves (watch : Watch) (list : List WatchMove) : Watch :=
  list.foldl move watch

/-- What happens in the loop over moves. -/
def happenings (watch : Watch) (list : List WatchMove) : List Happening :=
  Run.yielded move happens watch list

@[simp] theorem moves_concat
    (watch : Watch)
    (list : List WatchMove)
    (next : WatchMove) :
    watch.moves (list ++ [next]) = (watch.moves list).move next := by
  simp [moves]

theorem happenings_concat
    (watch : Watch)
    (list : List WatchMove)
    (next : WatchMove) :
    watch.happenings (list ++ [next]) =
      watch.happenings list ++ (watch.moves list).happens next :=
  Run.yielded_concat _ _ watch list next

@[simp] theorem isTriggered_trigger
    (watch : Watch) :
    watch.trigger.isTriggered = true :=
  Tokens.isCancelled_cancel_self _ _

/-- A move leaves the loop as it is or polls it. -/
theorem loop_move
    (watch : Watch)
    (next : WatchMove) :
    ((watch.move next).loop = watch.loop ∧ watch.happens next = []) ∨
      ∃ now answer,
        (watch.move next).loop =
            (watch.loop.poll (watch.found now answer)).1 ∧
          watch.happens next =
            (watch.loop.poll (watch.found now answer)).2 := by
  cases next with
  | raise =>
      exact .inl ⟨rfl, rfl⟩
  | cancel =>
      exact .inl ⟨rfl, rfl⟩
  | poll now answer triggers =>
      refine .inr ⟨now, answer, ?_, rfl⟩
      simp only [move]
      split <;> rfl

/-- A signal that was triggered stays so. -/
theorem isTriggered_move
    {watch : Watch}
    (triggered : watch.isTriggered = true)
    (next : WatchMove) :
    (watch.move next).isTriggered = true := by
  cases next with
  | raise =>
      exact triggered
  | cancel =>
      exact Tokens.isCancelled_cancel_self _ _
  | poll now answer triggers =>
      simp only [move]
      split
      · exact isTriggered_trigger _
      · exact triggered

/-- A loop that has ended stays as it is, and nothing happens in it. -/
theorem moves_of_ended
    {watch : Watch}
    (ended : watch.loop.phase = .ended)
    (list : List WatchMove) :
    (watch.moves list).loop = watch.loop ∧ watch.happenings list = [] := by
  induction list generalizing watch with
  | nil =>
      exact ⟨rfl, rfl⟩
  | cons next rest inductionHypothesis =>
      have quiet : (watch.move next).loop = watch.loop ∧
          watch.happens next = [] := by
        rcases watch.loop_move next with unmoved | ⟨now, answer, moved, happened⟩
        · exact unmoved
        · rw [moved, happened]
          simp [Loop.poll, ended]
      obtain ⟨sameNow, nothingNow⟩ := quiet
      have stillEnded : (watch.move next).loop.phase = .ended := by
        rw [sameNow]
        exact ended
      obtain ⟨sameLater, nothingLater⟩ := inductionHypothesis stillEnded
      constructor
      · exact sameLater.trans sameNow
      · have happenings :
            watch.happenings (next :: rest) =
              watch.happens next ++ (watch.move next).happenings rest := rfl
        rw [happenings, nothingNow, nothingLater]
        rfl

/-- The poll that finds the signal triggered ends the loop for good. -/
theorem moves_of_observed
    {watch : Watch}
    (triggered : watch.isTriggered = true)
    (now : Instant)
    (answer : TaskAnswer)
    (triggers : Bool)
    (later : List WatchMove) :
    (watch.moves (.poll now answer triggers :: later)).loop =
        { watch.loop with phase := .ended } ∧
      watch.happenings (.poll now answer triggers :: later) =
        watch.loop.lastHappenings now := by
  have found : watch.found now answer = ⟨true, now, answer⟩ := by
    rw [Watch.found, triggered]
  have polled :
      watch.loop.poll (watch.found now answer) =
        ({ watch.loop with phase := .ended },
          watch.loop.lastHappenings now) := by
    rw [found, Loop.poll_of_stopped]
  have after :
      (watch.move (.poll now answer triggers)).loop =
        { watch.loop with phase := .ended } := by
    simp [move, asksTask, triggered, polled]
  have ended :
      (watch.move (.poll now answer triggers)).loop.phase = .ended := by
    rw [after]
  obtain ⟨same, nothing⟩ := moves_of_ended ended later
  constructor
  · exact same.trans after
  · have happenings :
        watch.happenings (.poll now answer triggers :: later) =
          (watch.loop.poll (watch.found now answer)).2 ++
            (watch.move (.poll now answer triggers)).happenings later := rfl
    rw [happenings, nothing, polled, List.append_nil]

/-- The tally is kept over every run. -/
theorem tallies_moves
    (ticker : Ticker)
    (task : String)
    (start : Instant)
    (signal : StopSignal)
    (tokens : Tokens)
    (list : List WatchMove) :
    let watch := begin ticker task start signal tokens
    (watch.moves list).loop.Tallies (.begin ticker.period start)
      (watch.happenings list) := by
  intro watch
  induction list using List.reverseRecOn with
  | nil =>
      exact .begin ticker task start
  | append_singleton list next inductionHypothesis =>
      rw [moves_concat, happenings_concat]
      rcases (watch.moves list).loop_move next with
        ⟨same, nothing⟩ | ⟨now, answer, moved, happened⟩
      · rw [same, nothing, List.append_nil]
        exact inductionHypothesis
      · rw [moved, happened]
        exact inductionHypothesis.poll _

/-- What a loop has done that was never polled without the signal: nothing. -/
structure Untouched (watch : Watch) (happenings : List Happening) : Prop where
  triggered : watch.isTriggered = true
  counts : watch.loop.counts = .zero
  outOfTick : watch.loop.phase.inTick = false
  onlyEnds : ∀ happening ∈ happenings, ∃ time, happening = .ended time

theorem Untouched.move
    {watch : Watch}
    {happenings : List Happening}
    (untouched : watch.Untouched happenings)
    (next : WatchMove) :
    (watch.move next).Untouched (happenings ++ watch.happens next) := by
  have triggered := untouched.triggered
  rcases watch.loop_move next with ⟨same, nothing⟩ | ⟨now, answer, moved, happened⟩
  · rw [nothing, List.append_nil]
    exact {
      triggered := isTriggered_move triggered next
      counts := same ▸ untouched.counts
      outOfTick := same ▸ untouched.outOfTick
      onlyEnds := untouched.onlyEnds
    }
  · have found : watch.found now answer = ⟨true, now, answer⟩ := by
      rw [Watch.found, triggered]
    rw [found, Loop.poll_of_stopped] at moved happened
    refine {
      triggered := isTriggered_move triggered next
      counts := ?_
      outOfTick := ?_
      onlyEnds := ?_
    }
    · rw [moved]
      exact untouched.counts
    · rw [moved]
      rfl
    · intro happening member
      rcases List.mem_append.mp member with before | isLast
      · exact untouched.onlyEnds happening before
      · rw [happened] at isLast
        have outOfTick := untouched.outOfTick
        cases phase : watch.loop.phase with
        | sleeping =>
            simp [Loop.lastHappenings, phase] at isLast
            exact ⟨now, isLast⟩
        | due =>
            simp [phase, LoopPhase.inTick] at outOfTick
        | working =>
            simp [phase, LoopPhase.inTick] at outOfTick
        | ended =>
            simp [Loop.lastHappenings, phase] at isLast

theorem Untouched.moves
    {watch : Watch}
    (untouched : watch.Untouched [])
    (list : List WatchMove) :
    (watch.moves list).Untouched (watch.happenings list) := by
  induction list using List.reverseRecOn with
  | nil =>
      exact untouched
  | append_singleton list next inductionHypothesis =>
      rw [moves_concat, happenings_concat]
      exact inductionHypothesis.move next

/-- A task that is asked and finishes is counted with its result, though it
may have triggered the signal. -/
theorem move_of_finished
    {watch : Watch}
    (asked : watch.asksTask = true)
    (now : Instant)
    (result : Except Fault Unit)
    (triggers : Bool) :
    let next := .poll now (.finished result) triggers
    .finished now result ∈ watch.happens next ∧
      (watch.move next).loop = watch.loop.finish now result ∧
      (triggers = true → (watch.move next).isTriggered = true) := by
  intro next
  have asks := asked
  simp only [asksTask, Bool.and_eq_true, Bool.not_eq_true'] at asks
  obtain ⟨inTick, goes⟩ := asks
  have found :
      watch.found now (.finished result) = ⟨false, now, .finished result⟩ := by
    rw [Watch.found, goes]
  obtain ⟨finished, happened⟩ := Loop.poll_of_finished inTick now result
  refine ⟨?_, ?_, ?_⟩
  · simpa only [next, happens, found] using happened
  · simp only [next, move, asked, found, finished, Bool.and_true]
    split <;> rfl
  · rintro rfl
    simp [next, move, asked]

/-- What is promised of a loop that watches a signal, over a run. -/
structure Heeds
    (start : Watch)
    (list : List WatchMove) : Prop where
  /-- The poll that finds the signal triggered ends the loop, whether its
  deadline has passed and whether its task would finish: it counts nothing, and
  neither does anything happen later. -/
  observed :
    ∀ earlier now answer triggers later,
      list = earlier ++ .poll now answer triggers :: later →
      (start.moves earlier).isTriggered = true →
      (start.moves list).loop =
          { (start.moves earlier).loop with phase := .ended } ∧
        start.happenings list =
          start.happenings earlier ++
            (start.moves earlier).loop.lastHappenings now
  /-- A task that is asked before the signal is seen and finishes at once is
  counted with its result, and the schedule moves on once, also if the task has
  triggered the signal itself. -/
  finishes :
    ∀ earlier now result triggers later,
      list = earlier ++ .poll now (.finished result) triggers :: later →
      (start.moves earlier).asksTask = true →
      let before := start.moves earlier
      let after := start.moves (earlier ++ [.poll now (.finished result) triggers])
      .finished now result ∈ before.happens (.poll now (.finished result) triggers) ∧
        after.loop.counts.ticks = before.loop.counts.ticks ∧
        after.loop.counts.failed =
          before.loop.counts.failed + (faultOf result).toList.length ∧
        after.loop.schedule = before.loop.schedule.advance now ∧
        after.loop.phase = .sleeping ∧
        (triggers = true → after.isTriggered = true)
  /-- Every counted tick has finished, was cut off, or goes on. -/
  ticks :
    (start.moves list).loop.counts.ticks =
      ((start.happenings list).filterMap Happening.finished?).length +
        ((start.happenings list).filterMap Happening.cutOff?).length +
        (start.moves list).loop.phase.inTick.toNat
  /-- At most one tick was cut off, and the loop has ended then. -/
  cutOff :
    ((start.happenings list).filterMap Happening.cutOff?).length ≤ 1 ∧
      ((start.moves list).loop.phase ≠ .ended →
        (start.happenings list).filterMap Happening.cutOff? = [])
  /-- A loop that has ended counted the ticks that finished, and perhaps one
  that was cut off. -/
  ended :
    (start.moves list).loop.phase = .ended →
      (start.moves list).loop.counts.ticks =
          ((start.happenings list).filterMap Happening.finished?).length ∨
        (start.moves list).loop.counts.ticks =
            ((start.happenings list).filterMap Happening.finished?).length + 1 ∧
          ∃ time, .cutOff time ∈ start.happenings list
  /-- Only ticks that finished with a fault count as failed. -/
  failed :
    (start.moves list).loop.counts.failed =
      ((start.happenings list).filterMap Happening.failed?).length
  resyncs :
    (start.moves list).loop.counts.resyncs =
      ((start.happenings list).filterMap Happening.resynced?).length
  /-- The schedule has moved on once for each tick that finished. -/
  schedule :
    (start.moves list).loop.schedule =
      ((start.happenings list).filterMap Happening.finished?).foldl
        Schedule.advance start.loop.schedule
  /-- If the signal was triggered before, nothing is counted and no task
  begins. -/
  triggeredBefore :
    start.isTriggered = true →
      (start.moves list).loop.counts = .zero ∧
        ∀ happening ∈ start.happenings list, ∃ time, happening = .ended time

/-- In every run a loop heeds its stop signal, whoever triggers it and
whenever. -/
theorem every_run_heeds_the_signal
    (ticker : Ticker)
    (task : String)
    (start : Instant)
    (signal : StopSignal)
    (tokens : Tokens)
    (list : List WatchMove) :
    (begin ticker task start signal tokens).Heeds list := by
  have tallies := tallies_moves ticker task start signal tokens list
  refine {
    observed := ?_
    finishes := ?_
    ticks := tallies.ticks
    cutOff := ⟨tallies.cutOnce, tallies.uncut⟩
    ended := ?_
    failed := tallies.failed
    resyncs := tallies.resyncs
    schedule := tallies.schedule
    triggeredBefore := ?_
  }
  · rintro earlier now answer triggers later rfl triggered
    obtain ⟨last, words⟩ := moves_of_observed triggered now answer triggers later
    constructor
    · rw [← last]
      simp [moves]
    · rw [← words]
      exact Run.yielded_append _ _ _ _ _
  · rintro earlier now result triggers later rfl asked before after
    obtain ⟨happened, finished, seen⟩ :=
      move_of_finished asked now result triggers
    have isAfter : after = before.move (.poll now (.finished result) triggers) :=
      moves_concat _ _ _
    rw [isAfter, finished, Loop.counts_finish]
    exact ⟨happened, rfl, rfl, rfl, rfl, seen⟩
  · intro hasEnded
    rcases tallies.ticks_cases with ⟨ticks, _⟩ | ⟨ticks, goesOn | cutOff⟩
    · exact .inl ticks
    · simp [hasEnded, LoopPhase.inTick] at goesOn
    · exact .inr ⟨ticks, cutOff⟩
  · intro triggered
    have begun : (begin ticker task start signal tokens).Untouched [] :=
      ⟨triggered, rfl, rfl, by simp⟩
    have untouched := begun.moves list
    exact ⟨untouched.counts, untouched.onlyEnds⟩

/-- The second tick triggers the signal and then has to wait, so it is cut off,
though its task would finish with a fault now. -/
example :
    let watch := Watch.begin ⟨"loop", .ofMillis 10⟩ "task" .origin
      ⟨⟨0, []⟩, false⟩ ⟨1, []⟩
    let moves : List WatchMove :=
      [.poll ⟨10000000⟩ .pending false,
        .poll ⟨10000000⟩ (.finished (.ok ())) false,
        .poll ⟨20000000⟩ .pending false, .poll ⟨20000000⟩ .pending true,
        .raise, .poll ⟨30000000⟩ (.finished (.error (.other "late"))) false]
    (watch.moves moves).loop.counts = ⟨2, 0, 0⟩ ∧
      (watch.moves moves).loop.phase = .ended := by
  decide

end Watch

end PositionFeed
