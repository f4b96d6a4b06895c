import Mathlib.Data.List.Chain
import Mathlib.Data.List.ModifyLast
import PositionFeed.Proofs.Schedule.Turn

namespace PositionFeed

/-!
# The pace of a loop

A loop that fell behind may catch up on its grid, but only by as much as the
drift limit lets it.  After every tick the next deadline is at least one period
after the last one, and it is at most two periods behind the end of the tick.
So ticks can only draw together by three periods over a whole run, however
late the loop was woken and however long its task took, and no span of time
holds more than four ticks beyond those that its length is worth.
-/

/-! ## Instants as numbers -/

theorem Instant.le_iff
    {first second : Instant} :
    first ≤ second ↔ first.nanos ≤ second.nanos :=
  Iff.rfl

theorem Instant.lt_iff
    {first second : Instant} :
    first < second ↔ first.nanos < second.nanos :=
  Iff.rfl

@[simp] theorem Instant.nanos_after
    (instant : Instant)
    (span : Span) :
    (instant.after span).nanos = instant.nanos + span.nanos := rfl

@[simp] theorem Span.nanos_times
    (span : Span)
    (count : Nat) :
    (span.times count).nanos = span.nanos * count := rfl

/-! ## Ticks -/

/-- A tick whose task began. -/
structure Tick where
  /-- The deadline that the loop had waited for. -/
  deadline : Instant
  /-- When the task began. -/
  start : Instant
  /-- When the task finished, if it did. -/
  finish : Option Instant
  /-- How far behind the deadline was that was given up after the tick. -/
  lag : Option Span
  deriving DecidableEq

namespace Happening

def began? : Happening → Option Instant
  | .began time => some time
  | _ => none

def finished? : Happening → Option Instant
  | .finished time _ => some time
  | _ => none

def resynced? : Happening → Option Span
  | .resynced lag => some lag
  | _ => none

end Happening

/-- The ticks after one more happening in a loop with the given deadline. -/
def Tick.noted
    (deadline : Instant)
    (ticks : List Tick) :
    Happening → List Tick
  | .began time => ticks ++ [⟨deadline, time, none, none⟩]
  | .finished time _ =>
      ticks.modifyLast fun tick => { tick with finish := some time }
  | .resynced lag =>
      ticks.modifyLast fun tick => { tick with lag := some lag }
  | _ => ticks

/-- The given ticks, and those that a loop makes over polls. -/
def Loop.ticks
    (loop : Loop)
    (ticks : List Tick) :
    List Poll → List Tick
  | [] => ticks
  | found :: rest =>
      let (after, happenings) := loop.poll found
      after.ticks
        (happenings.foldl (Tick.noted loop.schedule.deadline) ticks) rest

/-- Ticks tell of happenings when each of their beginnings, ends and lags
happened, in this order, and nothing else of the kind did. -/
structure Tick.Tell
    (ticks : List Tick)
    (happenings : List Happening) : Prop where
  starts :
    ticks.map Tick.start = happenings.filterMap Happening.began?
  finishes :
    ticks.filterMap Tick.finish = happenings.filterMap Happening.finished?
  lags :
    ticks.filterMap Tick.lag = happenings.filterMap Happening.resynced?

namespace Tick.Tell

theorem append
    {ticks more : List Tick}
    {happenings later : List Happening}
    (tell : Tell ticks happenings)
    (tellMore : Tell more later) :
    Tell (ticks ++ more) (happenings ++ later) where
  starts := by
    rw [List.map_append, List.filterMap_append, tell.starts, tellMore.starts]
  finishes := by
    rw [List.filterMap_append, List.filterMap_append, tell.finishes,
      tellMore.finishes]
  lags := by
    rw [List.filterMap_append, List.filterMap_append, tell.lags, tellMore.lags]

/-- The last tick finishes, and its deadline may be given up. -/
theorem finish
    {before : List Tick}
    {loop : Loop}
    {start : Instant}
    {happenings : List Happening}
    (tell :
      Tell (before ++ [⟨loop.schedule.deadline, start, none, none⟩]) happenings)
    (now : Instant)
    (result : Except Fault Unit) :
    Tell
      (before ++ [⟨loop.schedule.deadline, start, some now,
        loop.schedule.lag? now⟩])
      (happenings ++ loop.finishHappenings now result) where
  starts := by
    have starts := tell.starts
    rw [List.map_append] at starts ⊢
    rw [List.filterMap_append, ← starts]
    cases lag : loop.schedule.lag? now <;>
      simp [Loop.finishHappenings, lag, Happening.began?]
  finishes := by
    have finishes := tell.finishes
    rw [List.filterMap_append] at finishes ⊢
    rw [List.filterMap_append, ← finishes]
    cases lag : loop.schedule.lag? now <;>
      simp [Loop.finishHappenings, lag, Happening.finished?]
  lags := by
    have lags := tell.lags
    rw [List.filterMap_append] at lags ⊢
    rw [List.filterMap_append, ← lags]
    cases lag : loop.schedule.lag? now with
    | none =>
        simp [Loop.finishHappenings, lag, Happening.resynced?]
    | some span =>
        simp [Loop.finishHappenings, lag]
        rfl

end Tick.Tell

/-- The ticks that a loop notes when its task finishes. -/
theorem Tick.foldl_noted_finish
    (loop : Loop)
    (before : List Tick)
    (start now : Instant)
    (result : Except Fault Unit) :
    (loop.finishHappenings now result).foldl
        (Tick.noted loop.schedule.deadline)
        (before ++ [⟨loop.schedule.deadline, start, none, none⟩]) =
      before ++ [⟨loop.schedule.deadline, start, some now,
        loop.schedule.lag? now⟩] := by
  cases lag : loop.schedule.lag? now <;>
    simp [Loop.finishHappenings, lag, Tick.noted, List.modifyLast_concat]

/-- A tick is over at a time, and a deadline may follow it. -/
structure Tick.Releases
    (period : Span)
    (tick : Tick)
    (deadline time : Instant) : Prop where
  ended :
    ∃ finish, tick.finish = some finish ∧ tick.start ≤ finish ∧
      finish ≤ time ∧
        (tick.lag.isSome = true → finish.after period ≤ deadline)
  apart :
    tick.deadline.after period ≤ deadline
  near :
    tick.start ≤ deadline.after (period.times Schedule.driftLimit)

theorem Tick.Releases.later
    {period : Span}
    {tick : Tick}
    {deadline time later : Instant}
    (releases : tick.Releases period deadline time)
    (notBefore : time ≤ later) :
    tick.Releases period deadline later := by
  obtain ⟨finish, isFinish, afterStart, byTime, rested⟩ := releases.ended
  exact {
    ended := ⟨finish, isFinish, afterStart, Nat.le_trans byTime notBefore,
      rested⟩
    apart := releases.apart
    near := releases.near
  }

/-- What an advance of the schedule makes of a tick that just finished. -/
theorem Tick.releases_advance
    {schedule : Schedule}
    {start now : Instant}
    (punctual : schedule.deadline ≤ start)
    (begun : start ≤ now) :
    (Tick.mk schedule.deadline start (some now) (schedule.lag? now)).Releases
      schedule.period (schedule.advance now).deadline now := by
  rw [Instant.le_iff] at punctual begun
  by_cases late : schedule.patience < now
  · have lag :
        schedule.lag? now = some (schedule.following.spanTo now) :=
      if_pos late
    have deadline :
        (schedule.advance now).deadline = now.after schedule.period := by
      simp only [Schedule.advance, lag]
    rw [deadline]
    refine {
      ended := ⟨now, rfl, begun, Nat.le_refl _, fun _ => Nat.le_refl _⟩
      apart := ?_
      near := ?_
    }
    · simp only [Instant.le_iff, Instant.nanos_after]
      omega
    · simp only [Instant.le_iff, Instant.nanos_after]
      omega
  · have lag : schedule.lag? now = none :=
      if_neg late
    have deadline :
        (schedule.advance now).deadline = schedule.following := by
      simp only [Schedule.advance, lag]
    rw [deadline, lag]
    refine {
      ended := ⟨now, rfl, begun, Nat.le_refl _, nofun⟩
      apart := Nat.le_refl _
      near := ?_
    }
    -- The schedule kept its grid, so the tick ended while there was patience.
    have patient : now ≤ schedule.patience :=
      Nat.le_of_not_lt late
    exact Nat.le_trans begun patient

/-- A row of ticks that each begin after their deadlines, the one before having
released the next one. -/
structure Tick.Row
    (period : Span)
    (ticks : List Tick) : Prop where
  punctual :
    ∀ tick ∈ ticks, tick.deadline ≤ tick.start
  released :
    ticks.IsChain fun before next =>
      before.Releases period next.deadline next.start

namespace Tick.Row

variable
  {period : Span}
  {ticks : List Tick}

/-- One more tick comes to a row that lets it begin. -/
theorem concat
    (row : Row period ticks)
    {next : Tick}
    (punctual : next.deadline ≤ next.start)
    (releases :
      ∀ last ∈ ticks.getLast?,
        last.Releases period next.deadline next.start) :
    Row period (ticks ++ [next]) where
  punctual tick member := by
    rcases List.mem_append.mp member with before | isNext
    · exact row.punctual tick before
    · rw [List.mem_singleton.mp isNext]
      exact punctual
  released := by
    refine List.isChain_append.mpr
      ⟨row.released, List.isChain_singleton _, ?_⟩
    rintro last isLast tick ⟨⟩
    exact releases last isLast

/-- Whatever the last tick of a row comes to, it was let begin. -/
theorem last
    {before : List Tick}
    {next : Tick}
    (row : Row period (before ++ [next])) :
    Row period before ∧ next.deadline ≤ next.start ∧
      ∀ last ∈ before.getLast?,
        last.Releases period next.deadline next.start := by
  obtain ⟨chain, _, link⟩ := List.isChain_append.mp row.released
  refine ⟨⟨?_, chain⟩, ?_, ?_⟩
  · intro tick member
    exact row.punctual tick (List.mem_append_left _ member)
  · exact row.punctual next
      (List.mem_append_right _ (List.mem_singleton_self _))
  · intro last isLast
    exact link last isLast next rfl

theorem tail
    {first : Tick}
    (row : Row period (first :: ticks)) :
    Row period ticks where
  punctual tick member := row.punctual tick (List.mem_cons_of_mem _ member)
  released := row.released.tail

end Tick.Row

/-! ## One poll -/

/-- What a poll at a time can make of a loop, and what happens in it. -/
inductive Loop.Moves (loop : Loop) (now : Instant) :
    Loop → List Happening → Prop where
  | rests : loop.Moves now loop []
  | ends : loop.Moves now { loop with phase := .ended } [.ended now]
  | cutsOff :
      loop.Moves now { loop with phase := .ended } [.cutOff now, .ended now]
  | counts
      (sleeping : loop.phase = .sleeping)
      (passed : loop.schedule.deadline ≤ now)
      (counts : ScheduleCounts) :
      loop.Moves now { loop with counts := counts, phase := .due }
        [.counted now]
  | begins
      (due : loop.phase = .due) :
      loop.Moves now { loop with phase := .working } [.began now]
  | beginsAndFinishes
      (due : loop.phase = .due)
      (result : Except Fault Unit) :
      loop.Moves now (loop.finish now result)
        (.began now :: loop.finishHappenings now result)
  | finishes
      (working : loop.phase = .working)
      (result : Except Fault Unit) :
      loop.Moves now (loop.finish now result)
        (loop.finishHappenings now result)

theorem Loop.moves_poll
    (loop : Loop)
    (found : Poll) :
    loop.Moves found.now (loop.poll found).1 (loop.poll found).2 := by
  have turn := loop.turn_poll found
  generalize loop.poll found = polled at turn ⊢
  obtain ⟨after, happened⟩ := polled
  cases turn with
  | stays ended =>
      exact .rests
  | ends stopped sleeping =>
      exact .ends
  | cutsOff stopped inTick =>
      exact .cutsOff
  | sleeps goes sleeping early =>
      exact .rests
  | counts goes sleeping passed =>
      exact .counts sleeping passed _
  | begins goes due pending =>
      exact .begins due
  | works goes working pending =>
      exact .rests
  | beginsAndFinishes goes due finished =>
      exact .beginsAndFinishes due _
  | finishes goes working finished =>
      exact .finishes working _

/-- A loop at a time after these ticks and these happenings. -/
structure Loop.Paces
    (period : Span)
    (loop : Loop)
    (now : Instant)
    (ticks : List Tick)
    (happenings : List Happening) : Prop where
  tell :
    Tick.Tell ticks happenings
  periodIs :
    loop.schedule.period = period
  row :
    Tick.Row period ticks
  sleeping :
    loop.phase = .sleeping →
      ∀ last ∈ ticks.getLast?,
        last.Releases period loop.schedule.deadline now
  due :
    loop.phase = .due →
      loop.schedule.deadline ≤ now ∧
        ∀ last ∈ ticks.getLast?,
          last.Releases period loop.schedule.deadline now
  working :
    loop.phase = .working →
      ∃ before start,
        ticks = before ++ [⟨loop.schedule.deadline, start, none, none⟩] ∧
          start ≤ now

namespace Loop.Paces

variable
  {period : Span}
  {loop : Loop}
  {now : Instant}
  {ticks : List Tick}
  {happenings : List Happening}

theorem begin
    (ticker : Ticker)
    (task : String)
    (start now : Instant) :
    (Loop.begin ticker task start).Paces ticker.period now [] [] where
  tell := ⟨rfl, rfl, rfl⟩
  periodIs := rfl
  row := ⟨by simp, .nil⟩
  sleeping := by simp
  due := nofun
  working := nofun

theorem later
    (paces : loop.Paces period now ticks happenings)
    {later : Instant}
    (notBefore : now ≤ later) :
    loop.Paces period later ticks happenings where
  tell := paces.tell
  periodIs := paces.periodIs
  row := paces.row
  sleeping isSleeping last isLast :=
    (paces.sleeping isSleeping last isLast).later notBefore
  due isDue := by
    obtain ⟨passed, releases⟩ := paces.due isDue
    exact ⟨Nat.le_trans passed notBefore,
      fun last isLast => (releases last isLast).later notBefore⟩
  working isWorking := by
    obtain ⟨before, start, shape, begun⟩ := paces.working isWorking
    exact ⟨before, start, shape, Nat.le_trans begun notBefore⟩

/-- The loop ends, and a tick that had begun stays as it is. -/
theorem stop
    (paces : loop.Paces period now ticks happenings)
    {last : List Happening}
    (silent : Tick.Tell [] last) :
    ({ loop with phase := .ended } : Loop).Paces period now ticks
      (happenings ++ last) where
  tell := by
    simpa using paces.tell.append silent
  periodIs := paces.periodIs
  row := paces.row
  sleeping := nofun
  due := nofun
  working := nofun

/-- The deadline has passed, and a tick is counted. -/
theorem count
    (paces : loop.Paces period now ticks happenings)
    (isSleeping : loop.phase = .sleeping)
    (passed : loop.schedule.deadline ≤ now)
    (counts : ScheduleCounts) :
    ({ loop with counts := counts, phase := .due } : Loop).Paces period now
      ticks (happenings ++ [.counted now]) where
  tell := by
    have silent : Tick.Tell [] [.counted now] := ⟨rfl, rfl, rfl⟩
    simpa using paces.tell.append silent
  periodIs := paces.periodIs
  row := paces.row
  sleeping := nofun
  due _ := ⟨passed, paces.sleeping isSleeping⟩
  working := nofun

/-- The task of a tick begins. -/
theorem startWork
    (paces : loop.Paces period now ticks happenings)
    (isDue : loop.phase = .due) :
    ({ loop with phase := .working } : Loop).Paces period now
      (ticks ++ [⟨loop.schedule.deadline, now, none, none⟩])
      (happenings ++ [.began now]) := by
  obtain ⟨passed, releases⟩ := paces.due isDue
  exact {
    tell := paces.tell.append ⟨rfl, rfl, rfl⟩
    periodIs := paces.periodIs
    row := paces.row.concat passed releases
    sleeping := nofun
    due := nofun
    working := fun _ => ⟨ticks, now, rfl, Nat.le_refl _⟩
  }

/-- The task of a tick finishes. -/
theorem finish
    (paces : loop.Paces period now ticks happenings)
    (isWorking : loop.phase = .working)
    (result : Except Fault Unit) :
    (loop.finish now result).Paces period now
      ((loop.finishHappenings now result).foldl
        (Tick.noted loop.schedule.deadline) ticks)
      (happenings ++ loop.finishHappenings now result) := by
  obtain ⟨before, start, rfl, begun⟩ := paces.working isWorking
  obtain ⟨row, punctual, released⟩ := paces.row.last
  have releases := Tick.releases_advance punctual begun
  rw [paces.periodIs] at releases
  rw [Tick.foldl_noted_finish]
  refine {
    tell := paces.tell.finish now result
    periodIs := ?_
    row := row.concat punctual released
    sleeping := ?_
    due := nofun
    working := nofun
  }
  · rw [← paces.periodIs]
    simp only [Loop.finish, Schedule.advance]
    split <;> rfl
  · intro _ last isLast
    rw [List.getLast?_concat] at isLast
    cases isLast
    exact releases

/-- A loop keeps its pace over one poll. -/
theorem poll
    (paces : loop.Paces period now ticks happenings)
    {found : Poll}
    (notBefore : now ≤ found.now) :
    (loop.poll found).1.Paces period found.now
      ((loop.poll found).2.foldl (Tick.noted loop.schedule.deadline) ticks)
      (happenings ++ (loop.poll found).2) := by
  have here := paces.later notBefore
  have moves := loop.moves_poll found
  generalize loop.poll found = polled at moves ⊢
  obtain ⟨after, happened⟩ := polled
  cases moves with
  | rests =>
      simpa using here
  | ends =>
      exact here.stop ⟨rfl, rfl, rfl⟩
  | cutsOff =>
      exact here.stop ⟨rfl, rfl, rfl⟩
  | counts isSleeping passed counts =>
      exact here.count isSleeping passed counts
  | begins isDue =>
      exact here.startWork isDue
  | beginsAndFinishes isDue result =>
      have finished := (here.startWork isDue).finish rfl result
      rw [List.append_assoc] at finished
      exact finished
  | finishes isWorking result =>
      exact here.finish isWorking result

/-- A loop keeps its pace over polls at times that do not go back. -/
theorem run
    (paces : loop.Paces period now ticks happenings)
    {polls : List Poll}
    (ordered : polls.Pairwise fun first second => first.now ≤ second.now)
    (notBefore : ∀ found ∈ polls, now ≤ found.now) :
    ∃ time, (loop.run polls).1.Paces period time
      (loop.ticks ticks polls) (happenings ++ (loop.run polls).2) := by
  induction polls generalizing loop now ticks happenings with
  | nil =>
      exact ⟨now, by simpa [Loop.run, Loop.ticks] using paces⟩
  | cons found rest inductionHypothesis =>
      obtain ⟨first, ordered⟩ := List.pairwise_cons.mp ordered
      have polled := paces.poll (notBefore found List.mem_cons_self)
      obtain ⟨time, kept⟩ := inductionHypothesis polled ordered first
      rw [List.append_assoc] at kept
      exact ⟨time, kept⟩

end Loop.Paces

/-! ## Rows of ticks -/

namespace Tick

variable
  {period : Span}
  {ticks : List Tick}

/-- Deadlines are as far apart as their places are worth. -/
theorem deadline_add_le
    (row : Row period ticks)
    (first gap : Nat)
    (inBounds : first + gap < ticks.length) :
    ticks[first].deadline.nanos + period.nanos * gap ≤
      ticks[first + gap].deadline.nanos := by
  induction gap with
  | zero =>
      simp
  | succ gap inductionHypothesis =>
      have before := inductionHypothesis (by omega)
      have step : ticks[first + gap].deadline.nanos + period.nanos ≤
          ticks[first + (gap + 1)].deadline.nanos :=
        (List.isChain_iff_getElem.mp row.released (first + gap) inBounds).apart
      rw [Nat.mul_succ]
      omega

/-- Beginnings are as far apart as their places are worth, but for three
periods. -/
theorem start_add_le
    (row : Row period ticks)
    (first gap : Nat)
    (inBounds : first + 1 + gap < ticks.length) :
    ticks[first].start.nanos + period.nanos * (gap + 1) ≤
      ticks[first + 1 + gap].start.nanos + period.nanos * 3 := by
  have near :
      ticks[first].start.nanos ≤
        ticks[first + 1].deadline.nanos + period.nanos * 2 :=
    (List.isChain_iff_getElem.mp row.released first (by omega)).near
  have apart := deadline_add_le row (first + 1) gap inBounds
  have begun :
      ticks[first + 1 + gap].deadline.nanos ≤
        ticks[first + 1 + gap].start.nanos :=
    row.punctual _ (List.getElem_mem inBounds)
  rw [Nat.mul_succ]
  omega

/-- A tick that comes so many places after the first of a window begins after
its end. -/
theorem after_window
    {first : Tick}
    (row : Row period (first :: ticks))
    (positive : 0 < period.nanos)
    {opening : Instant}
    (opens : opening ≤ first.start)
    (length : Span)
    {place : Nat}
    (far : length.nanos / period.nanos + 3 ≤ place)
    (inBounds : place < ticks.length) :
    opening.after length < ticks[place].start := by
  have apart :
      first.start.nanos + period.nanos * (place + 1) ≤
        ticks[place].start.nanos + period.nanos * 3 := by
    have spread :=
      start_add_le row 0 place (by simp; omega)
    simpa [Nat.add_comm 1] using spread
  have beyond :
      length.nanos < period.nanos * (length.nanos / period.nanos + 1) :=
    Nat.lt_mul_div_succ length.nanos positive
  have worth :
      period.nanos * (length.nanos / period.nanos + 1) + period.nanos * 3 ≤
        period.nanos * (place + 1) := by
    rw [← Nat.mul_add]
    exact Nat.mul_le_mul_left _ (by omega)
  rw [Instant.le_iff] at opens
  rw [Instant.lt_iff, Instant.nanos_after]
  omega

/-- A window holds at most four ticks beyond those that its length is worth. -/
theorem length_filter_window_le
    (row : Row period ticks)
    (positive : 0 < period.nanos)
    (opening : Instant)
    (length : Span) :
    (ticks.filter fun tick =>
        opening ≤ tick.start ∧ tick.start ≤ opening.after length).length ≤
      length.nanos / period.nanos + 4 := by
  induction ticks with
  | nil =>
      simp
  | cons first rest inductionHypothesis =>
      by_cases opens : opening ≤ first.start
      · -- The first tick after the opening bounds the places of all others.
        let count := length.nanos / period.nanos + 3
        have outside :
            (rest.drop count).filter (fun tick =>
                opening ≤ tick.start ∧ tick.start ≤ opening.after length) =
              [] := by
          rw [List.filter_eq_nil_iff]
          intro tick member inWindow
          obtain ⟨place, inBounds, rfl⟩ := List.getElem_of_mem member
          rw [List.length_drop] at inBounds
          rw [List.getElem_drop] at inWindow
          have after :=
            after_window row positive opens length
              (Nat.le_add_right count place) (by omega)
          exact Nat.not_le_of_lt after (of_decide_eq_true inWindow).2
        rw [← List.take_append_drop count rest, ← List.cons_append,
          List.filter_append, outside, List.append_nil]
        calc
          _ ≤ (first :: rest.take count).length := List.length_filter_le _ _
          _ ≤ length.nanos / period.nanos + 4 := by
            simp only [List.length_cons, List.length_take, count]
            omega
      · rw [List.filter_cons_of_neg (by simp [opens])]
        exact inductionHypothesis row.tail

/-- What is promised of a row of ticks. -/
structure Paced
    (period : Span)
    (ticks : List Tick) : Prop where
  /-- No tick begins before its deadline. -/
  punctual :
    ∀ tick ∈ ticks, tick.deadline ≤ tick.start
  /-- Each tick finishes before the next one begins. -/
  inTurn :
    ∀ place (inBounds : place + 1 < ticks.length),
      ∃ finish, ticks[place].finish = some finish ∧
        ticks[place].start ≤ finish ∧ finish ≤ ticks[place + 1].start
  /-- Deadlines ascend by at least one period a tick. -/
  deadlinesApart :
    ∀ first second (earlier : first < second)
      (inBounds : second < ticks.length),
      ticks[first].deadline < ticks[second].deadline ∧
        ticks[first].deadline.after (period.times (second - first)) ≤
          ticks[second].deadline
  /-- Ticks draw together by at most three periods. -/
  noBurst :
    ∀ first second (earlier : first < second)
      (inBounds : second < ticks.length),
      ticks[first].start.after (period.times (second - first)) ≤
        ticks[second].start.after (period.times 3)
  /-- No span of time holds more than four ticks beyond those that its length
  is worth. -/
  window :
    ∀ (opening : Instant) (length : Span),
      (ticks.filter fun tick =>
          opening ≤ tick.start ∧ tick.start ≤ opening.after length).length ≤
        length.nanos / period.nanos + 4
  /-- After a tick that made the loop give up a deadline the next one begins at
  least one period after its end. -/
  rested :
    ∀ place (inBounds : place + 1 < ticks.length) finish,
      ticks[place].lag.isSome = true → ticks[place].finish = some finish →
        finish.after period ≤ ticks[place + 1].start

/-- A row of ticks keeps the pace. -/
theorem Row.paced
    (row : Row period ticks)
    (positive : 0 < period.nanos) :
    Paced period ticks := by
  have links := List.isChain_iff_getElem.mp row.released
  refine {
    punctual := row.punctual
    inTurn := ?_
    deadlinesApart := ?_
    noBurst := ?_
    window := length_filter_window_le row positive
    rested := ?_
  }
  · intro place inBounds
    obtain ⟨finish, isFinish, afterStart, byTime, _⟩ :=
      (links place inBounds).ended
    exact ⟨finish, isFinish, afterStart, byTime⟩
  · intro first second earlier inBounds
    obtain ⟨gap, rfl⟩ := Nat.exists_eq_add_of_lt earlier
    have apart := deadline_add_le row first (gap + 1) inBounds
    have atLeastOne : period.nanos ≤ period.nanos * (gap + 1) :=
      Nat.le_mul_of_pos_right _ (Nat.succ_pos gap)
    have places : first + gap + 1 - first = gap + 1 := by
      omega
    rw [places]
    constructor
    · exact Nat.lt_of_lt_of_le (by omega) apart
    · exact apart
  · intro first second earlier inBounds
    obtain ⟨gap, rfl⟩ := Nat.exists_eq_add_of_lt earlier
    have place : first + gap + 1 = first + 1 + gap := by
      omega
    have places : first + gap + 1 - first = gap + 1 := by
      omega
    have spread :=
      start_add_le row first gap (by omega)
    rw [places]
    simpa only [Instant.le_iff, Instant.nanos_after, Span.nanos_times,
      place] using spread
  · intro place inBounds finish gaveUp isFinish
    obtain ⟨ended, isEnded, _, _, rested⟩ := (links place inBounds).ended
    rw [isFinish] at isEnded
    cases isEnded
    exact Nat.le_trans (rested gaveUp)
      (row.punctual _ (List.getElem_mem inBounds))

end Tick

namespace Loop

/-- In every run of a loop on a clock that does not go back, however late it is
polled and however long its task takes, the ticks keep the pace. -/
theorem every_run_keeps_pace
    (ticker : Ticker)
    (task : String)
    (start : Instant)
    (polls : List Poll)
    (positive : 0 < ticker.period.nanos)
    (ordered : polls.Pairwise fun first second => first.now ≤ second.now) :
    Tick.Paced ticker.period ((begin ticker task start).ticks [] polls) ∧
      Tick.Tell ((begin ticker task start).ticks [] polls)
        ((begin ticker task start).run polls).2 := by
  have begins := Paces.begin ticker task start ⟨0⟩
  obtain ⟨time, paces⟩ :=
    begins.run ordered fun found _ => Nat.zero_le found.now.nanos
  exact ⟨paces.row.paced positive,
    paces.tell⟩

/-- Polls of a loop with a period of ten milliseconds, of which the fifth finds
that the task of the second tick took fifty. -/
def slowPolls : List Poll :=
  [⟨false, ⟨10000000⟩, .pending⟩, ⟨false, ⟨10000000⟩, .finished (.ok ())⟩,
    ⟨false, ⟨20000000⟩, .pending⟩, ⟨false, ⟨21000000⟩, .pending⟩,
    ⟨false, ⟨71000000⟩, .finished (.error (.other "slow"))⟩,
    ⟨false, ⟨80000000⟩, .pending⟩, ⟨false, ⟨81000000⟩, .pending⟩,
    ⟨false, ⟨81000000⟩, .finished (.ok ())⟩,
    ⟨false, ⟨95000000⟩, .pending⟩, ⟨false, ⟨95000000⟩, .pending⟩,
    ⟨true, ⟨99000000⟩, .pending⟩]

theorem slowPolls_keep_pace :
    0 < (Span.ofMillis 10).nanos ∧
      (slowPolls.Pairwise fun first second => first.now ≤ second.now) ∧
      (((begin ⟨"drift", .ofMillis 10⟩ "slow" .origin).ticks []
          slowPolls).map Tick.start = [⟨10000000⟩, ⟨21000000⟩, ⟨81000000⟩, ⟨95000000⟩]) ∧
      Tick.Paced (.ofMillis 10)
        ((begin ⟨"drift", .ofMillis 10⟩ "slow" .origin).ticks [] slowPolls) ∧
      Tick.Tell
        ((begin ⟨"drift", .ofMillis 10⟩ "slow" .origin).ticks [] slowPolls)
        ((begin ⟨"drift", .ofMillis 10⟩ "slow" .origin).run slowPolls).2 :=
  ⟨by decide, by decide, by decide,
    every_run_keeps_pace ⟨"drift", .ofMillis 10⟩ "slow" .origin slowPolls
      (by decide) (by decide)⟩

end Loop

end PositionFeed
