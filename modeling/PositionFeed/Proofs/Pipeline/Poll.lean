import PositionFeed.Pipeline.Basic
import PositionFeed.Proofs.Channel.Accounts

namespace PositionFeed

/-!
# One poll of a channel that runs

A poll either carries out a decision, and then a tick ends, or it does not, and
then the channel itself stays as it is.  The loop is polled in both cases; it
finds a task that has finished in the first and one that has to wait in the
second.
-/

/-- The decision, unless it hands on a sample that is kept waiting. -/
def Decision.unlessKept (waits : Bool) : Decision → Option Decision
  | .rest outcome => some (.rest outcome)
  | .handOff sample => if waits then none else some (.handOff sample)

namespace RunningChannel

/-- The decision that a poll carries out, if it carries one out. -/
def settles
    (running : RunningChannel)
    (cache : Cache)
    (found : ChannelPoll) :
    Option Decision :=
  if found.stopped then none
  else match running.loop.phase, running.inFlight with
    | .due, _ => (running.channel.decide cache).unlessKept found.waits
    | .working, some sample =>
        (Decision.handOff sample).unlessKept found.waits
    | _, _ => none

/-- What the loop is told of its task in a poll. -/
def answer
    (running : RunningChannel)
    (cache : Cache)
    (found : ChannelPoll) :
    TaskAnswer :=
  match running.settles cache found with
  | none => .pending
  | some decision =>
      .finished
        ((running.channel.carryOut found.network found.clock
          decision).2.1.map fun _ => ())

/-- What happens in the loop over a poll. -/
def happens
    (running : RunningChannel)
    (cache : Cache)
    (found : ChannelPoll) :
    List Happening :=
  (running.loop.poll
    ⟨found.stopped, found.now, running.answer cache found⟩).2

/-- What the outlet is handed in a poll, and what it answers. -/
def handsOver
    (running : RunningChannel)
    (cache : Cache)
    (found : ChannelPoll) :
    List Handoff :=
  match running.settles cache found with
  | none => []
  | some decision => running.channel.handsOver found.network decision

/-- The turns that a channel can take when it is polled, and what is to be seen
of them. -/
inductive Turn
    (running : RunningChannel)
    (cache : Cache)
    (found : ChannelPoll) :
    RunningChannel → List Event → Prop where
  /-- The channel stays as it is; it may keep a sample waiting that it was
  going to hand on. -/
  | waits
      {waiting : Option Sample}
      {after : RunningChannel}
      {events : List Event}
      (undecided : running.settles cache found = none)
      (held :
        waiting = running.inFlight ∨
          ∃ sample, waiting = some sample ∧
            running.channel.decide cache = .handOff sample)
      (polled :
        { running with inFlight := waiting }.pollLoop found .pending =
          (after, events)) :
      running.Turn cache found after events
  /-- A tick ends. -/
  | ends
      {decision : Decision}
      {channel : Channel}
      {result : Except Fault TickOutcome}
      {after : RunningChannel}
      {earlier later : List Event}
      (decided : running.settles cache found = some decision)
      (goes : found.stopped = false)
      (inTick : running.loop.phase.inTick = true)
      (held :
        decision = running.channel.decide cache ∨
          ∃ sample, running.inFlight = some sample ∧
            decision = .handOff sample)
      (carried :
        running.channel.carryOut found.network found.clock decision =
          (channel, result, earlier))
      (polled :
        { running with channel := channel, inFlight := none }.pollLoop found
          (.finished (result.map fun _ => ())) = (after, later)) :
      running.Turn cache found after (earlier ++ later)

/-- A tick that is not kept waiting ends as it was decided. -/
theorem Turn.work
    {running : RunningChannel}
    {cache : Cache}
    {found : ChannelPoll}
    {decision : Decision}
    (goes : found.stopped = false)
    (inTick : running.loop.phase.inTick = true)
    (held :
      decision = running.channel.decide cache ∨
        ∃ sample, running.inFlight = some sample ∧
          decision = .handOff sample)
    (decided :
      running.settles cache found = decision.unlessKept found.waits) :
    running.Turn cache found
      (running.work found decision).1 (running.work found decision).2 := by
  cases decision with
  | rest outcome =>
      exact .ends decided goes inTick held rfl rfl
  | handOff sample =>
      cases waits : found.waits with
      | true =>
          rw [waits] at decided
          have offered :
              some sample = running.inFlight ∨
                ∃ other, some sample = some other ∧
                  running.channel.decide cache = .handOff other := by
            rcases held with isDecision | ⟨other, isHeld, same⟩
            · exact .inr ⟨sample, rfl, isDecision.symm⟩
            · cases same
              exact .inl isHeld.symm
          simp only [RunningChannel.work, waits]
          exact .waits decided offered rfl
      | false =>
          rw [waits] at decided
          simp only [RunningChannel.work, waits]
          exact .ends decided goes inTick held rfl rfl

/-- Every poll is one of these turns. -/
theorem turn_poll
    (running : RunningChannel)
    (cache : Cache)
    (found : ChannelPoll) :
    running.Turn cache found
      (running.poll cache found).1 (running.poll cache found).2 := by
  cases goes : found.stopped with
  | true =>
      simp only [poll, goes, ↓reduceIte]
      exact .waits (by simp [settles, goes]) (.inl rfl) rfl
  | false =>
      cases phase : running.loop.phase with
      | sleeping =>
          simp only [poll, goes, phase, Bool.false_eq_true, ↓reduceIte]
          exact .waits (by simp [settles, phase]) (.inl rfl) rfl
      | due =>
          simp only [poll, goes, phase, Bool.false_eq_true, ↓reduceIte]
          exact .work goes (by rw [phase]; rfl) (.inl rfl)
            (by simp [settles, goes, phase])
      | working =>
          cases inFlight : running.inFlight with
          | none =>
              simp only [poll, goes, phase, inFlight, Bool.false_eq_true,
                ↓reduceIte]
              exact .waits (by simp [settles, phase, inFlight])
                (.inl rfl) rfl
          | some sample =>
              simp only [poll, goes, phase, inFlight, Bool.false_eq_true,
                ↓reduceIte]
              exact .work goes (by rw [phase]; rfl)
                (.inr ⟨sample, inFlight, rfl⟩)
                (by simp [settles, goes, phase, inFlight])
      | ended =>
          simp only [poll, goes, phase, Bool.false_eq_true, ↓reduceIte]
          exact .waits (by simp [settles, phase]) (.inl rfl) rfl

/-- The loop is polled with what it is told of its task. -/
theorem loop_poll
    (running : RunningChannel)
    (cache : Cache)
    (found : ChannelPoll) :
    (running.poll cache found).1.loop =
      (running.loop.poll
        ⟨found.stopped, found.now, running.answer cache found⟩).1 := by
  have turn := running.turn_poll cache found
  generalize (running.poll cache found).1 = after at turn ⊢
  generalize (running.poll cache found).2 = seen at turn
  cases turn with
  | waits undecided held polled =>
      obtain ⟨rfl, rfl⟩ := Prod.ext_iff.mp polled
      rw [answer, undecided]
      rfl
  | ends decided goes inTick held carried polled =>
      obtain ⟨rfl, rfl⟩ := Prod.ext_iff.mp polled
      simp only [answer, decided, carried]
      rfl

/-- A poll leaves a channel its name and its rate. -/
theorem name_poll
    (running : RunningChannel)
    (cache : Cache)
    (found : ChannelPoll) :
    let polled := (running.poll cache found).1
    polled.channel.distributor.name = running.channel.distributor.name ∧
      polled.rate = running.rate := by
  have turn := running.turn_poll cache found
  generalize (running.poll cache found).1 = after at turn ⊢
  generalize (running.poll cache found).2 = seen at turn
  cases turn with
  | waits undecided held polled =>
      obtain ⟨rfl, rfl⟩ := Prod.ext_iff.mp polled
      exact ⟨rfl, rfl⟩
  | @ends decision _ _ _ _ _ decided goes inTick held carried polled =>
      obtain ⟨rfl, rfl⟩ := Prod.ext_iff.mp polled
      have kept :=
        running.channel.name_carryOut found.network found.clock decision
      rw [carried] at kept
      exact ⟨kept, rfl⟩

/-- A poll is measured in the name of the channel. -/
theorem silent_poll
    {origin : Origin}
    (surroundings : .surroundings ≠ origin)
    {running : RunningChannel}
    (other : .distributor running.channel.distributor.name ≠ origin)
    (cache : Cache)
    (found : ChannelPoll) :
    SilentOf origin (running.poll cache found).2 := by
  have turn := running.turn_poll cache found
  generalize (running.poll cache found).1 = after at turn
  generalize (running.poll cache found).2 = seen at turn ⊢
  cases turn with
  | waits undecided held polled =>
      obtain ⟨rfl, rfl⟩ := Prod.ext_iff.mp polled
      exact (Loop.onlyFrom_eventsOf _ _).silent surroundings
  | @ends decision _ _ _ _ _ decided goes inTick held carried polled =>
      obtain ⟨rfl, rfl⟩ := Prod.ext_iff.mp polled
      have first :=
        Channel.silent_carryOut surroundings other found.network found.clock
          decision
      rw [carried] at first
      exact first.append ((Loop.onlyFrom_eventsOf _ _).silent surroundings)

/-! ## Its accounts -/

/-- What holds of a channel that runs, while these positions entered the cache,
its outlet gave these answers, and this was seen and happened in its loop. -/
structure Accounts
    (begun : Schedule)
    (positions : List Position)
    (handoffs : List Handoff)
    (events : List Event)
    (happenings : List Happening)
    (running : RunningChannel) : Prop where
  distributor :
    running.channel.distributor.Accounts positions handoffs events
  tallies :
    running.loop.Tallies begun happenings
  /-- A tick is counted by the channel when it finishes. -/
  finished :
    running.channel.distributor.counters.ticks =
      (happenings.filterMap Happening.finished?).length
  failed :
    running.channel.distributor.counters.failed =
      (happenings.filterMap Happening.failed?).length
  inFlight :
    ∀ sample, running.inFlight = some sample →
      (Decision.handOff sample).Sound positions
        running.channel.distributor.cursor

namespace Accounts

variable
  {begun : Schedule}
  {positions : List Position}
  {handoffs : List Handoff}
  {events : List Event}
  {happenings : List Happening}
  {running : RunningChannel}

theorem update
    (accounts :
      running.Accounts begun positions handoffs events happenings)
    (later : List Position) :
    running.Accounts begun (positions ++ later) handoffs events happenings where
  distributor := accounts.distributor.update later
  tallies := accounts.tallies
  finished := accounts.finished
  failed := accounts.failed
  inFlight sample isHeld := by
    obtain ⟨recorded, newer⟩ := accounts.inFlight sample isHeld
    exact ⟨recorded.append later, newer⟩

theorem overhear
    (accounts :
      running.Accounts begun positions handoffs events happenings)
    {later : List Event}
    (silent :
      SilentOf (.distributor running.channel.distributor.name) later) :
    running.Accounts begun positions handoffs (events ++ later)
      happenings where
  distributor := accounts.distributor.overhear silent
  tallies := accounts.tallies
  finished := accounts.finished
  failed := accounts.failed
  inFlight := accounts.inFlight

/-- The accounts do not depend on the state of the outlet. -/
theorem outlet
    (accounts :
      running.Accounts begun positions handoffs events happenings)
    (changed : Outlet) :
    ({ running with
        channel :=
          { running.channel with outlet := changed } } : RunningChannel).Accounts
      begun positions handoffs events happenings where
  distributor := accounts.distributor
  tallies := accounts.tallies
  finished := accounts.finished
  failed := accounts.failed
  inFlight := accounts.inFlight

/-- The accounts stay right over a poll that carries nothing out. -/
theorem waits
    (accounts :
      running.Accounts begun positions handoffs events happenings)
    {found : ChannelPoll}
    {waiting : Option Sample}
    {after : RunningChannel}
    {seen : List Event}
    (tallies :
      after.loop.Tallies begun
        (happenings ++ running.happens (.ofUpdates positions) found))
    (undecided : running.settles (.ofUpdates positions) found = none)
    (held :
      waiting = running.inFlight ∨
        ∃ sample, waiting = some sample ∧
          running.channel.decide (.ofUpdates positions) = .handOff sample)
    (polled :
      { running with inFlight := waiting }.pollLoop found .pending =
        (after, seen)) :
    after.Accounts begun positions handoffs (events ++ seen)
      (happenings ++ running.happens (.ofUpdates positions) found) := by
  obtain ⟨rfl, rfl⟩ := Prod.ext_iff.mp polled
  have pending : running.answer (.ofUpdates positions) found = .pending := by
    rw [answer, undecided]
  obtain ⟨unfinished, unfailed⟩ :=
    running.loop.nothing_finished_of_pending found.stopped found.now
  have silent :
      SilentOf (.distributor running.channel.distributor.name)
        (({ running with inFlight := waiting }.pollLoop found .pending).2) :=
    (Loop.onlyFrom_eventsOf _ _).silent nofun
  refine {
    distributor := accounts.distributor.overhear silent
    tallies := tallies
    finished := ?_
    failed := ?_
    inFlight := ?_
  }
  · rw [happens, pending, List.filterMap_append, unfinished, List.append_nil]
    exact accounts.finished
  · rw [happens, pending, List.filterMap_append, unfailed, List.append_nil]
    exact accounts.failed
  · intro sample isWaiting
    rcases held with same | ⟨other, same, decides⟩
    · exact accounts.inFlight sample (same.symm.trans isWaiting)
    · have isOther : other = sample :=
        Option.some.inj (same.symm.trans isWaiting)
      rw [← isOther, ← decides]
      exact running.channel.sound_decide positions

/-- The accounts stay right over a poll that ends a tick. -/
theorem ends
    (accounts :
      running.Accounts begun positions handoffs events happenings)
    {found : ChannelPoll}
    {decision : Decision}
    {channel : Channel}
    {result : Except Fault TickOutcome}
    {after : RunningChannel}
    {earlier later : List Event}
    (tallies :
      after.loop.Tallies begun
        (happenings ++ running.happens (.ofUpdates positions) found))
    (decided : running.settles (.ofUpdates positions) found = some decision)
    (goes : found.stopped = false)
    (inTick : running.loop.phase.inTick = true)
    (held :
      decision = running.channel.decide (.ofUpdates positions) ∨
        ∃ sample, running.inFlight = some sample ∧
          decision = .handOff sample)
    (carried :
      running.channel.carryOut found.network found.clock decision =
        (channel, result, earlier))
    (polled :
      { running with channel := channel, inFlight := none }.pollLoop found
        (.finished (result.map fun _ => ())) = (after, later)) :
    after.Accounts begun positions
      (handoffs ++ running.channel.handsOver found.network decision)
      (events ++ (earlier ++ later))
      (happenings ++ running.happens (.ofUpdates positions) found) := by
  obtain ⟨rfl, rfl⟩ := Prod.ext_iff.mp polled
  have happened :
      running.happens (.ofUpdates positions) found =
        (running.loop.poll
          ⟨false, found.now, .finished (result.map fun _ => ())⟩).2 := by
    simp only [happens, answer, decided, carried, goes]
  have sound :
      decision.Sound positions running.channel.distributor.cursor := by
    rcases held with rfl | ⟨sample, isHeld, rfl⟩
    · exact running.channel.sound_decide positions
    · exact accounts.inFlight sample isHeld
  have kept :=
    Channel.accounts_carryOut accounts.distributor found.network found.clock
      sound
  have counted :=
    running.channel.counters_carryOut found.network found.clock decision
  simp only [carried] at kept counted
  obtain ⟨onceFinished, asFailed⟩ :=
    Loop.once_finished_of_inTick inTick found.now (result.map fun _ => ())
  have silent :
      SilentOf (.distributor channel.distributor.name)
        (({ running with channel := channel, inFlight := none }.pollLoop
          found (.finished (result.map fun _ => ()))).2) :=
    (Loop.onlyFrom_eventsOf _ _).silent nofun
  rw [← List.append_assoc]
  refine {
    distributor := kept.overhear silent
    tallies := tallies
    finished := ?_
    failed := ?_
    inFlight := nofun
  }
  · rw [happened, List.filterMap_append, onceFinished, List.length_append,
      ← accounts.finished]
    exact counted.1
  · rw [happened, List.filterMap_append, asFailed, List.length_append,
      ← accounts.failed]
    exact counted.2

/-- The accounts stay right over every poll. -/
theorem poll
    (accounts :
      running.Accounts begun positions handoffs events happenings)
    (found : ChannelPoll) :
    let cache := Cache.ofUpdates positions
    (running.poll cache found).1.Accounts begun positions
      (handoffs ++ running.handsOver cache found)
      (events ++ (running.poll cache found).2)
      (happenings ++ running.happens cache found) := by
  intro cache
  have tallies :
      (running.poll cache found).1.loop.Tallies begun
        (happenings ++ running.happens cache found) := by
    rw [loop_poll]
    exact accounts.tallies.poll _
  have turn := running.turn_poll cache found
  generalize (running.poll cache found).1 = after at turn tallies ⊢
  generalize (running.poll cache found).2 = seen at turn ⊢
  cases turn with
  | waits undecided held polled =>
      rw [handsOver, undecided, List.append_nil]
      exact accounts.waits tallies undecided held polled
  | ends decided goes inTick held carried polled =>
      rw [handsOver, decided]
      exact accounts.ends tallies decided goes inTick held carried polled

end Accounts

end RunningChannel

end PositionFeed
