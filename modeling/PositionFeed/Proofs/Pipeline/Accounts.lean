import PositionFeed.Proofs.Blueprint.Rules
import PositionFeed.Proofs.Pipeline.Shown
import PositionFeed.Proofs.Producer.Points

namespace PositionFeed

/-!
# The accounts of a pipeline

At the end of a run a pipeline reports what its loops, its channels and its
producer counted, and a recorder has kept what was measured meanwhile.  All of
them count the same things, so they agree however the ticks ended and whenever
the run was stopped.  They differ in one tick alone: a loop counts a tick before
its task begins, so a tick that was cut off is counted by the loop and by nobody
else.
-/

namespace Pipeline

/-! ## The channels -/

/-- What holds of the channel at a position of a pipeline that has come so
far. -/
structure Keeps
    (position : Nat)
    (samples : List Sample)
    (handoffs : List Handoff)
    (events : List Event)
    (happenings : List Happening)
    (pipeline : Pipeline) : Prop where
  distinct :
    (pipeline.plates.map Prod.snd).Nodup
  channel :
    ∃ running begun,
      pipeline.channels[position]? = some running ∧
        running.Accounts begun (samples.map Sample.position) handoffs events
          happenings

namespace Keeps

variable
  {position : Nat}
  {samples : List Sample}
  {handoffs : List Handoff}
  {events : List Event}
  {happenings : List Happening}
  {pipeline : Pipeline}

/-- The accounts of a channel stay right over every move. -/
theorem move
    (keeps : pipeline.Keeps position samples handoffs events happenings)
    (remembers : pipeline.Remembers samples)
    (wave : Wave)
    (next : PipelineMove) :
    (pipeline.move wave next).1.Keeps position
      (samples ++ pipeline.enters wave next)
      (handoffs ++ pipeline.handsOver position next)
      (events ++ (pipeline.move wave next).2)
      (happenings ++ pipeline.happens position next) := by
  obtain ⟨running, begun, isThere, accounts⟩ := keeps.channel
  refine {
    distinct := by rw [plates_move]; exact keeps.distinct
    channel := ?_
  }
  rcases channel_move wave keeps.distinct isThere next with
    ⟨found, polls, sameCache, polled, seen⟩ |
      ⟨unpolled, silent, outlet, isStill⟩
  · have cacheIs := remembers.cacheIs
    rw [handsOver, happens, polls, enters, after, sameCache,
      Cache.newerIn_self, seen, List.append_nil]
    refine ⟨_, begun, polled, ?_⟩
    simp only [cacheIs]
    exact accounts.poll found
  · rw [handsOver, happens, unpolled, List.append_nil, List.append_nil,
      List.map_append]
    exact ⟨_, begun, isStill,
      ((accounts.update _).overhear silent).outlet outlet⟩

end Keeps

theorem plates_moves
    (wave : Wave)
    (pipeline : Pipeline)
    (list : List PipelineMove) :
    (pipeline.moves wave list).1.plates = pipeline.plates := by
  induction list using List.reverseRecOn with
  | nil =>
      rfl
  | append_singleton list next inductionHypothesis =>
      rw [moves_concat, plates_move]
      exact inductionHypothesis

theorem Begun.plates_eq
    {blueprint : Blueprint}
    {pipeline : Pipeline}
    {events : List Event}
    (begun : pipeline.Begun blueprint events) :
    pipeline.plates =
      blueprint.effectiveChannels.map fun plan => (plan.rate, plan.name) := by
  have named :=
    congrArg (List.map fun built => (built.1, built.2.name))
      begun.distributors
  rw [Start.expected, List.map_map, List.map_map] at named
  exact named

/-- The accounts of every channel are right after every run. -/
theorem Begun.keeps
    {blueprint : Blueprint}
    {pipeline : Pipeline}
    {events : List Event}
    (begun : pipeline.Begun blueprint events)
    (distinct : (blueprint.effectiveChannels.map ChannelPlan.name).Nodup)
    {position : Nat}
    {plan : ChannelPlan}
    (planned : blueprint.effectiveChannels[position]? = some plan)
    (wave : Wave)
    (list : List PipelineMove) :
    (pipeline.moves wave list).1.Keeps position
      (pipeline.entered wave list)
      (pipeline.handoffs wave list position)
      (events ++ (pipeline.moves wave list).2)
      (pipeline.happenings wave list position) := by
  induction list using List.reverseRecOn with
  | nil =>
      obtain ⟨running, isThere, _, distributor⟩ := begun.exists_channel planned
      obtain ⟨nothing, ticker, task, loop⟩ :=
        begun.unpolled running (List.mem_of_getElem? isThere)
      refine {
        distinct := ?_
        channel := ⟨running, .begin ticker.period .origin, isThere, ?_⟩
      }
      · rw [moves, begun.plates_eq, List.map_map]
        exact distinct
      · rw [moves, List.append_nil]
        refine {
          distributor := ?_
          tallies := ?_
          finished := ?_
          failed := ?_
          inFlight := ?_
        }
        · rw [distributor]
          exact .begin _ _ (begun.silent.silent (by simp))
        · rw [loop]
          exact .begin ticker task .origin
        · rw [distributor]
          rfl
        · rw [distributor]
          rfl
        · intro sample isHeld
          cases nothing.symm.trans isHeld
  | append_singleton list next inductionHypothesis =>
      rw [moves_concat, entered, handoffs, happenings, yielded_moves,
        yielded_moves, yielded_moves, ← List.append_assoc]
      exact inductionHypothesis.move (begun.remembers wave list) wave next

/-! ## The producer -/

/-- What holds of the producer of a publisher that has come so far, if its
generator was asked for points at these times of the day. -/
structure Produces
    (wave : Wave)
    (trajectory : Trajectory)
    (clocks : List Int64)
    (samples : List Sample)
    (events : List Event)
    (happenings : List Happening)
    (pipeline : Pipeline) : Prop where
  source :
    ∃ loop producer begun,
      pipeline.source = .producer loop producer ∧
        loop.Tallies begun happenings ∧
        producer.walk = Walk.advance^[clocks.length] (.begin trajectory) ∧
        producer.ticks = clocks.length
  finished :
    (happenings.filterMap Happening.finished?).length = clocks.length
  failed :
    happenings.filterMap Happening.failed? = []
  cacheIs :
    pipeline.cache =
      .ofUpdates ((Walk.begin trajectory).points wave clocks)
  numbered :
    samples = Cache.history ((Walk.begin trajectory).points wave clocks)
  measured :
    (measures events).countP Measure.isProduced = clocks.length

namespace Produces

variable
  {wave : Wave}
  {trajectory : Trajectory}
  {clocks : List Int64}
  {samples : List Sample}
  {events : List Event}
  {happenings : List Happening}
  {pipeline : Pipeline}

/-- What is seen of others does not count. -/
theorem overhear
    (produces :
      pipeline.Produces wave trajectory clocks samples events happenings)
    {changed : Pipeline}
    (sameSource : changed.source = pipeline.source)
    (sameCache : changed.cache = pipeline.cache)
    {later : List Event}
    (silent : SilentOf .producer later) :
    changed.Produces wave trajectory clocks samples (events ++ later)
      happenings where
  source := by
    rw [sameSource]
    exact produces.source
  finished := produces.finished
  failed := produces.failed
  cacheIs := sameCache.trans produces.cacheIs
  numbered := produces.numbered
  measured := by
    rw [measures_append, List.countP_append, silent.none_produced]
    exact produces.measured

/-- A due generator ticks: one point more is in the cache and counted. -/
theorem tick
    (produces :
      pipeline.Produces wave trajectory clocks samples events happenings)
    {loop polled : Loop}
    {producer : Producer}
    (isSource : pipeline.source = .producer loop producer)
    (due : loop.phase = .due)
    {now : Instant}
    {happened : List Happening}
    (polls :
      loop.poll ⟨false, now, .finished (.ok ())⟩ = (polled, happened))
    (clock : Int64) :
    let position := producer.walk.position wave clock
    let sample := pipeline.cache.nextSample position
    { pipeline with
      cache := pipeline.cache.update position
      source :=
        .producer polled (producer.tick wave clock pipeline.cache).1 }.Produces
      wave trajectory (clocks ++ [clock]) (samples ++ [sample])
      (events ++ (producer.events sample ++ happened.flatMap polled.eventsOf))
      (happenings ++ happened) := by
  intro position sample
  obtain ⟨_, _, begun, isProducer, tallies, walk, ticks⟩ := produces.source
  cases isSource.symm.trans isProducer
  have inTick : loop.phase.inTick = true := by
    rw [due]
    rfl
  obtain ⟨once, unfailed⟩ := Loop.once_finished_of_inTick inTick now (.ok ())
  have polledTallies := tallies.poll ⟨false, now, .finished (.ok ())⟩
  rw [polls] at once unfailed polledTallies
  have silent : SilentOf .producer (happened.flatMap polled.eventsOf) :=
    (Loop.onlyFrom_eventsOf _ _).silent (by simp)
  have point :
      (Walk.begin trajectory).points wave (clocks ++ [clock]) =
        (Walk.begin trajectory).points wave clocks ++ [position] := by
    rw [Walk.points_concat, ← walk]
  refine {
    source := ⟨polled, _, begun, rfl, polledTallies, ?walked, ?ticked⟩
    finished := ?finished
    failed := ?failed
    cacheIs := ?cacheIs
    numbered := ?numbered
    measured := ?measured
  }
  case walked =>
    rw [List.length_append, List.length_singleton,
      Function.iterate_succ_apply', ← walk]
    rfl
  case ticked =>
    rw [List.length_append, ← ticks]
    rfl
  case finished =>
    rw [List.filterMap_append, once, List.length_append, List.length_append,
      produces.finished]
    rfl
  case failed =>
    rw [List.filterMap_append, unfailed, produces.failed]
    rfl
  case cacheIs =>
    rw [point, Cache.ofUpdates_concat, ← produces.cacheIs]
  case numbered =>
    rw [point, Cache.history_concat, ← produces.cacheIs, ← produces.numbered]
  case measured =>
    rw [measures_append, measures_append, List.countP_append,
      List.countP_append, silent.none_produced, producer.produced_events,
      List.length_append, produces.measured]
    rfl

/-- A generator that is polled without a tick leaves the cache alone. -/
theorem wait
    (produces :
      pipeline.Produces wave trajectory clocks samples events happenings)
    {loop polled : Loop}
    {producer : Producer}
    (isSource : pipeline.source = .producer loop producer)
    {stopped : Bool}
    {now : Instant}
    {happened : List Happening}
    (polls : loop.poll ⟨stopped, now, .pending⟩ = (polled, happened)) :
    { pipeline with source := .producer polled producer }.Produces wave
      trajectory clocks samples (events ++ happened.flatMap polled.eventsOf)
      (happenings ++ happened) := by
  obtain ⟨_, _, begun, isProducer, tallies, walk, ticks⟩ := produces.source
  cases isSource.symm.trans isProducer
  obtain ⟨unfinished, unfailed⟩ := loop.nothing_finished_of_pending stopped now
  have polledTallies := tallies.poll ⟨stopped, now, .pending⟩
  rw [polls] at unfinished unfailed polledTallies
  have silent : SilentOf .producer (happened.flatMap polled.eventsOf) :=
    (Loop.onlyFrom_eventsOf _ _).silent (by simp)
  refine {
    source := ⟨polled, producer, begun, rfl, polledTallies, walk, ticks⟩
    finished := ?finished
    failed := ?failed
    cacheIs := produces.cacheIs
    numbered := produces.numbered
    measured := ?measured
  }
  case finished =>
    rw [List.filterMap_append, unfinished, List.append_nil]
    exact produces.finished
  case failed =>
    rw [List.filterMap_append, unfailed, List.append_nil]
    exact produces.failed
  case measured =>
    rw [measures_append, List.countP_append, silent.none_produced]
    exact produces.measured

/-- The producer is right after every move. -/
theorem move
    (produces :
      pipeline.Produces wave trajectory clocks samples events happenings)
    (next : PipelineMove) :
    (pipeline.move wave next).1.Produces wave trajectory
      (clocks ++ pipeline.asks next)
      (samples ++ pipeline.enters wave next)
      (events ++ (pipeline.move wave next).2)
      (happenings ++ pipeline.sourceHappens next) := by
  obtain ⟨_, _, _, isProducer, _⟩ := produces.source
  have turn := pipeline.turn_move wave next
  rw [enters, after]
  generalize (pipeline.move wave next).1 = after at turn ⊢
  generalize (pipeline.move wave next).2 = seen at turn ⊢
  cases turn with
  | idles noChannel noSource =>
      have unasked :
          pipeline.asks next = [] ∧ pipeline.sourceHappens next = [] := by
        cases next with
        | source now clock =>
            exact absurd isProducer (noSource now clock _ _ rfl)
        | _ =>
            exact ⟨rfl, rfl⟩
      rw [unasked.1, unasked.2, Cache.newerIn_self]
      simp only [List.append_nil]
      exact produces
  | @produces loop producer isSource due goes now clock polled happened polls =>
      have asks : pipeline.asks (.source now clock) = [clock] := by
        simp [Pipeline.asks, isSource, due, goes]
      have happens : pipeline.sourceHappens (.source now clock) = happened := by
        simp [sourceHappens, isSource, due, goes, polls]
      have updated :
          (producer.tick wave clock pipeline.cache).2.1 =
            pipeline.cache.update (producer.walk.position wave clock) := rfl
      rw [asks, happens, updated, Cache.newerIn_update]
      exact produces.tick isSource due polls clock
  | @pollsSource loop producer isSource waits now clock polled happened polls =>
      have unasked : ¬ (loop.phase = .due ∧ ¬ pipeline.isStopping) := by
        rintro ⟨due, goes⟩
        exact goes (waits due)
      have asks : pipeline.asks (.source now clock) = [] := by
        simp only [Pipeline.asks, isSource, if_neg unasked]
      have happens : pipeline.sourceHappens (.source now clock) = happened := by
        simp only [sourceHappens, isSource, if_neg unasked, polls]
      rw [asks, happens, Cache.newerIn_self, List.append_nil, List.append_nil]
      exact produces.wait isSource polls
  | @pollsChannel _ running _ found isThere polls others =>
      have unasked :
          pipeline.asks next = [] ∧ pipeline.sourceHappens next = [] := by
        cases next <;> first | exact ⟨rfl, rfl⟩ | cases polls
      rw [unasked.1, unasked.2, Cache.newerIn_self]
      simp only [List.append_nil]
      exact produces.overhear (by rfl) (by rfl)
        (RunningChannel.silent_poll (by simp) (by simp) pipeline.cache found)
  | takes isSource bytes =>
      rw [isSource] at isProducer
      cases isProducer
  | serves isThere move outlet seen =>
      simp only [Cache.newerIn_self, asks, sourceHappens, List.append_nil]
      exact produces.overhear (by rfl) (by rfl) (seen.silent (by simp))
  | stops =>
      have same : pipeline.stop.2.cache = pipeline.cache := rfl
      rw [same, Cache.newerIn_self]
      simp only [asks, sourceHappens, List.append_nil]
      rw [← List.append_nil events]
      exact produces.overhear (by rfl) (by rfl)
        ((OnlyFrom.nil .surroundings).silent (by simp))

end Produces

/-- The producer of a publisher is right after every run. -/
theorem Begun.produces
    {blueprint : Blueprint}
    {pipeline : Pipeline}
    {events : List Event}
    (begun : pipeline.Begun blueprint events)
    (role : blueprint.role = .publisher)
    (wave : Wave)
    (list : List PipelineMove) :
    (pipeline.moves wave list).1.Produces wave blueprint.trajectory
      (pipeline.asked wave list)
      (pipeline.entered wave list)
      (events ++ (pipeline.moves wave list).2)
      (pipeline.sourceHappenings wave list) := by
  induction list using List.reverseRecOn with
  | nil =>
      obtain ⟨ticker, source⟩ := begun.producer role
      have silent : SilentOf .producer events := begun.silent.silent (by simp)
      rw [moves, List.append_nil]
      exact {
        source := ⟨_, _, _, source, .begin ticker Producer.name .origin,
          rfl, rfl⟩
        finished := rfl
        failed := rfl
        cacheIs := begun.cache
        numbered := rfl
        measured := silent.none_produced
      }
  | append_singleton list next inductionHypothesis =>
      rw [moves_concat, asked, entered, sourceHappenings, yielded_moves,
        yielded_moves, yielded_moves, ← List.append_assoc]
      exact inductionHypothesis.move next

/-! ## The end -/

/-- What is reported of a channel. -/
def statisticsOf (running : RunningChannel) : ChannelStatistics :=
  ⟨running.rate, running.loop.counts, running.channel.distributor.report⟩

/-- Every channel reports what it counted, and nothing more is measured. -/
theorem finishChannels_eq
    (channels : List RunningChannel)
    (tokens : Tokens) :
    (finishChannels channels tokens).1 = channels.map statisticsOf ∧
      OnlyFrom .surroundings (finishChannels channels tokens).2.2 := by
  induction channels generalizing tokens with
  | nil =>
      exact ⟨rfl, .nil _⟩
  | cons running rest inductionHypothesis =>
      obtain ⟨reports, only⟩ :=
        inductionHypothesis (running.channel.finish tokens).2.1
      refine ⟨?_, ?_⟩
      · rw [List.map_cons, ← reports]
        rfl
      · exact (Outlet.onlyFrom_close tokens running.channel.outlet).append only

theorem channels_join
    (pipeline : Pipeline)
    (duration : Span) :
    (pipeline.join duration).1.channels =
      pipeline.channels.map statisticsOf :=
  (finishChannels_eq pipeline.channels pipeline.tokens).1

theorem onlyFrom_join
    (pipeline : Pipeline)
    (duration : Span) :
    OnlyFrom .surroundings (pipeline.join duration).2 := by
  refine .append ?_ (finishChannels_eq _ _).2
  unfold sourceEndEvents
  split
  · exact .nil _
  · exact .notice _ _

end Pipeline

/-- The accounts of one channel agree: what is reported of it, the channel that
the run ended with, what a recorder keeps of it, and what its outlet was handed
and answered. -/
structure ChannelStatistics.Agree
    (running : RunningChannel)
    (latestSequence : Nat)
    (recorded : Recorded)
    (handoffs : List Handoff)
    (happenings : List Happening)
    (statistics : ChannelStatistics) : Prop where
  /-- The loop and the channel counted the same ticks, but for one that the run
  ended in. -/
  ticks :
    statistics.schedule.ticks = statistics.report.counters.ticks ∧
        ¬ running.loop.EndsInTick happenings ∨
      statistics.schedule.ticks = statistics.report.counters.ticks + 1 ∧
        running.loop.EndsInTick happenings
  failed :
    statistics.schedule.failed = statistics.report.counters.failed ∧
      statistics.report.counters.failed = (Handoff.refusals handoffs).length
  lastForwarded :
    statistics.report.counters.lastForwarded =
        running.channel.distributor.cursor ∧
      statistics.report.counters.lastForwarded =
        (Handoff.taken handoffs).getLast?.elim 0 Sample.sequence ∧
      statistics.report.counters.lastForwarded ≤ latestSequence
  forwarded :
    statistics.report.counters.forwarded = statistics.report.ages.count ∧
      statistics.report.counters.forwarded =
        (Handoff.taken handoffs).length ∧
      statistics.report.counters.forwarded ≤ latestSequence
  outcomes :
    ∀ label,
      recorded.counter (.ticks statistics.report.channel label) =
        statistics.report.counters.endedAs label
  cursors :
    recorded.levels (.cursor statistics.report.channel) =
      (Handoff.taken handoffs).map fun sample => countLevel sample.sequence
  ages :
    recorded.valueCount (.sampleAge statistics.report.channel) =
      statistics.report.counters.forwarded

/-- The accounts of a producer agree: what it counted, what a recorder keeps of
it, the points that its generator was asked for, and the samples that entered
the cache. -/
structure Producer.Agree
    (points : List Position)
    (samples : List Sample)
    (latestSequence : Nat)
    (recorded : Recorded)
    (loop : Loop)
    (happenings : List Happening)
    (producer : Producer) : Prop where
  produced :
    producer.ticks = points.length ∧
      latestSequence = producer.ticks ∧
      recorded.counter .samplesProduced = producer.ticks
  /-- The sample with a number is the point with that number. -/
  numbered :
    samples = Cache.history points
  ticks :
    loop.counts.ticks = producer.ticks ∧ ¬ loop.EndsInTick happenings ∨
      loop.counts.ticks = producer.ticks + 1 ∧ loop.EndsInTick happenings
  failed :
    loop.counts.failed = 0

namespace Pipeline

/-- What a recorder keeps of a whole run: of the start, of which these events
were seen, of the moves and of the end. -/
def recorded
    (wave : Wave)
    (started : List Event)
    (list : List PipelineMove)
    (duration : Span)
    (pipeline : Pipeline) :
    Recorded :=
  let (last, events) := pipeline.moves wave list
  .ofMeasures (measures (started ++ events ++ (last.join duration).2))

/-- What is promised of the accounts of a pipeline at the end of a run. -/
structure Accounted
    (blueprint : Blueprint)
    (wave : Wave)
    (list : List PipelineMove)
    (duration : Span)
    (recorded : Recorded)
    (pipeline : Pipeline) : Prop where
  /-- The samples of the cache were numbered in order. -/
  entered :
    pipeline.entered wave list =
        Cache.history ((pipeline.entered wave list).map Sample.position) ∧
      ((pipeline.moves wave list).1.join duration).1.latestSequence =
        (pipeline.entered wave list).length
  channelCount :
    ((pipeline.moves wave list).1.join duration).1.channels.length =
      blueprint.effectiveChannels.length
  /-- The accounts of every channel agree. -/
  channels :
    ∀ (position : Nat) (plan : ChannelPlan),
      blueprint.effectiveChannels[position]? = some plan →
        let last := (pipeline.moves wave list).1
        ∃ (running : RunningChannel) (statistics : ChannelStatistics),
          last.channels[position]? = some running ∧
            (last.join duration).1.channels[position]? = some statistics ∧
            statistics.rate = plan.rate ∧
            statistics.report.channel = plan.name ∧
            statistics.Agree running (last.join duration).1.latestSequence
              recorded
              (pipeline.handoffs wave list position)
              (pipeline.happenings wave list position)
  /-- Outlets are handed only samples that entered the cache. -/
  handed :
    ∀ (position : Nat) (plan : ChannelPlan),
      blueprint.effectiveChannels[position]? = some plan →
        ∀ handoff ∈ pipeline.handoffs wave list position,
          handoff.sample ∈ pipeline.entered wave list
  /-- The accounts of the producer of a publisher agree. -/
  producer :
    blueprint.role = .publisher →
      let last := (pipeline.moves wave list).1
      ∃ (loop : Loop) (producer : Producer),
        last.source = .producer loop producer ∧
          (last.join duration).1.source =
            .producer loop.counts producer.ticks ∧
          producer.Agree
            ((Walk.begin blueprint.trajectory).points wave
              (pipeline.asked wave list))
            (pipeline.entered wave list)
            (last.join duration).1.latestSequence
            recorded loop
            (pipeline.sourceHappenings wave list)

/-- The accounts of a channel that runs agree with what is reported of it. -/
theorem agree_of_accounts
    {begun : Schedule}
    {samples : List Sample}
    {handoffs : List Handoff}
    {events : List Event}
    {happenings : List Happening}
    {running : RunningChannel}
    (accounts :
      running.Accounts begun (samples.map Sample.position) handoffs events
        happenings) :
    (statisticsOf running).Agree running samples.length
      (.ofMeasures (measures events)) handoffs happenings := by
  have distributor := accounts.distributor
  have ledger := distributor.ledger
  have cursorBound :
      running.channel.distributor.cursor ≤ samples.length := by
    simpa using ledger.cursor_le
  refine {
    ticks := ?_
    failed := ?_
    lastForwarded := ?_
    forwarded := ?_
    outcomes := ?_
    cursors := ?_
    ages := ?_
  }
  · have ticks := accounts.tallies.ticks_cases
    rw [← accounts.finished] at ticks
    exact ticks
  · exact ⟨accounts.tallies.failed.trans accounts.failed.symm,
      distributor.failed⟩
  · have isCursor := distributor.lastForwarded
    refine ⟨isCursor, isCursor.trans ledger.cursorIsLast, ?_⟩
    exact isCursor.trans_le cursorBound
  · have counted := distributor.forwarded
    refine ⟨counted.trans distributor.ages.symm, counted, ?_⟩
    exact (counted.trans_le ledger.length_le_cursor).trans cursorBound
  · intro label
    exact (Recorded.counter_ticks _ _ _).trans (distributor.told.outcomes label)
  · refine (Recorded.levels_cursor _ _).trans ?_
    refine (congrArg (List.map countLevel) distributor.told.cursors).trans ?_
    exact List.map_map
  · refine (Recorded.valueCount_sampleAge _ _).trans ?_
    exact distributor.told.ages.trans distributor.forwarded.symm

/-- The accounts of a producer agree with what it reports. -/
theorem agree_of_produces
    {wave : Wave}
    {trajectory : Trajectory}
    {clocks : List Int64}
    {samples : List Sample}
    {events : List Event}
    {happenings : List Happening}
    {pipeline : Pipeline}
    (produces :
      pipeline.Produces wave trajectory clocks samples events happenings) :
    ∃ (loop : Loop) (producer : Producer),
      pipeline.source = .producer loop producer ∧
        producer.Agree ((Walk.begin trajectory).points wave clocks) samples
          pipeline.cache.latestSequence (.ofMeasures (measures events)) loop
          happenings := by
  obtain ⟨loop, producer, begun, isProducer, tallies, _, ticks⟩ :=
    produces.source
  have points :
      producer.ticks =
        ((Walk.begin trajectory).points wave clocks).length := by
    rw [Walk.length_points, ticks]
  refine ⟨loop, producer, isProducer, {
    produced := ⟨points, ?_, ?_⟩
    numbered := produces.numbered
    ticks := ?_
    failed := ?_
  }⟩
  · rw [produces.cacheIs, Cache.latestSequence_ofUpdates, points]
  · rw [Recorded.counter_samplesProduced, produces.measured, ticks]
  · have cases := tallies.ticks_cases
    rw [produces.finished, ← ticks] at cases
    exact cases
  · rw [tallies.failed, produces.failed]
    rfl

namespace Begun

variable
  {blueprint : Blueprint}
  {pipeline : Pipeline}
  {events : List Event}

/-- The accounts of every channel agree at the end, and its outlet was handed
samples of the cache. -/
theorem channel_agrees
    (begun : pipeline.Begun blueprint events)
    (distinct : (blueprint.effectiveChannels.map ChannelPlan.name).Nodup)
    {position : Nat}
    {plan : ChannelPlan}
    (planned : blueprint.effectiveChannels[position]? = some plan)
    (wave : Wave)
    (list : List PipelineMove)
    (duration : Span) :
    ∃ running,
      (pipeline.moves wave list).1.channels[position]? = some running ∧
        running.rate = plan.rate ∧
        running.channel.distributor.name = plan.name ∧
        (statisticsOf running).Agree running
          (pipeline.entered wave list).length
          (pipeline.recorded wave events list duration)
          (pipeline.handoffs wave list position)
          (pipeline.happenings wave list position) ∧
        ∀ handoff ∈ pipeline.handoffs wave list position,
          handoff.sample ∈ pipeline.entered wave list := by
  obtain ⟨running, start, isThere, accounts⟩ :=
    (begun.keeps distinct planned wave list).channel
  have plate :
      (running.rate, running.channel.distributor.name) =
        (plan.rate, plan.name) := by
    have plates := (plates_moves wave pipeline list).trans begun.plates_eq
    have here := congrArg (·[position]?) plates
    simpa [Pipeline.plates, isThere, planned] using here
  obtain ⟨rate, name⟩ := Prod.ext_iff.mp plate
  have silent :
      SilentOf (.distributor running.channel.distributor.name)
        ((pipeline.moves wave list).1.join duration).2 :=
    (onlyFrom_join _ duration).silent (by simp)
  refine ⟨running, isThere, rate, name, ?_, ?_⟩
  · exact agree_of_accounts (accounts.overhear silent)
  · intro handoff member
    rw [(begun.remembers wave list).numbered]
    exact (accounts.distributor.offered handoff member).mem_history

/-- The accounts of the producer of a publisher agree at the end. -/
theorem producer_agrees
    (begun : pipeline.Begun blueprint events)
    (role : blueprint.role = .publisher)
    (wave : Wave)
    (list : List PipelineMove)
    (duration : Span) :
    ∃ loop producer,
      (pipeline.moves wave list).1.source = .producer loop producer ∧
        producer.Agree
          ((Walk.begin blueprint.trajectory).points wave
            (pipeline.asked wave list))
          (pipeline.entered wave list)
          (pipeline.moves wave list).1.cache.latestSequence
          (pipeline.recorded wave events list duration) loop
          (pipeline.sourceHappenings wave list) := by
  have silent :
      SilentOf .producer ((pipeline.moves wave list).1.join duration).2 :=
    (onlyFrom_join _ duration).silent (by simp)
  exact agree_of_produces
    ((begun.produces role wave list).overhear rfl rfl silent)

end Begun

/-- Whatever happens to a pipeline after it has started and whenever it ends,
its accounts agree. -/
theorem every_run_is_accounted_for
    {networks : Nat → Network}
    {blueprint : Blueprint}
    {pipeline : Pipeline}
    (started : (start networks blueprint).result = .ok pipeline)
    (distinct : (blueprint.effectiveChannels.map ChannelPlan.name).Nodup)
    (wave : Wave)
    (list : List PipelineMove)
    (duration : Span) :
    pipeline.Accounted blueprint wave list duration
      (pipeline.recorded wave (start networks blueprint).events list
        duration) := by
  have begun := begun_of_start started
  have remembers := begun.remembers wave list
  have latest :
      ((pipeline.moves wave list).1.join duration).1.latestSequence =
        (pipeline.entered wave list).length := by
    refine (congrArg Cache.latestSequence remembers.cacheIs).trans ?_
    simp
  refine {
    entered := ⟨remembers.numbered, latest⟩
    channelCount := ?_
    channels := ?_
    handed := ?_
    producer := ?_
  }
  · have plates := (plates_moves wave pipeline list).trans begun.plates_eq
    have sameLength := congrArg List.length plates
    rw [channels_join, List.length_map]
    simpa [Pipeline.plates] using sameLength
  · intro position plan planned last
    obtain ⟨running, isThere, rate, name, agree, _⟩ :=
      begun.channel_agrees distinct planned wave list duration
    refine ⟨running, statisticsOf running, isThere, ?_, rate, name, ?_⟩
    · rw [channels_join, List.getElem?_map, isThere]
      rfl
    · rw [latest]
      exact agree
  · intro position plan planned
    obtain ⟨_, _, _, _, _, handed⟩ :=
      begun.channel_agrees distinct planned wave list duration
    exact handed
  · intro role last
    obtain ⟨loop, producer, isProducer, agree⟩ :=
      begun.producer_agrees role wave list duration
    refine ⟨loop, producer, isProducer, ?_, agree⟩
    show last.sourceStatistics = _
    rw [sourceStatistics, isProducer]

/-- The bus channel hands one sample on and is stopped while it hands on the
next. -/
def interruptedMoves : List PipelineMove :=
  let poll (millis : Nat) (waits : Bool) : PipelineMove :=
    .channel 0 ⟨millis * 1000000⟩ 0 .willing waits
  let produce (millis : Nat) : PipelineMove := .source ⟨millis * 1000000⟩ 0
  [produce 20, produce 20, poll 50 false, poll 50 false, produce 60,
    produce 60, poll 100 false, poll 100 true, .stop, poll 101 true,
    produce 101]

/-- The functions of a trajectory that stays where it is. -/
def flat : Wave := ⟨fun _ => 0.0, fun _ => 0.0⟩

theorem interruptedMoves_are_accounted_for :
    ∃ pipeline,
      (start (fun _ => .willing) .default).result = .ok pipeline ∧
        (Blueprint.default.effectiveChannels.map ChannelPlan.name).Nodup ∧
        pipeline.Accounted .default flat interruptedMoves (.ofMillis 101)
          (pipeline.recorded flat
            (start (fun _ => .willing) .default).events interruptedMoves
            (.ofMillis 101)) :=
  ⟨_, rfl, Blueprint.distinct_of_validate rfl,
    every_run_is_accounted_for rfl (Blueprint.distinct_of_validate rfl) flat
      interruptedMoves (.ofMillis 101)⟩

example :
    (start (fun _ => .willing) .default).result.toOption.map (fun pipeline =>
      ((pipeline.moves flat interruptedMoves).1.join (.ofMillis 101)).1.channels.map
        fun statistics =>
          (statistics.schedule.ticks, statistics.report.counters.ticks)) =
      some [(2, 1), (0, 0)] := by
  decide +kernel

end Pipeline

end PositionFeed
