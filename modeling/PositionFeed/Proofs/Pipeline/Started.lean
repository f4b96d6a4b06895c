import PositionFeed.Pipeline.Start
import PositionFeed.Proofs.Schedule.Tally
import PositionFeed.Proofs.Telemetry.Origin

namespace PositionFeed

/-!
# A pipeline that has started

A start that succeeds leaves every channel with a distributor that has not
ticked, a loop that was not polled, and the name and rate of its plan.  Nothing
was counted by then, in the channels or in the measures.
-/

namespace Start

/-- A channel is set up with a distributor that has not ticked. -/
theorem distributor_of_create
    {network : Network}
    {plan : ChannelPlan}
    {root : Token}
    {tokens : Tokens}
    {made : Channel × Tokens × List Event}
    (created : Channel.create network plan root tokens = .ok made) :
    made.1.distributor = .begin plan.name plan.effectivePolicy ∧
      OnlyFrom .surroundings made.2.2 := by
  obtain ⟨outlet, isOutlet, same⟩ := Result.bind_eq_ok_iff.mp created
  cases same
  exact ⟨rfl, (Outlet.onlyFrom_create isOutlet).append (.notice _ _)⟩

/-- The rates and the distributors that plans are built with. -/
def expected (plans : List ChannelPlan) : List (Float × Distributor) :=
  plans.map fun plan =>
    (plan.rate, Distributor.begin plan.name plan.effectivePolicy)

/-- The rates and the distributors that were built. -/
def found (progress : Progress) : List (Float × Distributor) :=
  progress.channels.map fun built => (built.rate, built.channel.distributor)

theorem found_buildChannel
    {network : Network}
    {root : Token}
    {plan : ChannelPlan}
    {progress after : Progress}
    (built : buildChannel network root plan progress = .ok after) :
    found after = found progress ++ expected [plan] ∧
      (OnlyFrom .surroundings progress.events →
        OnlyFrom .surroundings after.events) := by
  unfold buildChannel at built
  split at built
  · cases built
  · split at built
    · cases built
    · next created =>
        obtain ⟨distributor, only⟩ := distributor_of_create created
        cases built
        exact ⟨by simp [found, expected, ← distributor], (·.append only)⟩

theorem found_buildChannels
    {networks : Nat → Network}
    {root : Token}
    {plans : List ChannelPlan}
    {progress after : Progress}
    (built : buildChannels networks root plans progress = (after, none)) :
    found after = found progress ++ expected plans ∧
      (OnlyFrom .surroundings progress.events →
        OnlyFrom .surroundings after.events) := by
  induction plans generalizing progress with
  | nil =>
      cases built
      exact ⟨(List.append_nil _).symm, id⟩
  | cons plan rest inductionHypothesis =>
      simp only [buildChannels] at built
      cases first : buildChannel (networks progress.channels.length) root plan
          progress with
      | error fault =>
          rw [first] at built
          cases built
      | ok between =>
          rw [first] at built
          obtain ⟨foundBetween, onlyBetween⟩ := found_buildChannel first
          obtain ⟨foundAfter, onlyAfter⟩ := inductionHypothesis built
          refine ⟨?_, onlyAfter ∘ onlyBetween⟩
          rw [foundAfter, foundBetween, List.append_assoc]
          rfl

/-- The source measures nothing while it is built. -/
theorem onlyFrom_buildSource
    (network : Network)
    (blueprint : Blueprint) :
    OnlyFrom .surroundings (buildSource network blueprint).2 := by
  unfold buildSource
  split
  · split <;> exact .nil _
  · dsimp only
    split
    · exact .nil _
    · unfold buildIntake
      split
      · exact .nil _
      · exact .notice _ _

end Start

namespace Pipeline

/-- A pipeline that has started and was not moved, and what was seen until
then. -/
structure Begun
    (blueprint : Blueprint)
    (pipeline : Pipeline)
    (events : List Event) : Prop where
  cache :
    pipeline.cache = .empty
  distributors :
    (pipeline.channels.map fun running =>
        (running.rate, running.channel.distributor)) =
      Start.expected blueprint.effectiveChannels
  unpolled :
    ∀ running ∈ pipeline.channels,
      running.inFlight = none ∧
        ∃ ticker task, running.loop = Loop.begin ticker task .origin
  producer :
    blueprint.role = .publisher →
      ∃ ticker,
        pipeline.source =
          .producer (Loop.begin ticker Producer.name .origin)
            (Producer.begin blueprint.trajectory blueprint.producer.logEvery)
  silent :
    OnlyFrom .surroundings events

/-- Every start that succeeds comes to such a pipeline. -/
theorem begun_of_start
    {networks : Nat → Network}
    {blueprint : Blueprint}
    {pipeline : Pipeline}
    (started : (start networks blueprint).result = .ok pipeline) :
    pipeline.Begun blueprint (start networks blueprint).events := by
  unfold start at started ⊢
  cases built : Start.buildChannels networks (StopSignal.fresh .empty).1.token
      blueprint.effectiveChannels
      ⟨[], (StopSignal.fresh .empty).2, [], []⟩ with
  | mk progress failure =>
      simp only [built] at started ⊢
      cases failure with
      | some cause =>
          cases started
      | none =>
          cases source : (Start.buildSource
              (networks blueprint.effectiveChannels.length) blueprint).1 with
          | error cause =>
              rw [source] at started
              cases started
          | ok made =>
              simp only [source] at started ⊢
              cases started
              obtain ⟨found, only⟩ := Start.found_buildChannels built
              have sourceOnly : OnlyFrom .surroundings (Start.sourceEvents made) := by
                cases made with
                | producer loop producer =>
                    exact .notice _ _
                | intake address intake =>
                    exact .nil _
              have channelsOnly :
                  OnlyFrom .surroundings
                    ((progress.channels.map Start.runChannel).flatMap
                      fun running => running.loop.beginEvents) :=
                .flatMap fun running _ => .notice _ _
              refine {
                cache := rfl
                distributors := ?_
                unpolled := ?_
                producer := ?_
                silent :=
                  (((only (.nil _)).append
                    (Start.onlyFrom_buildSource _ _)).append
                      sourceOnly).append channelsOnly
              }
              · rw [List.map_map]
                exact found
              · intro running member
                obtain ⟨channel, _, rfl⟩ := List.mem_map.mp member
                exact ⟨rfl, channel.ticker, channel.channel.distributor.name,
                  rfl⟩
              · intro role
                simp only [Start.buildSource, role] at source
                split at source
                · cases source
                · next ticker _ =>
                    cases source
                    exact ⟨ticker, rfl⟩

namespace Begun

variable
  {blueprint : Blueprint}
  {pipeline : Pipeline}
  {events : List Event}

/-- Every plan has become a channel in its place. -/
theorem exists_channel
    (begun : pipeline.Begun blueprint events)
    {position : Nat}
    {plan : ChannelPlan}
    (planned : blueprint.effectiveChannels[position]? = some plan) :
    ∃ running,
      pipeline.channels[position]? = some running ∧
        running.rate = plan.rate ∧
        running.channel.distributor =
          .begin plan.name plan.effectivePolicy := by
  have expected :
      (Start.expected blueprint.effectiveChannels)[position]? =
        some (plan.rate, .begin plan.name plan.effectivePolicy) := by
    rw [Start.expected, List.getElem?_map, planned]
    rfl
  rw [← begun.distributors, List.getElem?_map] at expected
  obtain ⟨running, isThere, built⟩ := Option.map_eq_some_iff.mp expected
  obtain ⟨rate, distributor⟩ := Prod.ext_iff.mp built
  exact ⟨running, isThere, rate, distributor⟩

end Begun

end Pipeline

end PositionFeed
