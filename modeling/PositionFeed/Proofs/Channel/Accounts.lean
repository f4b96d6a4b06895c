import PositionFeed.Proofs.Channel.Handoff
import PositionFeed.Proofs.Schedule.Tally
import PositionFeed.Proofs.Telemetry.Origin

namespace PositionFeed

/-!
# The accounts of a channel

A channel keeps its accounts in several places: counters, a cursor, the
statistics of ages, and measures.  Each of them says what the outlet was handed
and what it answered, so they agree after every tick, whatever the outlet does.
A tick that was cut off is in none of them.
-/

/-- A sample that an outlet was handed, and what the outlet answered. -/
structure Handoff where
  sample : Sample
  answer : Except Fault Unit

namespace Handoff

def accepted? (handoff : Handoff) : Option Sample :=
  match handoff.answer with
  | .ok () => some handoff.sample
  | .error _ => none

def refusal? (handoff : Handoff) : Option Fault :=
  faultOf handoff.answer

/-- The samples that were accepted, in order. -/
def taken (handoffs : List Handoff) : List Sample :=
  handoffs.filterMap accepted?

/-- What samples were refused for, in order. -/
def refusals (handoffs : List Handoff) : List Fault :=
  handoffs.filterMap refusal?

@[simp] theorem taken_append
    (first second : List Handoff) :
    taken (first ++ second) = taken first ++ taken second :=
  List.filterMap_append

@[simp] theorem refusals_append
    (first second : List Handoff) :
    refusals (first ++ second) = refusals first ++ refusals second :=
  List.filterMap_append

end Handoff

namespace Counters

/-- How many ticks ended so. -/
def endedAs (counters : Counters) : TickLabel → Nat
  | .noData => counters.noData
  | .stale => counters.stale
  | .noAudience => counters.noAudience
  | .forwarded => counters.forwarded
  | .failed => counters.failed

theorem endedAs_record
    (counters : Counters)
    (outcome : TickOutcome)
    (label : TickLabel) :
    (counters.record outcome).endedAs label =
      counters.endedAs label + if outcome.label = label then 1 else 0 := by
  cases outcome <;> cases label <;> rfl

theorem endedAs_fail
    (counters : Counters)
    (label : TickLabel) :
    counters.fail.endedAs label =
      counters.endedAs label + if .failed = label then 1 else 0 := by
  cases label <;> rfl

@[simp] theorem ticks_record
    (counters : Counters)
    (outcome : TickOutcome) :
    (counters.record outcome).ticks = counters.ticks + 1 := by
  cases outcome <;> simp only [ticks, record] <;> omega

@[simp] theorem failed_record
    (counters : Counters)
    (outcome : TickOutcome) :
    (counters.record outcome).failed = counters.failed := by
  cases outcome <;> rfl

end Counters

/-! ## What a recorder keeps of a channel -/

namespace Series

/-- Counts the ticks of a channel that ended so. -/
def ticks (name : String) (label : TickLabel) : Series :=
  ⟨"distribution_ticks_total", [("channel", name), ("outcome", label.name)]⟩

/-- Follows the cursor of a channel. -/
def cursor (name : String) : Series :=
  ⟨"channel_cursor", [("channel", name)]⟩

/-- Samples how old the samples of a channel were. -/
def sampleAge (name : String) : Series :=
  ⟨"sample_age_ms", [("channel", name)]⟩

end Series

/-- The number that the cursor of a channel was moved to. -/
def Measure.cursorOf? (name : String) : Measure → Option Nat
  | .cursor channel sequence => if channel = name then some sequence else none
  | _ => none

/-- The age that a sample of a channel had. -/
def Measure.ageOf? (name : String) : Measure → Option Float
  | .sampleAge channel milliseconds =>
      if channel = name then some milliseconds else none
  | _ => none

namespace Recorded

theorem counter_ticks
    (name : String)
    (label : TickLabel)
    (measures : List Measure) :
    (ofMeasures measures).counter (.ticks name label) =
      measures.count (.tick name label) := by
  refine counter_ofMeasures (fun measure => ?_) measures
  cases measure with
  | tick channel ended =>
      have distinct : ended.name = label.name ↔ ended = label := by
        cases ended <;> cases label <;> decide
      by_cases sameChannel : channel = name <;>
        by_cases sameEnd : ended = label <;>
          simp [Measure.observations, Series.ticks, sameChannel, sameEnd,
            distinct]
  | _ =>
      simp [Measure.observations, Series.ticks]

theorem levels_cursor
    (name : String)
    (measures : List Measure) :
    (ofMeasures measures).levels (.cursor name) =
      (measures.filterMap (Measure.cursorOf? name)).map countLevel := by
  rw [List.map_filterMap]
  refine levels_ofMeasures (fun measure => ?_) measures
  cases measure with
  | cursor channel sequence =>
      by_cases same : channel = name <;>
        simp [Measure.observations, Series.cursor, Measure.cursorOf?,
          Observation.level?, same]
  | _ =>
      simp [Measure.observations, Series.cursor, Measure.cursorOf?,
        Observation.level?]

theorem valueCount_sampleAge
    (name : String)
    (measures : List Measure) :
    (ofMeasures measures).valueCount (.sampleAge name) =
      (measures.filterMap (Measure.ageOf? name)).length := by
  refine valueCount_ofMeasures (fun measure => ?_) measures
  cases measure with
  | sampleAge channel milliseconds =>
      by_cases same : channel = name <;>
        simp [Measure.observations, Series.sampleAge, Measure.ageOf?,
          Observation.value?, same]
  | _ =>
      simp [Measure.observations, Series.sampleAge, Measure.ageOf?,
        Observation.value?]

end Recorded

namespace SilentOf

variable
  {name : String}
  {events : List Event}

theorem no_ticks
    (silent : SilentOf (.distributor name) events)
    (label : TickLabel) :
    (measures events).count (.tick name label) = 0 :=
  List.count_eq_zero.mpr fun member => silent _ member rfl

theorem no_cursors
    (silent : SilentOf (.distributor name) events) :
    (measures events).filterMap (Measure.cursorOf? name) = [] := by
  refine List.filterMap_eq_nil_iff.mpr fun measure member => ?_
  cases measure with
  | cursor channel sequence =>
      have other : channel ≠ name := by
        rintro rfl
        exact silent _ member rfl
      simp [Measure.cursorOf?, other]
  | _ =>
      rfl

theorem no_ages
    (silent : SilentOf (.distributor name) events) :
    (measures events).filterMap (Measure.ageOf? name) = [] := by
  refine List.filterMap_eq_nil_iff.mpr fun measure member => ?_
  cases measure with
  | sampleAge channel milliseconds =>
      have other : channel ≠ name := by
        rintro rfl
        exact silent _ member rfl
      simp [Measure.ageOf?, other]
  | _ =>
      rfl

end SilentOf

namespace Distributor

@[simp] theorem count_push
    (statistics : RunningStatistics Float)
    (value : Float) :
    (statistics.push value).count = statistics.count + 1 := by
  unfold RunningStatistics.push
  split
  · next nothing =>
      simp [nothing]
  · rfl

/-- The measures in the name of a distributor say what it counted and which
samples were taken. -/
structure Told
    (name : String)
    (counters : Counters)
    (taken : List Sample)
    (events : List Event) : Prop where
  outcomes :
    ∀ label,
      (measures events).count (.tick name label) = counters.endedAs label
  cursors :
    (measures events).filterMap (Measure.cursorOf? name) =
      taken.map Sample.sequence
  ages :
    ((measures events).filterMap (Measure.ageOf? name)).length = taken.length

/-- What is told later has to say what is counted and taken later. -/
theorem Told.append
    {name : String}
    {counters counted : Counters}
    {taken : List Sample}
    {events : List Event}
    (told : Told name counters taken events)
    {later : List Event}
    (more : List Sample)
    (outcomes :
      ∀ label,
        counted.endedAs label =
          counters.endedAs label + (measures later).count (.tick name label))
    (cursors :
      (measures later).filterMap (Measure.cursorOf? name) =
        more.map Sample.sequence)
    (ages :
      ((measures later).filterMap (Measure.ageOf? name)).length =
        more.length) :
    Told name counted (taken ++ more) (events ++ later) where
  outcomes label := by
    rw [measures_append, List.count_append, told.outcomes, outcomes]
  cursors := by
    rw [measures_append, List.filterMap_append, told.cursors, cursors,
      List.map_append]
  ages := by
    rw [measures_append, List.filterMap_append, List.length_append, told.ages,
      ages, List.length_append]

/-- What holds of a distributor that began with nothing, while these positions
entered the cache, its outlet gave these answers, and these events were seen. -/
structure Accounts
    (positions : List Position)
    (handoffs : List Handoff)
    (events : List Event)
    (distributor : Distributor) : Prop where
  ledger :
    Ledger positions distributor.cursor (Handoff.taken handoffs)
  offered :
    ∀ handoff ∈ handoffs, handoff.sample.RecordedIn positions
  lastForwarded :
    distributor.counters.lastForwarded = distributor.cursor
  forwarded :
    distributor.counters.forwarded = (Handoff.taken handoffs).length
  failed :
    distributor.counters.failed = (Handoff.refusals handoffs).length
  ages :
    distributor.ages.count = (Handoff.taken handoffs).length
  told :
    Told distributor.name distributor.counters (Handoff.taken handoffs) events

namespace Accounts

variable
  {positions : List Position}
  {handoffs : List Handoff}
  {events : List Event}
  {distributor : Distributor}

theorem begin
    (name : String)
    (policy : ForwardPolicy)
    (silent : SilentOf (.distributor name) events) :
    (Distributor.begin name policy).Accounts [] [] events where
  ledger := .begin
  offered := by simp
  lastForwarded := rfl
  forwarded := rfl
  failed := rfl
  ages := rfl
  told := {
    outcomes := fun label => by
      have nothing : Counters.zero.endedAs label = 0 := by
        cases label <;> rfl
      exact (silent.no_ticks label).trans nothing.symm
    cursors := silent.no_cursors
    ages := congrArg List.length silent.no_ages
  }

/-- The accounts stay right while positions enter the cache. -/
theorem update
    (accounts : distributor.Accounts positions handoffs events)
    (later : List Position) :
    distributor.Accounts (positions ++ later) handoffs events where
  ledger := accounts.ledger.update later
  offered handoff member := (accounts.offered handoff member).append later
  lastForwarded := accounts.lastForwarded
  forwarded := accounts.forwarded
  failed := accounts.failed
  ages := accounts.ages
  told := accounts.told

/-- The accounts stay right while something else is measured. -/
theorem overhear
    (accounts : distributor.Accounts positions handoffs events)
    {later : List Event}
    (silent : SilentOf (.distributor distributor.name) later) :
    distributor.Accounts positions handoffs (events ++ later) where
  ledger := accounts.ledger
  offered := accounts.offered
  lastForwarded := accounts.lastForwarded
  forwarded := accounts.forwarded
  failed := accounts.failed
  ages := accounts.ages
  told := by
    rw [← List.append_nil (Handoff.taken handoffs)]
    refine accounts.told.append [] (fun label => ?_) silent.no_cursors
      (congrArg List.length silent.no_ages)
    rw [silent.no_ticks, Nat.add_zero]

/-- A tick that hands nothing on is counted as what it was. -/
theorem rest
    (accounts : distributor.Accounts positions handoffs events)
    {outcome : TickOutcome}
    (nothing : outcome.label ≠ .forwarded) :
    (distributor.restWith outcome).Accounts positions handoffs
      (events ++ (distributor.settleRest outcome).2.2) := by
  have forwarded :
      (distributor.counters.record outcome).forwarded =
        distributor.counters.forwarded := by
    cases outcome <;> first | rfl | exact absurd rfl nothing
  have lastForwarded :
      (distributor.counters.record outcome).lastForwarded =
        distributor.counters.lastForwarded := by
    cases outcome <;> first | rfl | exact absurd rfl nothing
  refine {
    ledger := accounts.ledger
    offered := accounts.offered
    lastForwarded := lastForwarded.trans accounts.lastForwarded
    forwarded := forwarded.trans accounts.forwarded
    failed := (Counters.failed_record _ outcome).trans accounts.failed
    ages := accounts.ages
    told := ?_
  }
  rw [← List.append_nil (Handoff.taken handoffs)]
  refine accounts.told.append [] (fun label => ?_) rfl rfl
  simp [restWith, Counters.endedAs_record, settleRest, measures,
    List.count_singleton]

/-- A sample that is refused is counted as failed. -/
theorem refuse
    (accounts : distributor.Accounts positions handoffs events)
    {sample : Sample}
    (recorded : sample.RecordedIn positions)
    (now : Int64)
    (fault : Fault) :
    distributor.refused.Accounts positions
      (handoffs ++ [⟨sample, .error fault⟩])
      (events ++ (distributor.settle now sample (.error fault)).2.2) := by
  have nothing :
      Handoff.taken (handoffs ++ [⟨sample, .error fault⟩]) =
        Handoff.taken handoffs ++ [] :=
    Handoff.taken_append handoffs _
  have once :
      Handoff.refusals (handoffs ++ [⟨sample, .error fault⟩]) =
        Handoff.refusals handoffs ++ [fault] :=
    Handoff.refusals_append handoffs _
  refine {
    ledger := ?_
    offered := List.forall_mem_append.mpr ⟨accounts.offered, by simpa⟩
    lastForwarded := accounts.lastForwarded
    forwarded := ?_
    failed := ?_
    ages := ?_
    told := ?_
  }
  · rw [nothing, List.append_nil]
    exact accounts.ledger
  · rw [nothing, List.append_nil]
    exact accounts.forwarded
  · rw [once, List.length_append, ← accounts.failed]
    rfl
  · rw [nothing, List.append_nil]
    exact accounts.ages
  · rw [nothing]
    refine accounts.told.append [] (fun label => ?_) rfl rfl
    simp [refused, Counters.endedAs_fail, settle, measures,
      List.count_singleton]

/-- A sample that is accepted moves the cursor and is counted once. -/
theorem accept
    (accounts : distributor.Accounts positions handoffs events)
    {sample : Sample}
    (recorded : sample.RecordedIn positions)
    (newer : distributor.cursor < sample.sequence)
    (now : Int64) :
    (distributor.accepted now sample).Accounts positions
      (handoffs ++ [⟨sample, .ok ()⟩])
      (events ++ (distributor.settle now sample (.ok ())).2.2) := by
  have once :
      Handoff.taken (handoffs ++ [⟨sample, .ok ()⟩]) =
        Handoff.taken handoffs ++ [sample] :=
    Handoff.taken_append handoffs _
  have nothing :
      Handoff.refusals (handoffs ++ [⟨sample, .ok ()⟩]) =
        Handoff.refusals handoffs ++ [] :=
    Handoff.refusals_append handoffs _
  have seen :
      measures (distributor.settle now sample (.ok ())).2.2 =
        [.cursor distributor.name sample.sequence,
          .sampleAge distributor.name (age now sample),
          .tick distributor.name .forwarded] := by
    simp only [settle, acceptedEvents]
    split <;> rfl
  refine {
    ledger := ?_
    offered := List.forall_mem_append.mpr ⟨accounts.offered, by simpa⟩
    lastForwarded := rfl
    forwarded := ?_
    failed := ?_
    ages := ?_
    told := ?_
  }
  · rw [once]
    exact accounts.ledger.accept recorded newer
  · rw [once, List.length_append, ← accounts.forwarded]
    rfl
  · rw [nothing, List.append_nil]
    exact accounts.failed
  · rw [once, List.length_append, ← accounts.ages]
    exact count_push _ _
  · rw [once]
    refine accounts.told.append [sample] (fun label => ?_) ?_ ?_
    · rw [seen]
      by_cases sameEnd : .forwarded = label <;>
        simp [accepted, Counters.endedAs_record, TickOutcome.label, sameEnd]
    · rw [seen]
      simp [Measure.cursorOf?, List.filterMap_cons]
    · rw [seen]
      simp [Measure.ageOf?, List.filterMap_cons]

end Accounts

end Distributor

/-- A decision that a tick may come to: it rests for a reason, or hands on a
recorded sample that is newer than the cursor. -/
def Decision.Sound
    (positions : List Position)
    (cursor : Nat) :
    Decision → Prop
  | .rest outcome => outcome.label ≠ .forwarded
  | .handOff sample => sample.RecordedIn positions ∧ cursor < sample.sequence

namespace Channel

variable
  {positions : List Position}
  {handoffs : List Handoff}
  {events : List Event}

/-- What a tick decides against the cache is sound. -/
theorem sound_decide
    (channel : Channel)
    (positions : List Position) :
    (channel.decide (.ofUpdates positions)).Sound positions
      channel.distributor.cursor := by
  cases decision : channel.decide (.ofUpdates positions) with
  | rest outcome =>
      intro isForwarded
      simp only [decide, Distributor.decide] at decision
      split at decision
      · cases decision
        cases isForwarded
      · split at decision
        · cases decision
          cases isForwarded
        · split at decision
          · cases decision
            cases isForwarded
          · cases decision
  | handOff sample =>
      obtain ⟨held, newer, _⟩ :=
        Distributor.decide_eq_handOff_iff.mp decision
      exact ⟨.of_latest held, newer⟩

/-- What a decision hands to the outlet, and what the outlet answers. -/
def handsOver
    (network : Network)
    (decision : Decision)
    (channel : Channel) :
    List Handoff :=
  match decision with
  | .rest _ => []
  | .handOff sample =>
      [⟨sample, (channel.outlet.send network sample).2.1⟩]

@[simp] theorem name_carryOut
    (network : Network)
    (now : Int64)
    (decision : Decision)
    (channel : Channel) :
    (channel.carryOut network now decision).1.distributor.name =
      channel.distributor.name := by
  cases decision with
  | rest outcome =>
      rfl
  | handOff sample =>
      simp only [carryOut, Distributor.settle]
      split <;> rfl

/-- What is carried out is measured in the name of the channel. -/
theorem silent_carryOut
    {origin : Origin}
    (surroundings : .surroundings ≠ origin)
    {channel : Channel}
    (other : .distributor channel.distributor.name ≠ origin)
    (network : Network)
    (now : Int64)
    (decision : Decision) :
    SilentOf origin (channel.carryOut network now decision).2.2 := by
  cases decision with
  | rest outcome =>
      exact (Distributor.onlyFrom_settleRest _ outcome).silent other
  | handOff sample =>
      exact
        ((Outlet.onlyFrom_send network sample _).silent surroundings).append
          ((Distributor.onlyFrom_settle _ now sample _).silent other)

/-- What is carried out is one tick, and it fails as the task of the loop
does. -/
theorem counters_carryOut
    (network : Network)
    (now : Int64)
    (decision : Decision)
    (channel : Channel) :
    let carried := channel.carryOut network now decision
    carried.1.distributor.counters.ticks =
        channel.distributor.counters.ticks + 1 ∧
      carried.1.distributor.counters.failed =
        channel.distributor.counters.failed +
          (faultOf (carried.2.1.map fun _ => ())).toList.length := by
  cases decision with
  | rest outcome =>
      exact ⟨Counters.ticks_record _ outcome, Counters.failed_record _ outcome⟩
  | handOff sample =>
      simp only [carryOut, Distributor.settle]
      split
      · exact ⟨Counters.ticks_record _ _, rfl⟩
      · exact ⟨rfl, rfl⟩

/-- The accounts stay right over a tick that carries out a sound decision. -/
theorem accounts_carryOut
    {channel : Channel}
    (accounts : channel.distributor.Accounts positions handoffs events)
    (network : Network)
    (now : Int64)
    {decision : Decision}
    (sound : decision.Sound positions channel.distributor.cursor) :
    let carried := channel.carryOut network now decision
    carried.1.distributor.Accounts positions
      (handoffs ++ channel.handsOver network decision)
      (events ++ carried.2.2) := by
  cases decision with
  | rest outcome =>
      rw [handsOver, List.append_nil]
      exact accounts.rest sound
  | handOff sample =>
      obtain ⟨recorded, newer⟩ := sound
      have others :
          SilentOf (.distributor channel.distributor.name)
            (channel.outlet.send network sample).2.2 :=
        (Outlet.onlyFrom_send network sample channel.outlet).silent nofun
      have before := accounts.overhear others
      simp only [carryOut, handsOver]
      rw [← List.append_assoc]
      cases (channel.outlet.send network sample).2.1 with
      | ok done =>
          exact before.accept recorded newer now
      | error fault =>
          exact before.refuse recorded now fault

end Channel

end PositionFeed
