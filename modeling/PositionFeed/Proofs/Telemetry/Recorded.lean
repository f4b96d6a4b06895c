import Mathlib.Data.List.Basic
import PositionFeed.Telemetry.Notice

namespace PositionFeed

/-!
# What a recorder keeps of one series

A recorder groups observations by their series.  Looked up again, a series
holds what was observed of it, in order: its count is the number of measures
that raise it, and its levels are the ones that measures set it to.
-/

namespace Observation

/-- The value that a gauge is set to. -/
def level? : Observation → Option Float
  | .level amount => some amount
  | _ => none

/-- The value that joins a histogram. -/
def value? : Observation → Option Float
  | .value amount => some amount
  | _ => none

end Observation

@[simp] theorem measures_append
    (first second : List Event) :
    measures (first ++ second) = measures first ++ measures second :=
  List.filterMap_append

namespace Recorded

/-- The sum of a counter, nothing if it was never raised. -/
def counter (recorded : Recorded) (series : Series) : Nat :=
  (recorded.counters.lookup series).getD 0

/-- The values of a gauge in order, none if it was never set. -/
def levels (recorded : Recorded) (series : Series) : List Float :=
  (recorded.gauges.lookup series).getD []

/-- How many values a histogram has. -/
def valueCount (recorded : Recorded) (series : Series) : Nat :=
  (recorded.histograms.lookup series).getD 0

/-- A group holds what was picked of its series. -/
theorem lookup_collect
    (pick : Observation → Option α)
    (observations : List (Series × Observation))
    (series : Series) :
    ((collect pick observations).lookup series).getD [] =
      observations.filterMap fun observation =>
        if observation.1 = series then pick observation.2 else none := by
  let picked := observations.filterMap fun observation =>
    (pick observation.2).map fun value => (observation.1, value)
  let ofSeries (series : Series) : List α :=
    picked.filterMap fun entry =>
      if entry.1 = series then some entry.2 else none
  have grouped :
      ofSeries series =
        observations.filterMap fun observation =>
          if observation.1 = series then pick observation.2 else none := by
    simp only [ofSeries, picked, List.filterMap_filterMap]
    congr 1
    funext observation
    cases picks : pick observation.2 <;> simp
  rw [← grouped]
  by_cases observed : series ∈ (picked.map Prod.fst).eraseDups
  · have found :
        (collect pick observations).lookup series = some (ofSeries series) :=
      List.lookup_graph ofSeries observed
    rw [found]
    rfl
  · have nothing : ofSeries series = [] := by
      rw [List.filterMap_eq_nil_iff]
      intro entry member
      have other : entry.1 ≠ series := by
        rintro rfl
        exact observed
          (List.mem_eraseDups.mpr (List.mem_map_of_mem member))
      simp [other]
    have missing : (collect pick observations).lookup series = none := by
      rw [List.lookup_eq_none_iff]
      intro entry member
      obtain ⟨other, isObserved, rfl⟩ := List.mem_map.mp member
      have distinct : series ≠ other := by
        rintro rfl
        exact observed isObserved
      simpa using distinct
    rw [missing, nothing]
    rfl

/-- The length of a group is looked up as the group is. -/
theorem lookup_lengths
    (groups : List (Series × List α))
    (series : Series) :
    ((groups.map fun entry => (entry.1, entry.2.length)).lookup
        series).getD 0 =
      ((groups.lookup series).getD []).length := by
  induction groups with
  | nil =>
      rfl
  | cons entry rest inductionHypothesis =>
      obtain ⟨other, group⟩ := entry
      cases same : series == other with
      | true =>
          simp [List.lookup_cons, same]
      | false =>
          simpa [List.lookup_cons, same] using inductionHypothesis

/-- A counter that only measures of one kind raise, each once, holds how many
there were. -/
theorem counter_ofMeasures
    {series : Series}
    {raises : Measure → Bool}
    (once : ∀ measure,
      measure.observations.count (series, .count) =
        if raises measure then 1 else 0)
    (measures : List Measure) :
    (ofMeasures measures).counter series = measures.countP raises := by
  have counted :
      (ofMeasures measures).counter series =
        (measures.flatMap Measure.observations).count (series, .count) := by
    simp only [counter, ofMeasures, lookup_lengths, lookup_collect,
      List.length_filterMap_eq_countP, List.count_eq_countP]
    refine List.countP_congr fun observation _ => ?_
    obtain ⟨other, observed⟩ := observation
    by_cases same : other = series
    · cases observed <;> simp [same]
    · simp [same]
  rw [counted]
  clear counted
  induction measures with
  | nil =>
      rfl
  | cons measure rest inductionHypothesis =>
      rw [List.flatMap_cons, List.count_append, once, inductionHypothesis,
        List.countP_cons, Nat.add_comm]

/-- What is picked of a series is what each measure brings to it. -/
theorem picked_eq
    (pick : Observation → Option α)
    {series : Series}
    {brings : Measure → Option α}
    (once : ∀ measure,
      (measure.observations.filterMap fun observation =>
        if observation.1 = series then pick observation.2 else none) =
        (brings measure).toList)
    (measures : List Measure) :
    ((measures.flatMap Measure.observations).filterMap fun observation =>
        if observation.1 = series then pick observation.2 else none) =
      measures.filterMap brings := by
  rw [List.filterMap_flatMap, List.filterMap_eq_flatMap_toList]
  congr 1
  funext measure
  exact once measure

/-- A gauge that only measures of one kind set, each once, holds what they set
it to. -/
theorem levels_ofMeasures
    {series : Series}
    {level? : Measure → Option Float}
    (once : ∀ measure,
      (measure.observations.filterMap fun observation =>
        if observation.1 = series then observation.2.level? else none) =
        (level? measure).toList)
    (measures : List Measure) :
    (ofMeasures measures).levels series = measures.filterMap level? := by
  simp only [levels, ofMeasures, lookup_collect]
  exact picked_eq Observation.level? once measures

/-- A histogram that only measures of one kind bring values to, each once, has
as many as there were. -/
theorem valueCount_ofMeasures
    {series : Series}
    {value? : Measure → Option Float}
    (once : ∀ measure,
      (measure.observations.filterMap fun observation =>
        if observation.1 = series then observation.2.value? else none) =
        (value? measure).toList)
    (measures : List Measure) :
    (ofMeasures measures).valueCount series =
      (measures.filterMap value?).length := by
  simp only [valueCount, ofMeasures, lookup_lengths, lookup_collect]
  exact congrArg List.length (picked_eq Observation.value? once measures)

end Recorded

end PositionFeed
