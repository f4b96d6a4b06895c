import Mathlib.Logic.Function.Iterate
import PositionFeed.Proofs.Telemetry.Origin

namespace PositionFeed

/-!
# The points that a producer takes

A producer asks its walk for one point in every tick, and measures one sample
for it.
-/

namespace Walk

/-- The points that a walk gives when it is asked at these times of the day. -/
def points (wave : Wave) (walk : Walk) : List Int64 → List Position
  | [] => []
  | clock :: rest =>
      walk.position wave clock :: points wave walk.advance rest

@[simp] theorem points_concat
    (wave : Wave)
    (walk : Walk)
    (clocks : List Int64)
    (clock : Int64) :
    walk.points wave (clocks ++ [clock]) =
      walk.points wave clocks ++
        [(advance^[clocks.length] walk).position wave clock] := by
  induction clocks generalizing walk with
  | nil =>
      rfl
  | cons first rest inductionHypothesis =>
      simp [points, inductionHypothesis]

@[simp] theorem length_points
    (wave : Wave)
    (walk : Walk)
    (clocks : List Int64) :
    (walk.points wave clocks).length = clocks.length := by
  induction clocks generalizing walk with
  | nil =>
      rfl
  | cons first rest inductionHypothesis =>
      simp [points, inductionHypothesis]

end Walk

def Measure.isProduced : Measure → Bool
  | .sampleProduced _ => true
  | _ => false

/-- Counts the samples that a producer made. -/
def Series.samplesProduced : Series :=
  ⟨"samples_produced_total", []⟩

theorem Recorded.counter_samplesProduced
    (measures : List Measure) :
    (ofMeasures measures).counter .samplesProduced =
      measures.countP Measure.isProduced := by
  refine counter_ofMeasures (fun measure => ?_) measures
  cases measure <;>
    simp [Measure.observations, Series.samplesProduced, Measure.isProduced]

/-- A tick of a producer is measured as one sample. -/
theorem Producer.produced_events
    (producer : Producer)
    (sample : Sample) :
    (measures (producer.events sample)).countP Measure.isProduced = 1 := by
  by_cases logs : (producer.ticks + 1) % producer.logEvery = 0 <;>
    simp [events, logs, measures, Measure.isProduced]

theorem SilentOf.none_produced
    {events : List Event}
    (silent : SilentOf .producer events) :
    (measures events).countP Measure.isProduced = 0 := by
  refine List.countP_eq_zero.mpr fun measure member => ?_
  have other := silent measure member
  cases measure <;>
    simp_all [Measure.isProduced, Measure.origin]

end PositionFeed
