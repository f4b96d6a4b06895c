import PositionFeed.Decimal.Binary64

namespace PositionFeed

/-!
# Measures

A measure is one thing that the feed counts, sets or samples.  Measures of one
series share a name and labels.  A recorder keeps the sum of a counter, every
value of a gauge and the number of values of a histogram.
-/

/-- How a tick of a channel ended. -/
inductive TickLabel where
  /-- There was nothing in the cache. -/
  | noData
  /-- There was nothing new in the cache. -/
  | stale
  /-- Nobody listened. -/
  | noAudience
  /-- A sample was handed on. -/
  | forwarded
  /-- A sample was refused. -/
  | failed
  deriving Repr, DecidableEq

/-- The word for the end of a tick. -/
def TickLabel.name : TickLabel → String
  | .noData => "no_data"
  | .stale => "stale"
  | .noAudience => "no_audience"
  | .forwarded => "forwarded"
  | .failed => "failed"

/-- One thing that is measured. -/
inductive Measure where
  /-- A sample entered the cache of a publisher. -/
  | sampleProduced (sequence : Nat)
  /-- A tick of a channel ended. -/
  | tick (channel : String) (label : TickLabel)
  /-- A channel handed on the sample with this number. -/
  | cursor (channel : String) (sequence : Nat)
  /-- A sample had this age when it was handed on. -/
  | sampleAge (channel : String) (milliseconds : Float)
  /-- A periodic task failed. -/
  | tickFailure (task : String)
  /-- A schedule gave up its grid after falling so far behind. -/
  | resync (task : String) (milliseconds : Float)
  /-- So many clients are connected. -/
  | clients (channel : String) (count : Nat)
  /-- A datagram came in. -/
  | datagram (valid : Bool)
  deriving DecidableEq

/-- A name and labels under which values are kept. -/
structure Series where
  name : String
  /-- The labels and their values. -/
  labels : List (String × String)
  deriving Repr, DecidableEq

def Series.text (series : Series) : String :=
  series.name ++ "\x7b" ++
    ",".intercalate (series.labels.map fun label => label.1 ++ "=" ++ label.2) ++
    "\x7d"

/-- What happens to a series. -/
inductive Observation where
  /-- Its count grows by one. -/
  | count
  /-- It is set to a value. -/
  | level (value : Float)
  /-- A value joins it. -/
  | value (value : Float)
  deriving DecidableEq

/-- A count as a double. -/
def countLevel (count : Nat) : Float :=
  Binary64.nearest false count 1

/-- The series that a measure concerns, and what happens to each. -/
def Measure.observations : Measure → List (Series × Observation)
  | .sampleProduced sequence =>
      [(⟨"samples_produced_total", []⟩, .count),
        (⟨"last_sequence", []⟩, .level (countLevel sequence))]
  | .tick channel label =>
      [(⟨"distribution_ticks_total",
        [("channel", channel), ("outcome", label.name)]⟩, .count)]
  | .cursor channel sequence =>
      [(⟨"channel_cursor", [("channel", channel)]⟩,
        .level (countLevel sequence))]
  | .sampleAge channel milliseconds =>
      [(⟨"sample_age_ms", [("channel", channel)]⟩, .value milliseconds)]
  | .tickFailure task =>
      [(⟨"tick_failures_total", [("task", task)]⟩, .count)]
  | .resync task milliseconds =>
      [(⟨"drift_resyncs_total", [("task", task)]⟩, .count),
        (⟨"drift_lag_ms", [("task", task)]⟩, .value milliseconds)]
  | .clients channel count =>
      [(⟨"connected_clients", [("channel", channel)]⟩,
        .level (countLevel count))]
  | .datagram valid =>
      [(⟨"bus_received_total",
        [("status", if valid then "valid" else "invalid")]⟩, .count)]

/-- What a recorder keeps. -/
structure Recorded where
  /-- The sum of each counter. -/
  counters : List (Series × Nat)
  /-- The values of each gauge, in order. -/
  gauges : List (Series × List Float)
  /-- The number of values of each histogram. -/
  histograms : List (Series × Nat)

namespace Recorded

/-- The observations that the function picks, series by series. -/
def collect (pick : Observation → Option α) (observations : List (Series × Observation)) :
    List (Series × List α) :=
  let picked := observations.filterMap fun observation =>
    (pick observation.2).map fun value => (observation.1, value)
  (picked.map Prod.fst).eraseDups.map fun series =>
    (series, picked.filterMap fun entry =>
      if entry.1 = series then some entry.2 else none)

/-- What a recorder keeps of measures. -/
def ofMeasures (measures : List Measure) : Recorded :=
  let observations := measures.flatMap Measure.observations
  let counted := collect
    (fun observation => match observation with
      | .count => some ()
      | _ => none) observations
  let levels := collect
    (fun observation => match observation with
      | .level value => some value
      | _ => none) observations
  let values := collect
    (fun observation => match observation with
      | .value value => some value
      | _ => none) observations
  { counters := counted.map fun entry => (entry.1, entry.2.length)
    gauges := levels
    histograms := values.map fun entry => (entry.1, entry.2.length) }

end Recorded

end PositionFeed
