import PositionFeed.Blueprint.Basic
import PositionFeed.Cache
import PositionFeed.Fault
import PositionFeed.Telemetry.Notice
import PositionFeed.Telemetry.RunningStatistics
import PositionFeed.Word

namespace PositionFeed

/-!
# Distributors

A distributor hands the newest sample to one transport, and no sample twice.
It remembers the number of the last sample that the transport took, its cursor.
A tick has two halves: it decides from the cache and the audience whether there
is something to hand on, and it settles what the transport answered.  A refused
sample leaves the cursor where it is, so the next tick tries again with
whatever is newest then.
-/

/-- What a tick came to. -/
inductive TickOutcome where
  /-- The cache is empty. -/
  | noData
  /-- The newest sample was handed on before. -/
  | stale
  /-- Nobody listens. -/
  | noAudience
  /-- The sample with this number was handed on. -/
  | forwarded (sequence : Nat)
  deriving Repr, DecidableEq

def TickOutcome.label : TickOutcome → TickLabel
  | .noData => .noData
  | .stale => .stale
  | .noAudience => .noAudience
  | .forwarded _ => .forwarded

/-- What a distributor counts. -/
structure Counters where
  /-- Ticks that found the cache empty. -/
  noData : Nat
  /-- Ticks that found nothing new. -/
  stale : Nat
  /-- Ticks that found no audience. -/
  noAudience : Nat
  /-- Ticks that handed a sample on. -/
  forwarded : Nat
  /-- Ticks whose sample was refused. -/
  failed : Nat
  /-- The number of the last sample handed on, zero before the first. -/
  lastForwarded : Nat
  deriving Repr, DecidableEq

namespace Counters

/-- The counters before the first tick. -/
def zero : Counters := ⟨0, 0, 0, 0, 0, 0⟩

def record (counters : Counters) : TickOutcome → Counters
  | .noData => { counters with noData := counters.noData + 1 }
  | .stale => { counters with stale := counters.stale + 1 }
  | .noAudience => { counters with noAudience := counters.noAudience + 1 }
  | .forwarded sequence =>
      { counters with
        forwarded := counters.forwarded + 1
        lastForwarded := sequence }

/-- Counts a refused sample. -/
def fail (counters : Counters) : Counters :=
  { counters with failed := counters.failed + 1 }

def ticks (counters : Counters) : Nat :=
  counters.noData + counters.stale + counters.noAudience + counters.forwarded +
    counters.failed

end Counters

/-- What hands samples to one transport. -/
structure Distributor where
  name : String
  /-- When it hands a sample on. -/
  policy : ForwardPolicy
  /-- The number of the last sample that the transport took. -/
  cursor : Nat
  counters : Counters
  /-- How old the samples were that the transport took. -/
  ages : RunningStatistics Float

/-- What a tick finds to do. -/
inductive Decision where
  /-- Nothing, for a reason. -/
  | rest (outcome : TickOutcome)
  | handOff (sample : Sample)
  deriving DecidableEq

/-- What is left of a channel at the end. -/
structure ChannelReport where
  /-- The name of the channel. -/
  channel : String
  counters : Counters
  /-- How old its samples were, in milliseconds. -/
  ages : Summary
  deriving DecidableEq

namespace Distributor

/-- The distributor before its first tick. -/
def begin (name : String) (policy : ForwardPolicy) : Distributor where
  name := name
  policy := policy
  cursor := 0
  counters := .zero
  ages := .empty

/-- After how many samples a distributor logs its progress. -/
def progressInterval : Nat := 50

/-- What a tick finds to do, given the newest sample and whether anybody
listens. -/
def decide (distributor : Distributor) (latest : Option Sample)
    (audience : Bool) : Decision :=
  match latest with
  | none => .rest .noData
  | some sample =>
      if sample.sequence ≤ distributor.cursor then .rest .stale
      else if distributor.policy = .requireAudience ∧ ¬ audience then
        .rest .noAudience
      else .handOff sample

/-- The age of a sample in milliseconds, kept within 64 bits. -/
def age (now : Int64) (sample : Sample) : Float :=
  let difference := now.toInt - sample.position.timestamp.toInt
  let bounded := Word.clampSigned 64 difference
  Binary64.nearest (bounded < 0) bounded.natAbs 1

/-- The distributor after a tick that handed nothing on. -/
def restWith (distributor : Distributor) (outcome : TickOutcome) :
    Distributor :=
  { distributor with counters := distributor.counters.record outcome }

/-- The distributor after its sample was refused. -/
def refused (distributor : Distributor) : Distributor :=
  { distributor with counters := distributor.counters.fail }

/-- The distributor after its sample was taken. -/
def accepted (distributor : Distributor) (now : Int64) (sample : Sample) :
    Distributor :=
  { distributor with
    cursor := sample.sequence
    counters := distributor.counters.record (.forwarded sample.sequence)
    ages := distributor.ages.push (age now sample) }

/-- What is to be seen when a sample was taken. -/
def acceptedEvents (distributor : Distributor) (now : Int64)
    (sample : Sample) : List Event :=
  let forwarded := distributor.counters.forwarded + 1
  [.measure (.cursor distributor.name sample.sequence),
    .measure (.sampleAge distributor.name (age now sample)),
    .measure (.tick distributor.name .forwarded)] ++
    if forwarded % progressInterval = 0 then
      [.notice (.distributionProgress forwarded sample.sequence)]
    else []

/-- Settles a tick that decided to hand on a sample. -/
def settle (distributor : Distributor) (now : Int64) (sample : Sample)
    (answer : Except Fault Unit) :
    Distributor × Except Fault TickOutcome × List Event :=
  match answer with
  | .ok () =>
      (distributor.accepted now sample, .ok (.forwarded sample.sequence),
        distributor.acceptedEvents now sample)
  | .error fault =>
      (distributor.refused, .error fault,
        [.measure (.tick distributor.name .failed)])

/-- Settles a tick that decided to rest. -/
def settleRest (distributor : Distributor) (outcome : TickOutcome) :
    Distributor × Except Fault TickOutcome × List Event :=
  (distributor.restWith outcome, .ok outcome,
    [.measure (.tick distributor.name outcome.label)])

/-- One tick, given the newest sample, whether anybody listens, and what the
transport would answer. -/
def tick (distributor : Distributor) (latest : Option Sample) (audience : Bool)
    (now : Int64) (answer : Sample → Except Fault Unit) :
    Distributor × Except Fault TickOutcome × List Event :=
  match distributor.decide latest audience with
  | .rest outcome => distributor.settleRest outcome
  | .handOff sample => distributor.settle now sample (answer sample)

/-- What is left at the end. -/
def report (distributor : Distributor) : ChannelReport where
  channel := distributor.name
  counters := distributor.counters
  ages := Summary.ofStatistics distributor.ages

end Distributor

end PositionFeed
