import PositionFeed.Bus.Codec
import PositionFeed.Cache
import PositionFeed.Telemetry.Notice

namespace PositionFeed

/-!
# The intake of a subscriber

The intake takes datagrams from the bus and puts the positions they carry into
the cache.  A datagram without a position is counted and leaves no other trace.
-/

/-- What an intake counts. -/
structure IntakeCounts where
  /-- Datagrams that came in. -/
  received : Nat
  /-- Datagrams that carried a position. -/
  accepted : Nat
  /-- Datagrams that did not. -/
  rejected : Nat
  deriving Repr, DecidableEq

/-- What takes datagrams from the bus. -/
structure Intake where
  /-- The format that datagrams should have. -/
  format : WireFormat
  counts : IntakeCounts
  deriving Repr, DecidableEq

namespace Intake

/-- The size of the largest datagram that is received whole. -/
def bufferSize : Nat := 65536

/-- The intake before the first datagram. -/
def begin (format : WireFormat) : Intake := ⟨format, ⟨0, 0, 0⟩⟩

/-- Counts a datagram that carried a position, or one that did not. -/
def count (intake : Intake) (valid : Bool) : Intake :=
  { intake with
    counts :=
      { received := intake.counts.received + 1
        accepted := intake.counts.accepted + (if valid then 1 else 0)
        rejected := intake.counts.rejected + (if valid then 0 else 1) } }

/-- Handles one datagram: the intake and the cache after it, the sample that it
became, and what is to be seen of it. -/
def handle (intake : Intake) (cache : Cache) (datagram : List UInt8) :
    Intake × Cache × Except RecordDefect Sample × List Event :=
  match Record.decodePosition intake.format datagram with
  | .ok position =>
      (intake.count true, cache.update position,
        .ok (cache.nextSample position), [.measure (.datagram true)])
  | .error defect =>
      (intake.count false, cache, .error defect, [.measure (.datagram false)])

/-- Handles one datagram as the network delivers it. -/
def receive (intake : Intake) (cache : Cache) (datagram : List UInt8) :
    Intake × Cache × Except RecordDefect Sample × List Event :=
  let (intake, cache, result, events) :=
    intake.handle cache (datagram.take bufferSize)
  (intake, cache, result,
    match result with
    | .ok _ => events
    | .error _ => events ++ [.notice .recordDropped])

/-- Handles datagrams one after the other. -/
def handleAll (intake : Intake) (cache : Cache) :
    List (List UInt8) →
      Intake × Cache × List (Except RecordDefect Sample) × List Event
  | [] => (intake, cache, [], [])
  | datagram :: rest =>
      let (intake, cache, result, events) := intake.handle cache datagram
      let (intake, cache, results, later) := handleAll intake cache rest
      (intake, cache, result :: results, events ++ later)

end Intake

end PositionFeed
