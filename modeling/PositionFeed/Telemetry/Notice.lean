import PositionFeed.Telemetry.Measure

namespace PositionFeed

/-!
# Notices

A notice is a line of the log, without its layout: how grave it is, what it
says, and the counts that go with it.
-/

/-- How grave a notice is. -/
inductive Severity where
  /-- Something happened as it should. -/
  | info
  /-- Something happened that should not. -/
  | warning
  deriving Repr, DecidableEq

/-- The word for the gravity of a notice. -/
def Severity.name : Severity → String
  | .info => "INFO"
  | .warning => "WARN"

/-- A line of the log. -/
inductive Notice where
  /-- The producer made its progress known. -/
  | sampleProduced (sequence : Nat)
  /-- A schedule began. -/
  | schedulerStarted (periodMicros : Nat)
  /-- A periodic task failed. -/
  | tickFailed
  /-- A schedule gave up its grid. -/
  | scheduleReset
  /-- A schedule ended. -/
  | schedulerStopped (ticks : Nat)
  /-- A channel made its progress known. -/
  | distributionProgress (forwarded sequence : Nat)
  /-- A channel is ready to tick. -/
  | channelReady
  /-- A transport could not be closed. -/
  | closeFailed
  /-- A record is too large to be sent. -/
  | recordTooLarge (size limit : Nat)
  /-- The log channel shows a sample. -/
  | sampleShown (sequence : Nat)
  /-- The log channel was closed. -/
  | logClosed
  /-- A subscriber listens. -/
  | listenerBound
  /-- A datagram carried no position. -/
  | recordDropped
  /-- A subscriber listens no longer. -/
  | listenerStopped (received accepted rejected : Nat)
  /-- A push server listens. -/
  | serverListening
  /-- A client joined a push server. -/
  | clientConnected (client clients : Nat)
  /-- A client left a push server. -/
  | clientDisconnected (client : Nat)
  /-- Clients did not leave in time. -/
  | clientsLate (remaining : Nat)
  /-- A push server listens no longer. -/
  | serverStopped
  deriving Repr, DecidableEq

namespace Notice

/-- How grave a notice is. -/
def severity : Notice → Severity
  | .tickFailed => .warning
  | .scheduleReset => .warning
  | .closeFailed => .warning
  | .recordTooLarge .. => .warning
  | .recordDropped => .warning
  | .clientsLate _ => .warning
  | _ => .info

/-- What a notice says. -/
def message : Notice → String
  | .sampleProduced _ => "Produced sample"
  | .schedulerStarted _ => "Scheduler started"
  | .tickFailed => "Tick failed"
  | .scheduleReset => "Schedule fell behind, resetting deadline"
  | .schedulerStopped _ => "Scheduler stopped"
  | .distributionProgress .. => "Distribution progress"
  | .channelReady => "Channel ready"
  | .closeFailed => "Failed to close transport"
  | .recordTooLarge .. => "Bus record exceeds max packet size"
  | .sampleShown _ => "Sample"
  | .logClosed => "LogSink closed"
  | .listenerBound => "Bus listener bound"
  | .recordDropped => "Dropping malformed bus record"
  | .listenerStopped .. => "Bus listener stopped"
  | .serverListening => "Push server listening"
  | .clientConnected .. => "Client connected"
  | .clientDisconnected _ => "Client disconnected"
  | .clientsLate _ => "Clients did not close in time"
  | .serverStopped => "Push server stopped"

/-- The counts that go with a notice. -/
def counts : Notice → List (String × Nat)
  | .sampleProduced sequence => [("sequence", sequence)]
  | .schedulerStarted periodMicros => [("period_us", periodMicros)]
  | .schedulerStopped ticks => [("ticks", ticks)]
  | .distributionProgress forwarded sequence =>
      [("forwarded", forwarded), ("sequence", sequence)]
  | .recordTooLarge size limit => [("size", size), ("max", limit)]
  | .sampleShown sequence => [("sequence", sequence)]
  | .listenerStopped received accepted rejected =>
      [("received", received), ("accepted", accepted), ("rejected", rejected)]
  | .clientConnected client clients => [("client", client), ("clients", clients)]
  | .clientDisconnected client => [("client", client)]
  | .clientsLate remaining => [("remaining", remaining)]
  | _ => []

end Notice

/-- Something that is measured or logged. -/
inductive Event where
  | measure (measure : Measure)
  /-- Something is logged. -/
  | notice (notice : Notice)
  deriving DecidableEq

/-- The measures among events. -/
def measures (events : List Event) : List Measure :=
  events.filterMap fun event => match event with
    | .measure measure => some measure
    | .notice _ => none

/-- The notices among events. -/
def notices (events : List Event) : List Notice :=
  events.filterMap fun event => match event with
    | .measure _ => none
    | .notice notice => some notice

end PositionFeed
