import PositionFeed.Pipeline.Basic

namespace PositionFeed

/-!
# The statistics of a pipeline

When everything has ended, a pipeline reports how long it ran, what its source
did and what every channel did.
-/

/-- What fed the cache, at the end. -/
inductive SourceStatistics where
  /-- A producer, with its ticks and the samples it made. -/
  | producer (schedule : ScheduleCounts) (produced : Nat)
  | intake (counts : IntakeCounts)
  deriving Repr, DecidableEq

/-- What a channel did. -/
structure ChannelStatistics where
  /-- Its configured rate. -/
  rate : Float
  /-- What its loop counted. -/
  schedule : ScheduleCounts
  /-- What it counted itself. -/
  report : ChannelReport
  deriving DecidableEq

/-- What a pipeline did. -/
structure PipelineStatistics where
  /-- What it was configured as. -/
  role : Role
  /-- How long it ran. -/
  duration : Span
  /-- The number of the newest sample. -/
  latestSequence : Nat
  /-- What its source did. -/
  source : SourceStatistics
  /-- What its channels did. -/
  channels : List ChannelStatistics
  deriving DecidableEq

namespace Pipeline

/-- What the source did. -/
def sourceStatistics (pipeline : Pipeline) : SourceStatistics :=
  match pipeline.source with
  | .producer loop producer => .producer loop.counts producer.ticks
  | .intake _ intake => .intake intake.counts

/-- Finishes channels one after the other. -/
def finishChannels : List RunningChannel → Tokens →
    List ChannelStatistics × Tokens × List Event
  | [], tokens => ([], tokens, [])
  | running :: rest, tokens =>
      let (report, tokens, events) := running.channel.finish tokens
      let (reports, tokens, later) := finishChannels rest tokens
      (⟨running.rate, running.loop.counts, report⟩ :: reports, tokens,
        events ++ later)

/-- What is to be seen when the source ends. -/
def sourceEndEvents (pipeline : Pipeline) : List Event :=
  match pipeline.source with
  | .producer .. => []
  | .intake _ intake =>
      [.notice (.listenerStopped intake.counts.received intake.counts.accepted
        intake.counts.rejected)]

/-- The statistics of a pipeline that ran so long, after everything ended. -/
def join (pipeline : Pipeline) (duration : Span) :
    PipelineStatistics × List Event :=
  let (channels, _, events) :=
    finishChannels pipeline.channels pipeline.tokens
  ({ role := pipeline.role
     duration := duration
     latestSequence := pipeline.cache.latestSequence
     source := pipeline.sourceStatistics
     channels := channels },
    pipeline.sourceEndEvents ++ events)

end Pipeline

namespace PipelineStatistics

/-- How many samples entered the cache per second. -/
def samplesPerSecond (statistics : PipelineStatistics) : Float :=
  let seconds := statistics.duration.toSeconds
  if 0.0 < seconds then countLevel statistics.latestSequence / seconds else 0.0

/-- How often any schedule gave up its grid. -/
def totalResyncs (statistics : PipelineStatistics) : Nat :=
  (match statistics.source with
    | .producer schedule _ => schedule.resyncs
    | .intake _ => 0) +
    (statistics.channels.map (·.schedule.resyncs)).foldl (· + ·) 0

/-- A double with so many places. -/
def decimals (places : Nat) (value : Float) : String :=
  String.ofList (Rounded.fixed places value)

/-- The line that frames the title. -/
def rule : String :=
  String.ofList (List.replicate 64 '=')

/-- A line of a list, which is or is not its last. -/
def item (label value : String) (last : Bool) : String :=
  (if last then "   └─ " else "   ├─ ") ++ label ++ ": " ++ value

/-- The lines of a list. -/
def items : List (String × String) → List String
  | [] => []
  | [(label, value)] => [item label value true]
  | (label, value) :: rest => item label value false :: items rest

/-- The lines about the whole pipeline. -/
def overviewLines (statistics : PipelineStatistics) : List String :=
  "Overview" :: items [
    ("Role", statistics.role.name),
    ("Duration", decimals 2 statistics.duration.toSeconds ++ "s"),
    ("Latest sequence", toString statistics.latestSequence),
    ("Samples/s", decimals 2 statistics.samplesPerSecond),
    ("Scheduler resyncs", toString statistics.totalResyncs)]

/-- The lines about the source. -/
def sourceLines (statistics : PipelineStatistics) : List String :=
  match statistics.source with
  | .producer schedule produced =>
      "Producer" :: items [
        ("Samples produced", toString produced),
        ("Failed ticks", toString schedule.failed)]
  | .intake counts =>
      "Bus listener" :: items [
        ("Datagrams received", toString counts.received),
        ("Accepted", toString counts.accepted),
        ("Rejected", toString counts.rejected)]

/-- The lines about a channel. -/
def channelLines (channel : ChannelStatistics) : List String :=
  let counters := channel.report.counters
  ("Channel '" ++ channel.report.channel ++ "' (" ++
      decimals 1 channel.rate ++ " Hz)") :: items [
    ("Forwarded", toString counters.forwarded),
    ("Stale", toString counters.stale),
    ("No audience", toString counters.noAudience),
    ("No data", toString counters.noData),
    ("Failed", toString counters.failed),
    ("Last forwarded", toString counters.lastForwarded),
    ("Sample age (ms)", channel.report.ages.text)]

/-- The lines of the printed statistics. -/
def lines (statistics : PipelineStatistics) : List String :=
  ["", rule, "                      Pipeline Statistics", rule, ""] ++
    statistics.overviewLines ++ "" :: statistics.sourceLines ++
    (statistics.channels.flatMap fun channel => "" :: channelLines channel) ++
    [""]

end PipelineStatistics

end PositionFeed
