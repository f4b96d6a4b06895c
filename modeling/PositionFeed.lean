import PositionFeed.Word
import PositionFeed.Configuration
import PositionFeed.Blueprint.Export
import PositionFeed.Blueprint.Rules
import PositionFeed.Blueprint.Schema
import PositionFeed.Bus.Codec
import PositionFeed.Bus.Target
import PositionFeed.Cache
import PositionFeed.Telemetry.Notice
import PositionFeed.Telemetry.RunningStatistics
import PositionFeed.Toml.Reader
import PositionFeed.Producer.Basic
import PositionFeed.Schedule.Rehearsal
import PositionFeed.Stop.Signal
import PositionFeed.Channel.Distributor
import PositionFeed.Push.Registry
import PositionFeed.Bus.Intake
import PositionFeed.Channel.Basic
import PositionFeed.Pipeline.Rehearsal
import PositionFeed.Command.Invocation
import PositionFeed.Command.EnvironmentFile
import PositionFeed.Command.Basic
import PositionFeed.Main
import PositionFeed.Proofs.Bus.Relay
import PositionFeed.Proofs.Bus.Chain
import PositionFeed.Proofs.Bus.Damage
import PositionFeed.Proofs.Bus.Intake
import PositionFeed.Proofs.Channel.Isolation
import PositionFeed.Proofs.Push.Stream
import PositionFeed.Proofs.Pipeline.Admission
import PositionFeed.Proofs.Schedule.Pace
import PositionFeed.Proofs.Schedule.Stop
import PositionFeed.Proofs.Telemetry.Origin
import PositionFeed.Proofs.Channel.Accounts
import PositionFeed.Proofs.Pipeline.Poll
import PositionFeed.Proofs.Pipeline.Started
import PositionFeed.Proofs.Pipeline.Turn
import PositionFeed.Proofs.Pipeline.Accounts
import PositionFeed.Proofs.Push.Session
import PositionFeed.Proofs.Blueprint.TomlExport
import PositionFeed.Proofs.Blueprint.JsonExport
import PositionFeed.Proofs.Schedule.Grid
import PositionFeed.Proofs.Schedule.Results
import PositionFeed.Proofs.Cache.Interleaving
import PositionFeed.Proofs.Bus.Exact
import PositionFeed.Proofs.Push.Payload
import PositionFeed.Proofs.Bus.Size
import PositionFeed.Proofs.Push.Broadcast
import PositionFeed.Proofs.Push.Audience
import PositionFeed.Proofs.Blueprint.Completion
import PositionFeed.Proofs.Telemetry.Moments
import PositionFeed.Proofs.Stop.OneShot
import PositionFeed.Proofs.Pipeline.Startup
import PositionFeed.Proofs.Push.Stopped
import PositionFeed.Proofs.Producer.Finite
