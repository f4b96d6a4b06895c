import PositionFeed.Command.Basic
import PositionFeed.Command.EnvironmentFile
import PositionFeed.Command.Journal
import PositionFeed.Program.Peers
import Std.Time.DateTime.Timestamp

/-!
# The program

This is all that touches the world: files, environment, clocks, signals and
sockets.  What is done with them is decided elsewhere; the loop here only asks a
pipeline for its next deadline, waits for it, for a datagram or for a push
client, and makes the moves that follow.

The port on which measures are offered is taken, so that nobody else gets it,
but nothing is said there.
-/

open PositionFeed
open Std.Internal.UV

namespace PositionFeed.Program

/-- Where an environment file is looked for: in a directory and in those around
it. -/
def environmentPaths : List String → List String
  | [] => []
  | directory :: around =>
      ("/".intercalate (directory :: around).reverse ++ "/.env") ::
        environmentPaths around

/-- What the operating system answers about a file. -/
def fileAnswer (path : String) : IO FileAnswer := do
  try
    let place ← IO.FS.realPath path
    if ← place.isDir then return .directory
    return .content (← IO.FS.readBinFile place).toList
  catch
    | .noFileOrDirectory .. => return .missing
    | reason => return .refused (systemFault reason)

/-- The first environment file that exists. -/
def environmentFile : List String → IO (List UInt8)
  | [] => return []
  | path :: rest => do
      match ← fileAnswer path with
      | .content bytes => return bytes
      | _ => environmentFile rest

/-- The environment, as far as it matters, after the environment file. -/
def environment : IO CommandLine.Environment := do
  let directories := (← IO.currentDir).components.reverse
  let file ← environmentFile (environmentPaths directories)
  let names := CommandLine.environmentNames ++ EnvironmentFile.mentions file
  let given ← names.eraseDups.filterMapM fun name => do
    return (← IO.getEnv name).map fun value => (name, value)
  return EnvironmentFile.load file given

/-- What the loop watches. -/
structure Watch where
  sockets : Sockets
  /-- The time of the clock at the beginning. -/
  start : Nat
  /-- When to end, unless a signal comes first. -/
  finish : Option Instant
  /-- The signals that end the program. -/
  signals : List (Task (Option Int))
  /-- How lines of the journal are written. -/
  journal : List Event → IO Unit

/-- The time since the beginning. -/
def Watch.now (watch : Watch) : IO Instant := do
  return ⟨(← IO.monoNanosNow) - watch.start⟩

/-- The time of the day in milliseconds. -/
def clock : IO Int64 := do
  let stamp ← Std.Time.Timestamp.now
  return Int64.ofInt stamp.toMillisecondsSinceUnixEpoch.val

/-- What surrounds a pipeline while a channel hands a sample to the bus. -/
def surroundings (answer : Option SystemFault) : IO Surroundings := do
  return {
    wave := .computed
    clock := ← clock
    network := { Network.willing with send := fun _ => answer } }

/-- Sends what a channel will hand to the bus at its next tick. -/
def handToBus (sockets : Sockets) (pipeline : Pipeline) (position : Nat) :
    IO (Option SystemFault) := do
  let some running := pipeline.channels[position]? | return none
  match running.channel.outlet, running.channel.decide pipeline.cache with
  | .bus outlet, .handOff sample =>
      match outlet.payload sample with
      | (.ok bytes, _) => sendDatagram sockets outlet.target.address bytes
      | _ => return none
  | _, _ => return none

/-- Makes moves and writes the journal. -/
def Watch.perform (watch : Watch) : Perform := fun moves pipeline => do
  let (pipeline, events) := pipeline.moves .computed moves
  watch.journal events
  return pipeline

/-- Makes the tick whose deadline has passed. -/
def tick (watch : Watch) (now : Instant) (position : Option Nat)
    (pipeline : Pipeline) : IO Pipeline := do
  let answer ← match position with
    | some position => handToBus watch.sockets pipeline position
    | none => pure none
  let around ← surroundings answer
  watch.perform (Pipeline.tickMoves around now position) pipeline

/-- The next datagram, asked for from a socket. -/
abbrev Incoming := Task (Option (Except IO.Error
  (ByteArray × Option Std.Net.SocketAddress)))

/-- Asks for the next datagram. -/
def askForDatagram (sockets : Sockets) : IO (Option Incoming) := do
  let some socket := sockets.intake | return none
  return some (← socket.recv (UInt64.ofNat Intake.bufferSize)).result?

/-- Takes a datagram in, if one came, and asks for the next one. -/
def takeIncoming (watch : Watch) (incoming : Option Incoming)
    (pipeline : Pipeline) : IO (Option Incoming × Pipeline) := do
  let some task := incoming | return (none, pipeline)
  if ! (← IO.hasFinished task) then return (incoming, pipeline)
  let pipeline ← match task.get with
    | some (.ok (bytes, _)) =>
        watch.perform [.datagram bytes.toList] pipeline
    | _ => pure pipeline
  return (← askForDatagram watch.sockets, pipeline)

/-- Who is outside. -/
structure Outside where
  /-- The next datagram. -/
  incoming : Option Incoming
  /-- The push clients. -/
  peers : List Peer

/-- Lets in what has come from outside. -/
def letIn (watch : Watch) (outside : Outside) (pipeline : Pipeline) :
    IO (Outside × Pipeline) := do
  let (incoming, pipeline) ← takeIncoming watch outside.incoming pipeline
  let (newcomers, pipeline) ←
    acceptPeers watch.perform watch.sockets.listening pipeline
  let (peers, pipeline) ←
    attend watch.perform (outside.peers ++ newcomers) pipeline
  let pipeline ← watch.perform pipeline.settling pipeline
  return (⟨incoming, peers⟩, pipeline)

/-- How many milliseconds the loop waits at most before it looks around again. -/
def patience : Nat := 5

/-- Waits until an instant, but no longer than the loop has patience. -/
def waitUntil (now wake : Instant) : IO Unit :=
  IO.sleep (UInt32.ofNat
    (min patience ((now.spanTo wake).nanos / Span.perMilli + 1)))

/-- Waits for push clients to end, but not for ever. -/
partial def windDown (watch : Watch) (finish : Instant) (peers : List Peer)
    (pipeline : Pipeline) : IO Pipeline := do
  let pipeline ← watch.perform pipeline.settling pipeline
  let now ← watch.now
  if pipeline.isSettled then return pipeline
  else if finish ≤ now then watch.perform pipeline.givingUp pipeline
  else
    let (peers, pipeline) ← attend watch.perform peers pipeline
    waitUntil now finish
    windDown watch finish peers pipeline

/-- Runs a pipeline until its time is over or a signal comes. -/
partial def drive (watch : Watch) (outside : Outside) (pipeline : Pipeline) :
    IO Pipeline := do
  let now ← watch.now
  let interrupted ← watch.signals.anyM fun signal => IO.hasFinished signal
  if interrupted || watch.finish.any (· ≤ now) then
    let around ← surroundings none
    let pipeline ← watch.perform
      (Pipeline.endMoves around now pipeline.channels.length) pipeline
    windDown watch (now.after Server.grace) outside.peers pipeline
  else
    let (outside, pipeline) ← letIn watch outside pipeline
    match pipeline.nextDeadline with
    | none =>
        IO.sleep (UInt32.ofNat patience)
        drive watch outside pipeline
    | some (wake, position) =>
        if wake ≤ now then
          drive watch outside (← tick watch now position pipeline)
        else
          waitUntil now wake
          drive watch outside pipeline

/-- The signals that end a run: hang-up, interrupt, quit and terminate. -/
def stopSignals : List Int32 := [1, 2, 3, 15]

/-- Runs a pipeline and prints its statistics. -/
def run (options : RunOptions) (journal : List Event → IO Unit)
    (blueprint : Blueprint) : IO Outcome := do
  let (sockets, networks) ← openSockets blueprint
  let started := Pipeline.start networks blueprint
  journal started.events
  match started.result with
  | .error fault => return .failed (.notStarted fault)
  | .ok pipeline =>
      let signals ← stopSignals.mapM fun number => do
        let signal ← Signal.mk number false
        return (← signal.next).result?
      let watch : Watch := {
        sockets := sockets
        start := ← IO.monoNanosNow
        finish := if options.duration = 0 then none
          else some (Instant.origin.after (.ofSeconds options.duration))
        signals := signals
        journal := journal }
      let outside : Outside := ⟨← askForDatagram sockets, []⟩
      let pipeline ← drive watch outside pipeline
      let (statistics, events) := pipeline.join ⟨(← watch.now).nanos⟩
      journal events
      return .success statistics.lines

def printAll (stream : IO.FS.Stream) (lines : List String) : IO Unit := do
  lines.forM stream.putStrLn
  stream.flush

/-- Carries out a command. -/
def carryOut (invocation : Invocation) : IO Outcome := do
  let path := match invocation.command with
    | .run options => options.configuration
    | .validate options => some options.configuration
    | .info options => options.configuration
  let answer ← match path with
    | some path => fileAnswer path
    | none => pure .missing
  let files : Files := fun _ => answer
  let out ← IO.getStdout
  match invocation.command with
  | .run options =>
      let port ← match options.blueprint files with
        | .ok _ => offer options.metricsPort
        | .error _ => pure none
      match options.prepare files fun _ => port.isSome with
      | .error failure => return .failed failure
      | .ok blueprint =>
          if options.dryRun then return .success []
          else run options (fun events => printAll out
            (Journal.lines invocation.quiet invocation.logFormat events)) blueprint
  | .validate options => return options.outcome files
  | .info options => return options.outcome files

/-- What is said about a command line that asks for no command. -/
def usage : List String := [
  "Usage: position-feed [OPTIONS] <run|validate|info>",
  "", "Options: -v --verbose, -q --quiet, --log-format <json|pretty|compact>"]

/-- How the program ends with the given arguments. -/
def ending (arguments : List String) : IO Ending := do
  match CommandLine.read (← environment) arguments with
  | .error .helpWanted => return ⟨0, usage, []⟩
  | .error .versionWanted => return ⟨0, ["position-feed"], []⟩
  | .error fault => return ⟨fault.exitCode, [], usage⟩
  | .ok invocation => return (← carryOut invocation).ending

end PositionFeed.Program

/-- Runs the program. -/
def main (arguments : List String) : IO UInt32 := do
  let ending ← Program.ending arguments
  Program.printAll (← IO.getStdout) ending.output
  Program.printAll (← IO.getStderr) ending.complaint
  return UInt32.ofNat ending.code
