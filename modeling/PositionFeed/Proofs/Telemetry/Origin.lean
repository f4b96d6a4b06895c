import PositionFeed.Channel.Basic
import PositionFeed.Producer.Basic
import PositionFeed.Schedule.Loop
import PositionFeed.Proofs.Result
import PositionFeed.Proofs.Telemetry.Recorded

namespace PositionFeed

/-!
# Where measures come from

A distributor measures in its own name, and nothing else in a feed does: loops,
outlets and their clients measure other things.  So what a recorder keeps under
the name of a distributor is what this distributor did, as long as no other has
its name.
-/

/-- What a measure is about. -/
inductive Origin where
  | producer
  | distributor (name : String)
  /-- A loop, the clients of an outlet, or the bus. -/
  | surroundings
  deriving DecidableEq

def Measure.origin : Measure → Origin
  | .sampleProduced _ => .producer
  | .tick channel _ => .distributor channel
  | .cursor channel _ => .distributor channel
  | .sampleAge channel _ => .distributor channel
  | _ => .surroundings

/-- Events whose measures are all about one thing. -/
def OnlyFrom (origin : Origin) (events : List Event) : Prop :=
  ∀ measure ∈ measures events, measure.origin = origin

/-- Events that measure nothing about one thing. -/
def SilentOf (origin : Origin) (events : List Event) : Prop :=
  ∀ measure ∈ measures events, measure.origin ≠ origin

namespace OnlyFrom

theorem nil
    (origin : Origin) :
    OnlyFrom origin [] := by
  simp [OnlyFrom, measures]

theorem notice
    (origin : Origin)
    (line : Notice) :
    OnlyFrom origin [.notice line] := by
  simp [OnlyFrom, measures]

theorem append
    {origin : Origin}
    {first second : List Event}
    (firstOnly : OnlyFrom origin first)
    (secondOnly : OnlyFrom origin second) :
    OnlyFrom origin (first ++ second) := by
  unfold OnlyFrom
  rw [measures_append]
  exact List.forall_mem_append.mpr ⟨firstOnly, secondOnly⟩

theorem flatMap
    {origin : Origin}
    {items : List α}
    {events : α → List Event}
    (each : ∀ item ∈ items, OnlyFrom origin (events item)) :
    OnlyFrom origin (items.flatMap events) := by
  induction items with
  | nil =>
      exact nil origin
  | cons item rest inductionHypothesis =>
      rw [List.flatMap_cons]
      obtain ⟨first, others⟩ := List.forall_mem_cons.mp each
      exact first.append (inductionHypothesis others)

theorem silent
    {origin other : Origin}
    {events : List Event}
    (only : OnlyFrom origin events)
    (differs : origin ≠ other) :
    SilentOf other events := by
  intro measure member
  rw [only measure member]
  exact differs

end OnlyFrom

theorem SilentOf.append
    {origin : Origin}
    {first second : List Event}
    (firstSilent : SilentOf origin first)
    (secondSilent : SilentOf origin second) :
    SilentOf origin (first ++ second) := by
  unfold SilentOf
  rw [measures_append]
  exact List.forall_mem_append.mpr ⟨firstSilent, secondSilent⟩

namespace Registry

theorem onlyFrom_connect
    (registry : Registry) :
    OnlyFrom .surroundings registry.connect.2.2 := by
  simp [connect, sizeEvents, OnlyFrom, measures, Measure.origin]

theorem onlyFrom_disconnect
    (number : Nat)
    (registry : Registry) :
    OnlyFrom .surroundings (registry.disconnect number).2.2 := by
  unfold disconnect
  split
  · simp [sizeEvents, OnlyFrom, measures, Measure.origin]
  · exact .nil _

theorem onlyFrom_disconnectAll
    (numbers : List Nat)
    (registry : Registry) :
    OnlyFrom .surroundings (registry.disconnectAll numbers).2 := by
  induction numbers generalizing registry with
  | nil =>
      exact .nil _
  | cons number rest inductionHypothesis =>
      exact (registry.onlyFrom_disconnect number).append
        (inductionHypothesis _)

end Registry

namespace Connection

theorem onlyFrom_moveClient
    (next : ConnectionMove)
    (connection : Connection)
    (number : Nat)
    (registry : Registry) :
    OnlyFrom .surroundings
      (connection.moveClient next number registry).2.2 := by
  unfold moveClient
  split
  · exact .nil _
  · exact registry.onlyFrom_disconnect number
  · exact .nil _
  · split <;> exact .nil _
  · exact registry.onlyFrom_disconnect number
  · exact registry.onlyFrom_disconnect number
  · split
    · exact .nil _
    · exact .notice _ _
  · exact .nil _
  · exact .nil _
  · split <;> exact .nil _
  · split <;> exact .nil _
  · exact .nil _

theorem onlyFrom_move
    (next : ConnectionMove)
    (connection : Connection)
    (registry : Registry) :
    OnlyFrom .surroundings (connection.move next registry).2.2 := by
  cases isClient : connection.client with
  | some number =>
      simp only [move, isClient]
      exact onlyFrom_moveClient next connection number registry
  | none =>
      simp only [move, isClient]
      split
      · next succeeds _ =>
          cases succeeds with
          | true =>
              exact registry.onlyFrom_connect.append (.notice _ _)
          | false =>
              exact .nil _
      · exact .nil _
      · exact .nil _
      · exact .nil _

end Connection

namespace Server

theorem onlyFrom_move
    (server : Server)
    (stopped : Bool)
    (next : ServerMove) :
    OnlyFrom .surroundings (server.move stopped next).2 := by
  cases next with
  | accept =>
      simp only [move]
      split <;> exact .nil _
  | connection position step =>
      cases found : server.connections[position]? with
      | none =>
          simp only [move, moveConnection, found]
          exact .nil _
      | some connection =>
          simp only [move, moveConnection, found]
          split
          · exact connection.onlyFrom_move step server.registry
          · exact .nil _
  | lookAtToken =>
      simp only [move]
      split <;> exact .nil _
  | drained =>
      simp only [move]
      split
      · exact .notice _ _
      · exact .nil _
  | drainExpired =>
      simp only [move]
      split
      · exact (OnlyFrom.notice _ _).append (.notice _ _)
      · exact .nil _

theorem onlyFrom_moves
    (server : Server)
    (stopped : Bool)
    (list : List ServerMove) :
    OnlyFrom .surroundings (server.moves stopped list).2 := by
  induction list generalizing server with
  | nil =>
      exact .nil _
  | cons next rest inductionHypothesis =>
      exact (server.onlyFrom_move stopped next).append (inductionHypothesis _)

end Server

namespace Outlet

theorem onlyFrom_send
    (network : Network)
    (sample : Sample)
    (outlet : Outlet) :
    OnlyFrom .surroundings (outlet.send network sample).2.2 := by
  cases outlet with
  | bus outlet =>
      have payloadOnly : OnlyFrom .surroundings (outlet.payload sample).2 := by
        unfold BusOutlet.payload
        dsimp only
        split
        · exact .notice _ _
        · exact .nil _
      simp only [send, BusOutlet.send]
      split
      · rename_i fault events found
        rwa [found] at payloadOnly
      · rename_i bytes events found
        rw [found] at payloadOnly
        split
        · exact payloadOnly
        · split <;> exact payloadOnly
  | push outlet =>
      exact Registry.onlyFrom_disconnectAll _ _
  | log name =>
      exact .notice _ _

theorem onlyFrom_close
    (tokens : Tokens)
    (outlet : Outlet) :
    OnlyFrom .surroundings (outlet.close tokens).2.2 := by
  cases outlet with
  | bus outlet =>
      exact .nil _
  | push outlet =>
      exact outlet.server.onlyFrom_moves true Server.quietStop
  | log name =>
      exact .notice _ _

theorem onlyFrom_create
    {network : Network}
    {plan : ChannelPlan}
    {parent : Token}
    {tokens : Tokens}
    {made : Outlet × Tokens × List Event}
    (created : Outlet.create network plan parent tokens = .ok made) :
    OnlyFrom .surroundings made.2.2 := by
  cases kind : plan.kind with
  | bus =>
      simp only [create, kind] at created
      split at created
      · cases created
        exact .nil _
      · cases created
  | websocket =>
      simp only [create, kind] at created
      obtain ⟨pushed, isPushed, same⟩ := Result.bind_eq_ok_iff.mp created
      obtain ⟨address, _, binds⟩ := Result.bind_eq_ok_iff.mp isPushed
      cases same
      split at binds
      · cases binds
      · cases binds
        exact .notice _ _
  | log =>
      simp only [create, kind] at created
      cases created
      exact .nil _

end Outlet

/-- What is to be seen of a loop is not about anything else. -/
theorem Loop.onlyFrom_eventsOf
    (loop : Loop)
    (happenings : List Happening) :
    OnlyFrom .surroundings (happenings.flatMap loop.eventsOf) := by
  refine .flatMap fun happening _ => ?_
  cases happening with
  | finished time result =>
      cases result with
      | ok done =>
          exact .nil _
      | error fault =>
          simp [eventsOf, OnlyFrom, measures, Measure.origin]
  | resynced lag =>
      simp [eventsOf, OnlyFrom, measures, Measure.origin]
  | ended time =>
      exact .notice _ _
  | _ =>
      exact .nil _

namespace Distributor

theorem onlyFrom_settleRest
    (distributor : Distributor)
    (outcome : TickOutcome) :
    OnlyFrom (.distributor distributor.name)
      (distributor.settleRest outcome).2.2 := by
  simp [settleRest, OnlyFrom, measures, Measure.origin]

theorem onlyFrom_settle
    (distributor : Distributor)
    (now : Int64)
    (sample : Sample)
    (answer : Except Fault Unit) :
    OnlyFrom (.distributor distributor.name)
      (distributor.settle now sample answer).2.2 := by
  cases answer with
  | ok taken =>
      refine .append ?_ ?_
      · simp [OnlyFrom, measures, Measure.origin]
      · split
        · exact .notice _ _
        · exact .nil _
  | error fault =>
      simp [settle, OnlyFrom, measures, Measure.origin]

end Distributor

theorem Producer.onlyFrom_events
    (producer : Producer)
    (sample : Sample) :
    OnlyFrom .producer (producer.events sample) := by
  by_cases logs : (producer.ticks + 1) % producer.logEvery = 0 <;>
    simp [events, logs, OnlyFrom, measures, Measure.origin]

end PositionFeed
