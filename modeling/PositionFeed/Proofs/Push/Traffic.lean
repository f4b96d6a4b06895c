import PositionFeed.Proofs.Push.Clients
import PositionFeed.Push.Server

namespace PositionFeed

/-!
# What a server sends besides samples

Between broadcasts a push server changes its registry only through its
connections, and all that these queue are answers to texts and the frame that
ends a connection.  Neither can be taken for a sample, whatever text a client
sends.
-/

namespace Frame

/-- Whether a frame was pushed: it is neither the answer to a text nor the end
of a connection. -/
def isPush : Frame → Bool
  | .text content => ! "Server received: ".toList.isPrefixOf content.toList
  | .close .. => false

@[simp] theorem isPush_ofSample
    (sample : Sample) :
    (ofSample sample).isPush = true := by
  simp [isPush, ofSample, Json.Tree.toCompact, Sample.pushTree,
    Json.Tree.compact, List.isPrefixOf]

@[simp] theorem isPush_echo
    (content : String) :
    (echo content).isPush = false := by
  simp [isPush, echo]

@[simp] theorem isPush_goingAway :
    goingAway.isPush = false := rfl

end Frame

/-- A call that offers no sample. -/
def RegistryMove.OffersNoSample (call : RegistryMove) : Prop :=
  ∀ frame, call.frame? = some frame → frame.isPush = false

/-- A call that a connection makes, unless its writer takes a frame. -/
inductive RegistryMove.Quiet : RegistryMove → Prop where
  /-- Its client registers. -/
  | connect : Quiet .connect
  /-- Its client is removed. -/
  | disconnect (number : Nat) : Quiet (.disconnect number)
  /-- The receiver of its client is dropped. -/
  | dropReceiver (number : Nat) : Quiet (.dropReceiver number)
  /-- A text is answered. -/
  | echo (number : Nat) (content : String) :
      Quiet (.offer number (.echo content))
  /-- The end is announced. -/
  | goingAway (number : Nat) : Quiet (.offer number .goingAway)

namespace RegistryMove.Quiet

theorem offersNoSample
    {call : RegistryMove}
    (quiet : call.Quiet) :
    call.OffersNoSample := by
  intro frame offered
  cases quiet with
  | connect =>
      cases offered
  | disconnect number =>
      cases offered
  | dropReceiver number =>
      cases offered
  | echo number content =>
      cases offered
      exact Frame.isPush_echo content
  | goingAway number =>
      cases offered
      exact Frame.isPush_goingAway

theorem takes_eq
    {call : RegistryMove}
    (quiet : call.Quiet)
    (registry : Registry)
    (number : Nat) :
    registry.takes number call = [] := by
  cases quiet <;> rfl

end RegistryMove.Quiet

namespace Registry

/-- A registry becomes another by calls that offer no sample, in which clients
take the given frames. -/
def Becomes
    (before after : Registry)
    (takes : Nat → List Frame) : Prop :=
  ∃ calls : List RegistryMove,
    after = before.moves calls ∧
      (∀ call ∈ calls, call.OffersNoSample) ∧
      ∀ number, taken number before calls = takes number

namespace Becomes

/-- Without a call a registry stays as it is. -/
theorem nothing
    (registry : Registry) :
    registry.Becomes registry (fun _ => []) :=
  ⟨[], rfl, by simp, fun _ => rfl⟩

/-- A quiet call comes before others. -/
theorem quietly
    {before after : Registry}
    {takes : Nat → List Frame}
    {call : RegistryMove}
    (quiet : call.Quiet)
    (later : (before.move call).Becomes after takes) :
    before.Becomes after takes := by
  obtain ⟨calls, reached, offersNoSample, taken⟩ := later
  refine ⟨call :: calls, reached, ?_, ?_⟩
  · intro other member
    rcases List.mem_cons.mp member with rfl | inCalls
    · exact quiet.offersNoSample
    · exact offersNoSample other inCalls
  · intro number
    rw [Registry.taken_cons, quiet.takes_eq, taken]
    rfl

/-- One quiet call changes a registry as it says. -/
theorem call
    (registry : Registry)
    {call : RegistryMove}
    (quiet : call.Quiet) :
    registry.Becomes (registry.move call) (fun _ => []) :=
  quietly quiet (nothing _)

/-- Clients keep their numbers. -/
theorem numbered
    {before after : Registry}
    {takes : Nat → List Frame}
    (becomes : before.Becomes after takes)
    (numbered : before.Numbered) :
    after.Numbered := by
  obtain ⟨calls, rfl, _⟩ := becomes
  exact numbered_moves numbered calls

/-- Pushed frames stay in order within what was sent. -/
theorem sublist
    {before after : Registry}
    {takes : Nat → List Frame}
    (becomes : before.Becomes after takes)
    (numbered : before.Numbered)
    {number : Nat}
    {seen sent : List Frame}
    (inOrder :
      ((seen ++ before.waiting number).filter Frame.isPush).Sublist sent) :
    ((seen ++ takes number ++ after.waiting number).filter
      Frame.isPush).Sublist sent := by
  obtain ⟨calls, rfl, offersNoSample, taken⟩ := becomes
  have noSample :
      (calls.filterMap RegistryMove.frame?).filter Frame.isPush = [] := by
    rw [List.filter_eq_nil_iff]
    intro frame member
    obtain ⟨call, inCalls, offered⟩ := List.mem_filterMap.mp member
    simp [offersNoSample call inCalls frame offered]
  have later := sublist_moves numbered inOrder calls
  rw [noSample, List.append_nil, taken] at later
  exact later

end Becomes

end Registry

namespace Connection

/-- The frames that a client takes in a move of a connection: the one that the
writer is sending afterwards, if it was sending none before. -/
def takes
    (connection : Connection)
    (registry : Registry)
    (number : Nat) :
    ConnectionMove → List Frame
  | .take =>
      if connection.client = some number ∧ connection.outgoing = none then
        (connection.move .take registry).1.outgoing.toList
      else []
  | _ => []

/-- Only a writer that takes a frame takes one. -/
theorem takes_of_ne
    {connection : Connection}
    {registry : Registry}
    {number : Nat}
    {next : ConnectionMove}
    (notTake : next ≠ .take) :
    connection.takes registry number next = [] := by
  cases next with
  | take =>
      contradiction
  | _ =>
      rfl

/-- The writer of a connection takes what its client receives. -/
theorem becomes_take
    {connection : Connection}
    {number : Nat}
    (isClient : connection.client = some number)
    (registry : Registry) :
    registry.Becomes (connection.take number registry).2
      (connection.takes registry · .take) := by
  have moved :
      (connection.move .take registry).1 =
        (connection.take number registry).1 := by
    simp only [move, isClient, moveClient]
  by_cases gets : (connection.writing ∧ connection.outgoing = none) ∧
      ∃ frame, (registry.receive number).1 = .frame frame
  · obtain ⟨ready, frame, received⟩ := gets
    have shape : registry.receive number =
        (.frame frame, (registry.receive number).2) := by
      rw [← received]
    have took : connection.take number registry =
        ({ connection with outgoing := some frame },
          (registry.receive number).2) := by
      rw [take, if_pos ready, shape]
    refine ⟨[.receive number], ?_, ?_, ?_⟩
    · rw [took]
      rfl
    · simp [RegistryMove.OffersNoSample, RegistryMove.frame?]
    · intro other
      by_cases same : number = other
      · subst other
        simp [Registry.takes, received, takes, moved, took,
          isClient, ready.2]
      · simp [Registry.takes, takes, isClient, same]
  · have stays : connection.take number registry = (connection, registry) := by
      unfold take
      split
      · next ready =>
          split
          · next frame after received =>
              exact (gets ⟨ready, frame, by rw [received]⟩).elim
          · rfl
      · rfl
    have nothing (other : Nat) :
        connection.takes registry other .take = [] := by
      rw [takes, moved, stays]
      split
      · next idle =>
          simp [idle.2]
      · rfl
    simp only [stays, nothing]
    exact .nothing registry

/-- A writer that is done with a frame goes on, or drops its receiver. -/
theorem becomes_sent
    (succeeds : Bool)
    (connection : Connection)
    (number : Nat)
    (registry : Registry) :
    registry.Becomes (connection.sent succeeds number registry).2
      (fun _ => []) := by
  unfold sent
  split
  · split
    · exact .nothing registry
    · exact .call registry (.dropReceiver number)
  · exact .nothing registry

/-- A move of a connection that has a client changes the registry by calls
that offer no sample. -/
theorem becomes_moveClient
    {connection : Connection}
    {number : Nat}
    (isClient : connection.client = some number)
    (next : ConnectionMove)
    (registry : Registry) :
    registry.Becomes (connection.moveClient next number registry).2.1
      (connection.takes registry · next) := by
  unfold moveClient
  split
  · next content _ =>
      exact .call registry (.echo number content)
  · exact .call registry (.disconnect number)
  · exact .nothing registry
  · split
    · exact .nothing registry
    · next after _ offered =>
        have queued :
            registry.move (.offer number .goingAway) = after :=
          congrArg Prod.snd offered
        rw [← queued]
        exact .call registry (.goingAway number)
  · exact .call registry (.disconnect number)
  · exact .call registry (.disconnect number)
  · split <;> exact .nothing registry
  · exact becomes_take isClient registry
  · exact becomes_sent _ connection number registry
  · split
    · exact .call registry (.dropReceiver number)
    · exact .nothing registry
  · split <;> exact .nothing registry
  · next notTake _ _ _ _ _ _ _ _ _ _ =>
      simp only [takes_of_ne notTake]
      exact .nothing registry

/-- A move of a connection changes the registry by calls that offer no
sample. -/
theorem becomes_move
    (connection : Connection)
    (next : ConnectionMove)
    (registry : Registry) :
    registry.Becomes (connection.move next registry).2.1
      (connection.takes registry · next) := by
  cases isClient : connection.client with
  | some number =>
      have moved :
          connection.move next registry =
            connection.moveClient next number registry := by
        simp only [move, isClient]
      rw [moved]
      exact becomes_moveClient isClient next registry
  | none =>
      have nothing (number : Nat) :
          connection.takes registry number next = [] := by
        cases next <;> simp [takes, isClient]
      simp only [nothing, move, isClient]
      split
      · next succeeds _ =>
          cases succeeds with
          | true =>
              exact .call registry .connect
          | false =>
              exact .nothing registry
      · exact .nothing registry
      · exact .nothing registry
      · exact .nothing registry

end Connection

namespace Server

/-- The frames that a client takes in a move of a server. -/
def takes (server : Server) (number : Nat) : ServerMove → List Frame
  | .connection position .take =>
      match server.connections[position]? with
      | none => []
      | some connection => connection.takes server.registry number .take
  | _ => []

/-- A move of a server changes the registry by calls that offer no sample. -/
theorem becomes_move
    (server : Server)
    (stopped : Bool)
    (next : ServerMove) :
    server.registry.Becomes (server.move stopped next).1.registry
      (server.takes · next) := by
  cases next with
  | accept =>
      simp only [move]
      split <;> exact .nothing _
  | connection position step =>
      cases found : server.connections[position]? with
      | none =>
          have nothing (number : Nat) :
              server.takes number (.connection position step) = [] := by
            cases step <;> simp [takes, found]
          simp only [nothing, move, moveConnection, found]
          exact .nothing _
      | some connection =>
          have takesStep (number : Nat) :
              server.takes number (.connection position step) =
                connection.takes server.registry number step := by
            cases step <;> simp [takes, found, Connection.takes]
          simp only [takesStep, move, moveConnection, found]
          split
          · exact connection.becomes_move step server.registry
          · next forbidden =>
              have notTake : step ≠ .take := by
                rintro rfl
                exact forbidden rfl
              simp only [Connection.takes_of_ne notTake]
              exact .nothing _
  | lookAtToken =>
      simp only [move]
      split <;> exact .nothing _
  | drained =>
      simp only [move]
      split <;> exact .nothing _
  | drainExpired =>
      simp only [move]
      split <;> exact .nothing _

end Server

end PositionFeed
