import PositionFeed.Channel.Outlet
import PositionFeed.Proofs.Push.Broadcast

namespace PositionFeed

/-!
# A push server among its tasks

The connections of a server are served side by side, and frames are broadcast
meanwhile.  A call to the registry is not one step: it changes who is
registered, counts the clients and sets the gauge to the count, and between
these steps other tasks get on with theirs.  A broadcast offers its frame to one
client after the other and removes one after the other.  A connection that is
broken off goes on until it has to wait.

Where nobody gets in between, the steps come to the moves of the server.
-/

/-- A task that has changed who is registered. -/
inductive Caller where
  /-- The connection at a position, which has registered its client. -/
  | joining (position : Nat)
  /-- The connection at a position, which has removed its client. -/
  | leaving (position : Nat)
  /-- A broadcast, which has removed a client. -/
  | broadcast (broadcast : Nat)
  deriving Repr, DecidableEq

/-- The connection that says so when its call is over. -/
def Caller.greets : Caller → List Nat
  | .joining position => [position]
  | _ => []

/-- A call that has changed who is registered and has yet to set the gauge. -/
structure Call where
  caller : Caller
  /-- How many clients it has counted. -/
  count : Option Nat
  deriving Repr, DecidableEq

/-- A call by this caller has counted the clients. -/
def Call.counted (caller : Caller) (size : Nat) (call : Call) : Call :=
  if call.caller = caller then { call with count := call.count.or (some size) }
  else call

/-- Whether a move is one that the writer of a connection makes beside the
reader.  That its queue is closed it finds only after the reader has let go of
it. -/
def ConnectionMove.isWriters : ConnectionMove → Bool
  | .take => true
  | .sent _ => true
  | _ => false

namespace Connection

/-- Whether the reader has its client still to remove, or even to register. -/
def isServing (connection : Connection) : Bool :=
  match connection.reader with
  | .handshaking => true
  | .reading => true
  | .closing => true
  | .leaving => true
  | _ => false

/-- What the connection at a position does when it changes who is registered. -/
def caller (connection : Connection) (position : Nat) : Caller :=
  if connection.client.isNone then .joining position else .leaving position

end Connection

/-- A push server with the tokens that may stop it, and what was seen of it. -/
structure Service where
  server : Server
  tokens : Tokens
  events : List Event
  /-- The calls to the registry that are under way. -/
  calls : List Call
  /-- The positions of the connections that have yet to say that their client is
  connected. -/
  greeting : List Nat

/-- What happens to a server in use. -/
inductive ServiceMove where
  /-- The server or one of its connections moves. -/
  | own (next : ServerMove)
  /-- A connection that was broken off comes to its end. -/
  | abort (position : Nat)
  /-- A broadcast offers a frame to the client with a number. -/
  | offer (number : Nat) (frame : Frame)
  /-- A broadcast removes a client whose receiver is gone. -/
  | discard (broadcast number : Nat)
  /-- A call counts the clients. -/
  | count (caller : Caller)
  /-- A call sets the gauge and is over. -/
  | tell (caller : Caller)
  /-- A connection says that its client is connected. -/
  | greet (position : Nat)
  /-- A token is cancelled, be it that of the server, its parent or another. -/
  | cancel (token : Token)

namespace Service

/-- A server that has just started to listen. -/
def begin (name : String) (parent : Token) (tokens : Tokens) : Service :=
  let (server, tokens, events) := Server.start name parent tokens
  ⟨server, tokens, events, [], []⟩

/-- Whether the token of the server is cancelled. -/
def isStopping (service : Service) : Bool :=
  service.tokens.isCancelled service.server.token

/-- How many clients are registered. -/
def size (service : Service) : Nat := service.server.registry.size

/-- Whether a call by this caller is under way. -/
def isCalling (service : Service) (caller : Caller) : Bool :=
  service.calls.any (·.caller == caller)

/-- Whether the connection at a position has registered its client and not said
so.  It has no writer before. -/
def isJoining (service : Service) (position : Nat) : Bool :=
  service.isCalling (.joining position) || service.greeting.contains position

/-- Whether the reader of the connection at a position is in the middle of
something. -/
def isBusy (service : Service) (position : Nat) : Bool :=
  service.isJoining position || service.isCalling (.leaving position)

/-- Whether the connection at a position can make a move of its own. -/
def allows (service : Service) (position : Nat) (next : ConnectionMove) :
    Bool :=
  Server.allows service.isStopping next &&
    if next.isWriters then ! service.isJoining position
    else ! service.isBusy position

def withRegistry (service : Service) (registry : Registry) : Service :=
  { service with server := { service.server with registry := registry } }

/-- Another call has changed who is registered. -/
def calledBy (service : Service) (caller : Caller) : Service :=
  { service with calls := service.calls ++ [⟨caller, none⟩] }

/-- The connection at a position moves.  If this changes who is registered, the
clients are not counted yet, and nothing is to be seen. -/
def moveConnection (service : Service) (position : Nat)
    (next : ConnectionMove) : Service :=
  match service.server.connections[position]? with
  | none => service
  | some connection =>
      let (moved, registry, seen) :=
        connection.move next service.server.registry
      let server :=
        { service.server with
          connections := service.server.connections.set position moved
          registry := registry }
      if (measures seen).isEmpty then
        { service with server := server, events := service.events ++ seen }
      else
        { service with server := server }.calledBy
          (connection.caller position)

/-- What is to be seen when a connection says that its client is connected. -/
def greetingEvents (service : Service) (position : Nat) : List Event :=
  (service.server.connections[position]?.bind (·.client)).toList.map
    fun number => .notice (.clientConnected number service.size)

/-- What a move makes of a server in use.  A server that stops waiting breaks
its connections off, but each of them comes to its end later. -/
def move (service : Service) : ServiceMove → Service
  | .own (.connection position next) =>
      if service.allows position next then service.moveConnection position next
      else service
  | .own .drainExpired =>
      let (stopped, seen) :=
        service.server.move service.isStopping .drainExpired
      { service with
        server := { service.server with phase := stopped.phase }
        events := service.events ++ seen }
  | .own next =>
      let (server, seen) := service.server.move service.isStopping next
      { service with server := server, events := service.events ++ seen }
  | .abort position =>
      if service.server.phase = .stopped ∧ ¬ service.isBusy position then
        service.moveConnection position .abort
      else service
  | .offer number frame =>
      let registry := service.server.registry
      if registry.isMember number then
        service.withRegistry (registry.offer number frame).2
      else service
  | .discard broadcast number =>
      let registry := service.server.registry
      if registry.isMember number ∧ registry.answers .gone number ∧
          ¬ service.isCalling (.broadcast broadcast) then
        (service.withRegistry (registry.disconnect number).2.1).calledBy
          (.broadcast broadcast)
      else service
  | .count caller =>
      { service with
        calls := service.calls.map (Call.counted caller service.size) }
  | .tell caller =>
      match service.calls.find? (·.caller == caller) with
      | some ⟨_, some count⟩ =>
          { service with
            events := service.events ++
              [.measure (.clients service.server.registry.channel count)]
            calls := service.calls.filter (·.caller != caller)
            greeting := service.greeting ++ caller.greets }
      | _ => service
  | .greet position =>
      if position ∈ service.greeting then
        { service with
          events := service.events ++ service.greetingEvents position
          greeting := service.greeting.filter (· != position) }
      else service
  | .cancel token => { service with tokens := service.tokens.cancel token }

/-- Makes moves one after the other. -/
def moves (service : Service) (list : List ServiceMove) : Service :=
  list.foldl move service

/-- Where the server hands its samples out. -/
def outlet (service : Service) : PushOutlet :=
  ⟨service.server.name, service.server⟩

end Service

/-! ## What a connection does in one move -/

namespace Connection

/-- A connection that serves has not ended. -/
theorem isActive_of_isServing
    {connection : Connection}
    (serves : connection.isServing = true) :
    connection.isActive = true := by
  unfold isServing at serves
  unfold isActive
  split at serves <;> simp_all

/-- The reader removes a client who is registered. -/
theorem depart_of_isMember
    (connection : Connection)
    {registry : Registry}
    {number : Nat}
    (isMember : registry.isMember number = true) :
    let removed := registry.change number Client.removed
    connection.depart number registry =
      ({ connection with reader := .draining }, removed,
        removed.sizeEvents) := by
  simp only [depart, Registry.disconnect, isMember, ↓reduceIte]
  rfl

/-- Whoever comes is counted. -/
theorem measures_handshake
    (connection : Connection)
    (registry : Registry) :
    measures (connection.handshake true registry).2.2 ≠ [] := by
  simp [handshake, Registry.connect, Registry.sizeEvents, measures]

/-- Whoever goes is counted out. -/
theorem measures_depart
    (connection : Connection)
    {registry : Registry}
    {number : Nat}
    (isMember : registry.isMember number = true) :
    measures (connection.depart number registry).2.2 ≠ [] := by
  rw [connection.depart_of_isMember isMember]
  simp [Registry.sizeEvents, measures]

/-- A break of a connection changes nobody's registration and is not seen. -/
theorem move_abort_snd
    (connection : Connection)
    (registry : Registry) :
    (connection.move .abort registry).2 = (registry, []) := by
  unfold move
  split
  · unfold moveClient
    split <;> try contradiction
    split <;> rfl
  · split <;> first | contradiction | rfl

/-- Its client stays its client, and it does not serve for longer. -/
theorem move_abort_fst
    (connection : Connection)
    (registry : Registry) :
    let after := (connection.move .abort registry).1
    after.client = connection.client ∧
      (after.isServing = true → connection.isServing = true) := by
  unfold move
  split
  · unfold moveClient
    split <;> try contradiction
    split
    · exact ⟨rfl, nofun⟩
    · exact ⟨rfl, id⟩
  · split <;> try contradiction
    · exact ⟨rfl, nofun⟩
    · exact ⟨rfl, id⟩

/-- What a move of a connection comes to. -/
inductive Turn
    (connection : Connection)
    (registry : Registry) :
    Connection × Registry × List Event → Prop where
  /-- It registers its client. -/
  | joins
      (starts : connection.reader = .handshaking)
      (noClient : connection.client = none) :
      Turn connection registry (connection.handshake true registry)
  /-- It removes its client, who is registered. -/
  | leaves
      {number : Nat}
      (isClient : connection.client = some number)
      (serves : connection.isServing = true)
      (isMember : registry.isMember number = true) :
      Turn connection registry (connection.depart number registry)
  /-- The same clients are registered.  If its own is among them, the connection
  still has to remove it. -/
  | stays
      {after : Connection}
      (calls : List RegistryMove)
      {seen : List Event}
      (sameRoster : (registry.moves calls).roster = registry.roster)
      (sameCount :
        (registry.moves calls).clients.length = registry.clients.length)
      (silent : measures seen = [])
      (sameClient : after.client = connection.client)
      (ends : after.isServing = true → connection.isServing = true)
      (keeps :
        ∀ number,
          connection.client = some number → connection.isServing = true →
            registry.isMember number = true → after.isServing = true) :
      Turn connection registry (after, registry.moves calls, seen)

namespace Turn

variable
  {connection after : Connection}
  {registry : Registry}
  {seen : List Event}

/-- A call that changes nobody's registration, and with it perhaps the
reader. -/
theorem call
    (call : RegistryMove)
    (sameRoster : (registry.move call).roster = registry.roster)
    (sameCount :
      (registry.move call).clients.length = registry.clients.length)
    (silent : measures seen = [])
    (sameClient : after.client = connection.client)
    (sameServing : after.isServing = connection.isServing) :
    connection.Turn registry (after, registry.move call, seen) :=
  .stays [call] sameRoster sameCount silent sameClient
    (fun serves => sameServing ▸ serves)
    fun _ _ serves _ => sameServing.trans serves

/-- No call, and with it perhaps a change of the reader. -/
theorem silent
    (silent : measures seen = [])
    (sameClient : after.client = connection.client)
    (sameServing : after.isServing = connection.isServing) :
    connection.Turn registry (after, registry, seen) :=
  .stays [] rfl rfl silent sameClient (fun serves => sameServing ▸ serves)
    fun _ _ serves _ => sameServing.trans serves

theorem nothing
    (connection : Connection)
    (registry : Registry) :
    connection.Turn registry (connection, registry, []) :=
  .silent rfl rfl rfl

/-- The connection removes its client, or finds it removed. -/
theorem departs
    {number : Nat}
    (isClient : connection.client = some number)
    (serves : connection.isServing = true) :
    connection.Turn registry (connection.depart number registry) := by
  by_cases isMember : registry.isMember number = true
  · exact .leaves isClient serves isMember
  · have nobody :
        connection.depart number registry =
          ({ connection with reader := .draining }, registry, []) := by
      simp [depart, Registry.disconnect, isMember]
    rw [nobody]
    refine .stays [] rfl rfl rfl rfl (fun _ => serves) ?_
    intro other isOther _ present
    rw [isClient] at isOther
    cases isOther
    exact absurd present isMember

theorem take
    (connection : Connection)
    (number : Nat)
    (registry : Registry) :
    connection.Turn registry
      ((connection.take number registry).1,
        (connection.take number registry).2, []) := by
  unfold Connection.take
  split
  · split
    · next frame after received =>
        have moved : registry.move (.receive number) = after :=
          congrArg Prod.snd received
        rw [← moved]
        exact .call (.receive number) (registry.roster_receive number)
          (registry.length_clients_receive number) rfl rfl rfl
    · exact .nothing connection registry
  · exact .nothing connection registry

theorem sent
    (succeeds : Bool)
    (connection : Connection)
    (number : Nat)
    (registry : Registry) :
    connection.Turn registry
      ((connection.sent succeeds number registry).1,
        (connection.sent succeeds number registry).2, []) := by
  unfold Connection.sent
  split
  · split
    · exact .silent rfl rfl rfl
    · exact .call (.dropReceiver number) (registry.roster_dropReceiver number)
        (List.length_map _) rfl rfl rfl
  · exact .nothing connection registry

/-- A connection that has a client. -/
theorem of_moveClient
    {number : Nat}
    (isClient : connection.client = some number)
    {next : ConnectionMove}
    (own : next ≠ .abort) :
    connection.Turn registry (connection.moveClient next number registry) := by
  unfold moveClient
  split
  · next content _ =>
      exact .call (.offer number (.echo content))
        (registry.roster_offer number _) (List.length_map _) rfl rfl rfl
  · next reading =>
      exact .departs isClient (by simp [isServing, reading])
  · next reading =>
      exact .silent rfl rfl (by simp [isServing, reading])
  · next closing =>
      split
      · exact .nothing connection registry
      · next after _ offered =>
          have moved : registry.move (.offer number .goingAway) = after :=
            congrArg Prod.snd offered
          rw [← moved]
          exact .call (.offer number .goingAway)
            (registry.roster_offer number _) (List.length_map _) rfl rfl
            (by simp [isServing, closing])
  · next leaving =>
      exact .departs isClient (by simp [isServing, leaving])
  · next closing =>
      -- The close frame found no room in time; the client goes all the same.
      exact .departs isClient (by simp [isServing, closing])
  · next draining =>
      split
      · exact .nothing connection registry
      · exact .silent rfl rfl (by simp [isServing, draining])
  · exact .take connection number registry
  · exact .sent _ connection number registry
  · split
    · exact .call (.dropReceiver number) (registry.roster_dropReceiver number)
        (List.length_map _) rfl rfl rfl
    · exact .nothing connection registry
  · contradiction
  · exact .nothing connection registry

end Turn

/-- Every move but a break comes to one of these turns. -/
theorem turn_move
    (connection : Connection)
    (registry : Registry)
    {next : ConnectionMove}
    (own : next ≠ .abort) :
    connection.Turn registry (connection.move next registry) := by
  unfold move
  split
  · next number isClient =>
      exact .of_moveClient isClient own
  · next noClient =>
      have ends
          (starts : connection.reader = .handshaking) :
          connection.Turn registry
            ({ connection with reader := .done }, registry, []) := by
        refine .stays [] rfl rfl rfl rfl
          (fun _ => by simp [isServing, starts]) ?_
        intro number isClient
        rw [noClient] at isClient
        cases isClient
      split
      · next succeeds starts =>
          cases succeeds with
          | true =>
              exact .joins starts noClient
          | false =>
              exact ends starts
      · next starts =>
          exact ends starts
      · contradiction
      · exact .nothing connection registry

end Connection

/-! ## Calls without interruption -/

namespace Service

variable
  {service : Service}
  {caller : Caller}
  {position : Nat}

theorem moves_append
    (service : Service)
    (earlier later : List ServiceMove) :
    service.moves (earlier ++ later) = (service.moves earlier).moves later :=
  List.foldl_append

/-- What a move of a connection makes of the server. -/
theorem server_moveConnection
    {connection : Connection}
    (isThere : service.server.connections[position]? = some connection)
    (next : ConnectionMove) :
    (service.moveConnection position next).server =
      let moved := connection.move next service.server.registry
      { service.server with
        connections := service.server.connections.set position moved.1
        registry := moved.2.1 } := by
  simp only [moveConnection, isThere]
  split <;> rfl

/-- A move that changes nobody's registration. -/
theorem moveConnection_of_silent
    {connection : Connection}
    (isThere : service.server.connections[position]? = some connection)
    {next : ConnectionMove}
    {moved : Connection × Registry × List Event}
    (moves : connection.move next service.server.registry = moved)
    (silent : measures moved.2.2 = []) :
    service.moveConnection position next =
      { service with
        server :=
          { service.server with
            connections := service.server.connections.set position moved.1
            registry := moved.2.1 }
        events := service.events ++ moved.2.2 } := by
  simp only [moveConnection, isThere, moves, silent, List.isEmpty_nil,
    ↓reduceIte]

/-- A move that begins a call. -/
theorem moveConnection_of_measured
    {connection : Connection}
    (isThere : service.server.connections[position]? = some connection)
    {next : ConnectionMove}
    {moved : Connection × Registry × List Event}
    (moves : connection.move next service.server.registry = moved)
    (measured : measures moved.2.2 ≠ []) :
    service.moveConnection position next =
      Service.calledBy
        { service with
          server :=
            { service.server with
              connections := service.server.connections.set position moved.1
              registry := moved.2.1 } }
        (connection.caller position) := by
  simp only [moveConnection, isThere, moves, List.isEmpty_iff, measured,
    ↓reduceIte]

/-- A connection is broken off. -/
theorem moveConnection_abort
    {connection : Connection}
    (isThere : service.server.connections[position]? = some connection) :
    service.moveConnection position .abort =
      { service with
        server :=
          { service.server with
            connections :=
              service.server.connections.set position
                (connection.move .abort service.server.registry).1 } } := by
  have silent := connection.move_abort_snd service.server.registry
  rw [moveConnection_of_silent isThere rfl (by rw [silent]; rfl), silent,
    List.append_nil]

theorem ne_caller_of_mem
    (free : service.isCalling caller = false)
    {call : Call}
    (member : call ∈ service.calls) :
    call.caller ≠ caller := by
  simpa using List.any_eq_false.mp free call member

theorem find?_of_free
    (free : service.isCalling caller = false) :
    service.calls.find? (·.caller == caller) = none := by
  rw [List.find?_eq_none]
  intro call member
  simpa using ne_caller_of_mem free member

theorem map_counted_of_free
    (free : service.isCalling caller = false)
    (size : Nat) :
    service.calls.map (Call.counted caller size) = service.calls := by
  conv_rhs => rw [← List.map_id service.calls]
  refine List.map_congr_left fun call member => ?_
  exact if_neg (ne_caller_of_mem free member)

/-- What is left of a call. -/
def calling (caller : Caller) : List ServiceMove :=
  [.count caller, .tell caller]

/-- Without a call under way nothing is left of it. -/
theorem moves_calling_of_free
    (free : service.isCalling caller = false) :
    service.moves (calling caller) = service := by
  have counts : service.move (.count caller) = service := by
    rw [move, map_counted_of_free free]
  have tells : service.move (.tell caller) = service := by
    rw [move, find?_of_free free]
  rw [calling, moves, List.foldl_cons, List.foldl_cons, List.foldl_nil, counts,
    tells]

/-- A call that counts and ends without interruption sets the gauge to the
number of clients. -/
theorem moves_calling
    (free : service.isCalling caller = false) :
    (service.calledBy caller).moves (calling caller) =
      { service with
        events := service.events ++ service.server.registry.sizeEvents
        greeting := service.greeting ++ caller.greets } := by
  let call : Call := ⟨caller, some service.size⟩
  have counts :
      (service.calledBy caller).move (.count caller) =
        { service with calls := service.calls ++ [call] } := by
    simp only [move, calledBy, List.map_append]
    rw [map_counted_of_free free]
    simp [Call.counted, call, size]
  have found :
      (service.calls ++ [call]).find? (·.caller == caller) = some call := by
    rw [List.find?_append, find?_of_free free]
    simp [call]
  have left :
      (service.calls ++ [call]).filter (·.caller != caller) =
        service.calls := by
    rw [List.filter_append, List.filter_eq_self.mpr]
    · simp [call]
    · intro other member
      simpa using ne_caller_of_mem free member
  rw [calling, moves, List.foldl_cons, List.foldl_cons, List.foldl_nil, counts]
  simp only [move, found, left]
  rfl

/-- What is left for a connection to do about its client. -/
def finishing (position : Nat) : List ServiceMove :=
  calling (.joining position) ++
    .greet position :: calling (.leaving position)

theorem moves_finishing
    (service : Service)
    (position : Nat) :
    service.moves (finishing position) =
      ((service.moves (calling (.joining position))).move
        (.greet position)).moves (calling (.leaving position)) := by
  rw [finishing, moves_append]
  rfl

theorem isBusy_eq_false_iff :
    service.isBusy position = false ↔
      service.isCalling (.joining position) = false ∧
        position ∉ service.greeting ∧
          service.isCalling (.leaving position) = false := by
  simp [isBusy, isJoining, and_assoc]

theorem greet_of_not_mem
    (greeted : position ∉ service.greeting) :
    service.move (.greet position) = service :=
  if_neg greeted

theorem moves_finishing_of_free
    (free : service.isBusy position = false) :
    service.moves (finishing position) = service := by
  obtain ⟨joining, greeted, leaving⟩ := isBusy_eq_false_iff.mp free
  rw [moves_finishing, moves_calling_of_free joining, greet_of_not_mem greeted,
    moves_calling_of_free leaving]

theorem moves_finishing_of_joining
    (free : service.isBusy position = false)
    {number : Nat}
    (isClient :
      service.server.connections[position]?.bind (·.client) = some number) :
    (service.calledBy (.joining position)).moves (finishing position) =
      { service with
        events := service.events ++ (service.server.registry.sizeEvents ++
          [.notice (.clientConnected number service.size)]) } := by
  obtain ⟨joining, greeted, leaving⟩ := isBusy_eq_false_iff.mp free
  let told : Service :=
    { service with
      events := service.events ++ service.server.registry.sizeEvents
      greeting := service.greeting ++ [position] }
  let greeted : Service :=
    { service with
      events := service.events ++ (service.server.registry.sizeEvents ++
        [.notice (.clientConnected number service.size)]) }
  have tells :
      (service.calledBy (.joining position)).moves
        (calling (.joining position)) = told :=
    moves_calling joining
  have greets : told.move (.greet position) = greeted := by
    have others :
        service.greeting.filter (· != position) = service.greeting := by
      rw [List.filter_eq_self]
      intro other member
      have different : other ≠ position := by
        rintro rfl
        contradiction
      simpa using different
    simp [move, told, greeted, greetingEvents, isClient, others, size]
  have leavesNot : greeted.isCalling (.leaving position) = false := leaving
  rw [moves_finishing, tells, greets, moves_calling_of_free leavesNot]

theorem moves_finishing_of_leaving
    (free : service.isBusy position = false) :
    (service.calledBy (.leaving position)).moves (finishing position) =
      { service with
        events := service.events ++ service.server.registry.sizeEvents } := by
  obtain ⟨joining, greeted, leaving⟩ := isBusy_eq_false_iff.mp free
  let called := service.calledBy (.leaving position)
  have joinsNot : called.isCalling (.joining position) = false := by
    simpa [called, calledBy, isCalling] using joining
  have tells :
      called.moves (calling (.leaving position)) =
        { service with
          events := service.events ++ service.server.registry.sizeEvents } := by
    simpa [Caller.greets] using moves_calling leaving
  have greetedNot : position ∉ called.greeting := greeted
  calc
    called.moves (finishing position)
        = called.moves (calling (.leaving position)) := by
          rw [moves_finishing, moves_calling_of_free joinsNot,
            greet_of_not_mem greetedNot]
    _ = _ := tells

theorem allows_of_free
    (free : service.isBusy position = false)
    (next : ConnectionMove) :
    service.allows position next = Server.allows service.isStopping next := by
  have joined : service.isJoining position = false := by
    rw [isBusy, Bool.or_eq_false_iff] at free
    exact free.1
  simp [allows, free, joined]

/-- A connection whose call nobody interrupts moves as it does in the server. -/
theorem moves_connection
    (free : service.isBusy position = false)
    (next : ConnectionMove) :
    service.moves (.own (.connection position next) :: finishing position) =
      let (server, seen) :=
        service.server.move service.isStopping (.connection position next)
      { service with server := server, events := service.events ++ seen } := by
  rw [moves, List.foldl_cons]
  simp only [move, allows_of_free free, Server.move, Server.moveConnection]
  cases isThere : service.server.connections[position]? with
  | none =>
      simp only [moveConnection, isThere, List.append_nil, ite_self]
      exact moves_finishing_of_free free
  | some connection =>
      by_cases allowed : Server.allows service.isStopping next = true
      · simp only [allowed, ↓reduceIte]
        have own : next ≠ .abort := by
          rintro rfl
          cases allowed
        have inBounds := (List.getElem?_eq_some_iff.mp isThere).1
        have turn := connection.turn_move service.server.registry own
        generalize moves : connection.move next service.server.registry = moved
          at turn ⊢
        cases turn with
        | joins starts noClient =>
            let registry := service.server.registry
            let joined := (connection.handshake true registry).1
            let server : Server :=
              { service.server with
                connections := service.server.connections.set position joined
                registry := registry.connect.2.1 }
            let left : Service := { service with server := server }
            have leftFree : left.isBusy position = false := free
            have connects : connection.caller position = .joining position := by
              simp [Connection.caller, noClient]
            have isClient :
                server.connections[position]?.bind (·.client) =
                  some registry.connect.1 := by
              simp [server, joined, inBounds, Connection.handshake]
            rw [moveConnection_of_measured isThere moves
              (connection.measures_handshake registry), connects]
            exact moves_finishing_of_joining leftFree isClient
        | leaves isClient serves isMember =>
            have leaves : connection.caller position = .leaving position := by
              simp [Connection.caller, isClient]
            rw [moveConnection_of_measured isThere moves
              (connection.measures_depart isMember), leaves,
              connection.depart_of_isMember isMember]
            exact moves_finishing_of_leaving free
        | stays calls sameRoster sameCount silent sameClient ends keeps =>
            rw [moveConnection_of_silent isThere moves silent]
            exact moves_finishing_of_free free
      · simp only [allowed, Bool.false_eq_true, ↓reduceIte, List.append_nil]
        exact moves_finishing_of_free free

/-! ## A broadcast without interruption -/

/-- The offers of a broadcast, made to clients who are registered. -/
theorem moves_offers
    {numbers : List Nat}
    (frame : Frame)
    (present :
      ∀ number ∈ numbers, service.server.registry.isMember number = true) :
    service.moves (numbers.map (.offer · frame)) =
      service.withRegistry
        (service.server.registry.offerAll frame numbers).2.2 := by
  induction numbers generalizing service with
  | nil =>
      rfl
  | cons first rest inductionHypothesis =>
      obtain ⟨isMember, present⟩ := List.forall_mem_cons.mp present
      let registry := service.server.registry
      have offers :
          service.move (.offer first frame) =
            service.withRegistry (registry.offer first frame).2 :=
        if_pos isMember
      have stillPresent :
          ∀ number ∈ rest,
            (registry.offer first frame).2.isMember number = true := by
        intro number member
        rw [Registry.isMember_offer]
        exact present number member
      rw [List.map_cons, moves, List.foldl_cons, offers]
      exact inductionHypothesis stillPresent

/-- A broadcast removes a client, if the receiver is gone, and counts. -/
def discarding (broadcast number : Nat) : List ServiceMove :=
  .discard broadcast number :: calling (.broadcast broadcast)

/-- All moves of a broadcast. -/
def broadcasting
    (broadcast : Nat)
    (frame : Frame)
    (numbers : List Nat) : List ServiceMove :=
  numbers.map (.offer · frame) ++ numbers.flatMap (discarding broadcast)

/-- The clients with these numbers are removed at once. -/
def without (service : Service) (numbers : List Nat) : Service :=
  let (registry, events) := service.server.registry.disconnectAll numbers
  { service.withRegistry registry with events := service.events ++ events }

theorem without_nil
    (service : Service) :
    service.without [] = service := by
  simp [without, Registry.disconnectAll, withRegistry]

theorem without_cons
    (service : Service)
    (first : Nat)
    (rest : List Nat) :
    service.without (first :: rest) =
      (service.without [first]).without rest := by
  simp [without, Registry.disconnectAll, withRegistry]

/-- A removal of a client who is not registered changes nothing. -/
theorem without_of_not_isMember
    {number : Nat}
    (notMember : service.server.registry.isMember number = false) :
    service.without [number] = service := by
  simp [without, Registry.disconnectAll, Registry.disconnect, notMember,
    withRegistry]

theorem moves_discarding
    {broadcast : Nat}
    (free : service.isCalling (.broadcast broadcast) = false)
    (number : Nat) :
    service.moves (discarding broadcast number) =
      service.without
        ([number].filter (service.server.registry.answers .gone)) := by
  have nothing
      (same : service.move (.discard broadcast number) = service) :
      service.moves (discarding broadcast number) = service := by
    rw [discarding, moves, List.foldl_cons, same]
    exact moves_calling_of_free free
  by_cases gone : service.server.registry.answers .gone number = true
  · by_cases isMember : service.server.registry.isMember number = true
    · let left : Service :=
        service.withRegistry (service.server.registry.disconnect number).2.1
      have discards :
          service.move (.discard broadcast number) =
            left.calledBy (.broadcast broadcast) := by
        simp [move, isMember, gone, free, left]
      rw [discarding, moves, List.foldl_cons, discards]
      have leftFree : left.isCalling (.broadcast broadcast) = false := free
      refine (moves_calling leftFree).trans ?_
      simp [without, gone, left, Registry.disconnectAll, Registry.disconnect,
        isMember, withRegistry, Caller.greets]
    · have same : service.move (.discard broadcast number) = service := by
        simp [move, isMember]
      rw [nothing same, List.filter_singleton, gone, cond_true,
        without_of_not_isMember (by simpa using isMember)]
  · have same : service.move (.discard broadcast number) = service := by
      simp [move, gone]
    rw [nothing same, List.filter_singleton, Bool.eq_false_iff.mpr gone,
      cond_false, without_nil]

theorem moves_discardings
    {broadcast : Nat}
    (free : service.isCalling (.broadcast broadcast) = false)
    (numbers : List Nat) :
    service.moves (numbers.flatMap (discarding broadcast)) =
      service.without
        (numbers.filter (service.server.registry.answers .gone)) := by
  induction numbers generalizing service with
  | nil =>
      exact service.without_nil.symm
  | cons first rest inductionHypothesis =>
      let left :=
        service.without
          ([first].filter (service.server.registry.answers .gone))
      have leftFree : left.isCalling (.broadcast broadcast) = false := free
      have sameAnswers :
          left.server.registry.answers .gone =
            service.server.registry.answers .gone := by
        funext number
        by_cases gone : service.server.registry.answers .gone first = true
        · simp [left, gone, without, Registry.disconnectAll, withRegistry,
            Registry.answers_disconnect]
        · simp [left, gone, without_nil]
      rw [List.flatMap_cons, moves_append, moves_discarding free,
        inductionHypothesis leftFree, sameAnswers]
      by_cases gone : service.server.registry.answers .gone first = true
      · simp only [left, gone, List.filter_cons, List.filter_nil, ↓reduceIte]
        exact (service.without_cons first _).symm
      · simp [left, gone, without_nil]

/-- A broadcast that nobody interrupts does as it does in the server. -/
theorem moves_broadcast
    (numbered : service.server.registry.Numbered)
    {broadcast : Nat}
    (free : service.isCalling (.broadcast broadcast) = false)
    (frame : Frame) :
    service.moves
        (broadcasting broadcast frame service.server.registry.roster) =
      let (_, server, seen) := service.server.broadcast frame
      { service with server := server, events := service.events ++ seen } := by
  let registry := service.server.registry
  let offered := (registry.offerAll frame registry.roster).2.2
  have present :
      ∀ number ∈ registry.roster, registry.isMember number = true :=
    fun number member => (Registry.mem_roster_iff numbered number).mp member
  have sameAnswers :
      (service.withRegistry offered).server.registry.answers .gone =
        registry.answers .gone :=
    registry.answers_gone_offerAll frame registry.roster
  have offeredFree :
      (service.withRegistry offered).isCalling (.broadcast broadcast) = false :=
    free
  have broadcasts :
      (registry.broadcast frame).2 =
        offered.disconnectAll
          (registry.roster.filter (registry.answers .gone)) :=
    Registry.broadcast_snd numbered frame
  rw [broadcasting, moves_append, moves_offers frame present,
    moves_discardings offeredFree, sameAnswers]
  simp only [Server.broadcast, without, withRegistry]
  rw [← broadcasts]

/-! ## The end of the connections without interruption -/

/-- The connections from a position on come to their ends. -/
theorem moves_aborts
    {before after : List Connection}
    (split : service.server.connections = before ++ after)
    (stopped : service.server.phase = .stopped)
    (free : ∀ position, service.isBusy position = false) :
    service.moves ((List.range' before.length after.length).map .abort) =
      { service with
        server :=
          { service.server with
            connections :=
              before ++ after.map fun connection =>
                (connection.move .abort service.server.registry).1 } } := by
  induction after generalizing service before with
  | nil =>
      simp [moves, ← split]
  | cons first rest inductionHypothesis =>
      let aborted := (first.move .abort service.server.registry).1
      let left : Service :=
        { service with
          server :=
            { service.server with connections := before ++ aborted :: rest } }
      have aborts : service.move (.abort before.length) = left := by
        have isThere :
            service.server.connections[before.length]? = some first := by
          rw [split, List.getElem?_append_right (Nat.le_refl _), Nat.sub_self]
          rfl
        rw [move, if_pos ⟨stopped, by simp [free]⟩,
          moveConnection_abort isThere, split,
          List.set_append_right _ _ (Nat.le_refl _), Nat.sub_self,
          List.set_cons_zero]
      have leftSplit :
          left.server.connections = (before ++ [aborted]) ++ rest := by
        simp [left]
      have rests := inductionHypothesis leftSplit stopped free
      rw [List.length_append, List.length_singleton] at rests
      rw [List.length_cons, List.range'_succ, List.map_cons, moves,
        List.foldl_cons, aborts]
      refine rests.trans ?_
      simp only [left, List.map_cons, List.append_assoc, List.singleton_append]
      rfl

/-- A server that stops waiting, and whose connections all come to their ends at
once, does as it does when it breaks them off itself. -/
theorem moves_drainExpired
    (expires :
      service.server.phase = .draining ∧ service.server.remaining ≠ 0)
    (free : ∀ position, service.isBusy position = false) :
    service.moves
        (.own .drainExpired ::
          (List.range' 0 service.server.connections.length).map .abort) =
      let (server, seen) :=
        service.server.move service.isStopping .drainExpired
      { service with server := server, events := service.events ++ seen } := by
  let stopped : Service :=
    { service with
      server := { service.server with phase := .stopped }
      events :=
        service.events ++
          [.notice (.clientsLate service.server.remaining),
            .notice .serverStopped] }
  have stops : service.move (.own .drainExpired) = stopped := by
    simp only [move, Server.move, if_pos expires]
    rfl
  rw [moves, List.foldl_cons, stops]
  simp only [Server.move, if_pos expires]
  have split :
      stopped.server.connections = [] ++ service.server.connections := rfl
  have stoppedFree : ∀ position, stopped.isBusy position = false := free
  exact moves_aborts split rfl stoppedFree

end Service

end PositionFeed
