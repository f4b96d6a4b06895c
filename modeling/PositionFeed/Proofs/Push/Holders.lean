import PositionFeed.Proofs.Push.Service

namespace PositionFeed

/-!
# Who holds a client

Whoever is registered is held by a connection that has its client still to
remove.  A connection that ends on its own removes its client on the way,
whether its close frame found room or not.  So only those clients can be left
whose connections still had them to remove when they were broken off.

Each connection has a client of its own, and nobody else removes it but a
broadcast that finds its receiver gone.  So a client whose connection has ended
without removing it stays.
-/

namespace Server

/-! ## What a move makes of a server -/

/-- A move of a server in use makes another server of it. -/
inductive Makes (server : Server) : ServiceMove → Server → Prop where
  /-- A connection moves on its own. -/
  | turns
      {position : Nat}
      {next : ConnectionMove}
      {connection : Connection}
      {moved : Connection × Registry × List Event}
      (isThere : server.connections[position]? = some connection)
      (turn : connection.Turn server.registry moved) :
      server.Makes (.own (.connection position next))
        { server with
          connections := server.connections.set position moved.1
          registry := moved.2.1 }
  /-- A connection that was broken off comes to its end. -/
  | breaks
      {position : Nat}
      {connection : Connection}
      (stopped : server.phase = .stopped)
      (isThere : server.connections[position]? = some connection) :
      server.Makes (.abort position)
        { server with
          connections :=
            server.connections.set position
              (connection.move .abort server.registry).1 }
  /-- A connection is accepted. -/
  | accepts
      (accepting : server.phase = .accepting) :
      server.Makes (.own .accept)
        { server with connections := server.connections ++ [Connection.fresh] }
  /-- The accepting half sees that it has to stop. -/
  | drains :
      server.Makes (.own .lookAtToken) { server with phase := .draining }
  /-- All connections have ended. -/
  | stops
      (ended : server.remaining = 0) :
      server.Makes (.own .drained) { server with phase := .stopped }
  /-- The grace period is over. -/
  | expires
      (late : server.phase = .draining ∧ server.remaining ≠ 0) :
      server.Makes (.own .drainExpired) { server with phase := .stopped }
  /-- A frame is offered. -/
  | offers
      {number : Nat}
      {frame : Frame} :
      server.Makes (.offer number frame)
        { server with registry := (server.registry.offer number frame).2 }
  /-- A broadcast removes a client. -/
  | discards
      {broadcast number : Nat} :
      server.Makes (.discard broadcast number)
        { server with registry := (server.registry.disconnect number).2.1 }
  /-- Nothing changes. -/
  | rests
      (next : ServiceMove) :
      server.Makes next server

end Server

namespace Service

theorem makes_own
    (service : Service)
    (next : ServerMove) :
    service.server.Makes (.own next) (service.move (.own next)).server := by
  cases next with
  | connection position next =>
      simp only [move]
      split
      · next allowed =>
          cases isThere : service.server.connections[position]? with
          | none =>
              rw [moveConnection, isThere]
              exact .rests _
          | some connection =>
              have own : next ≠ .abort := by
                rintro rfl
                cases allowed
              rw [server_moveConnection isThere]
              exact .turns isThere (connection.turn_move _ own)
      · exact .rests _
  | accept =>
      simp only [move, Server.move]
      split
      · next accepting =>
          exact .accepts accepting
      · exact .rests _
  | lookAtToken =>
      simp only [move, Server.move]
      split
      · exact .drains
      · exact .rests _
  | drained =>
      simp only [move, Server.move]
      split
      · next drains =>
          exact .stops drains.2
      · exact .rests _
  | drainExpired =>
      simp only [move, Server.move]
      split
      · next late =>
          exact .expires late
      · exact .rests _

/-- Every move makes one of these changes. -/
theorem makes_move
    (service : Service)
    (next : ServiceMove) :
    service.server.Makes next (service.move next).server := by
  cases next with
  | own next =>
      exact service.makes_own next
  | abort position =>
      simp only [move]
      split
      · next allowed =>
          cases isThere : service.server.connections[position]? with
          | none =>
              rw [moveConnection, isThere]
              exact .rests _
          | some connection =>
              rw [moveConnection_abort isThere]
              exact .breaks allowed.1 isThere
      · exact .rests _
  | offer number frame =>
      simp only [move]
      split
      · exact .offers
      · exact .rests _
  | discard broadcast number =>
      simp only [move]
      split
      · exact .discards
      · exact .rests _
  | count caller =>
      exact .rests _
  | tell caller =>
      simp only [move]
      split <;> exact .rests _
  | greet position =>
      simp only [move]
      split <;> exact .rests _
  | cancel token =>
      exact .rests _

end Service

namespace Server

/-! ## Connections hold clients -/

/-- The positions of the connections that have their clients still to remove, or
even to register. -/
def servingPositions (server : Server) : List Nat :=
  (server.connections.zipIdx.filter (·.1.isServing)).map (·.2)

theorem mem_servingPositions
    {server : Server}
    {position : Nat}
    {connection : Connection}
    (isThere : server.connections[position]? = some connection)
    (serves : connection.isServing = true) :
    position ∈ server.servingPositions := by
  refine List.mem_map.mpr ⟨(connection, position), ?_, rfl⟩
  rw [List.mem_filter, List.mem_zipIdx_iff_getElem?]
  exact ⟨isThere, serves⟩

/-- The connection at a position has a client, whom it has still to remove, or
it was broken off. -/
def Holds
    (server : Server)
    (broken : List Nat)
    (position number : Nat) : Prop :=
  ∃ connection,
    server.connections[position]? = some connection ∧
      connection.client = some number ∧
        (connection.isServing = true ∨ position ∈ broken)

/-- What holds of a server in use, given the positions of the connections that
were broken off. -/
structure Minds (server : Server) (broken : List Nat) : Prop where
  numbered : server.registry.Numbered
  /-- Whoever is registered is held by a connection. -/
  held :
    ∀ number ∈ server.registry.roster,
      ∃ position, server.Holds broken position number
  /-- Once the server has stopped, a connection that has its client still to
  remove was broken off. -/
  ended :
    server.phase = .stopped →
      ∀ position connection,
        server.connections[position]? = some connection →
          connection.isServing = true → position ∈ broken

namespace Minds

variable
  {server : Server}
  {broken : List Nat}
  {position : Nat}
  {connection : Connection}

/-- One connection and its client change. -/
theorem set
    (minds : server.Minds broken)
    (isThere : server.connections[position]? = some connection)
    {after : Connection}
    {changed : Registry}
    (numbered : changed.Numbered)
    (ends : after.isServing = true → connection.isServing = true)
    (holds :
      ∀ number ∈ changed.roster,
        (after.client = some number ∧ after.isServing = true) ∨
          number ∈ server.registry.roster ∧
            (connection.client = some number →
              after.client = some number ∧
                (connection.isServing = true →
                  after.isServing = true ∨ position ∈ broken))) :
    Minds
      { server with
        connections := server.connections.set position after
        registry := changed }
      broken := by
  have inBounds := (List.getElem?_eq_some_iff.mp isThere).1
  have isAfter :
      (server.connections.set position after)[position]? = some after :=
    List.getElem?_set_self inBounds
  have others
      {place : Nat}
      (elsewhere : position ≠ place) :
      (server.connections.set position after)[place]? =
        server.connections[place]? :=
    List.getElem?_set_ne elsewhere
  refine { numbered := numbered, held := ?_, ended := ?_ }
  · intro number isRegistered
    rcases holds number isRegistered with
      ⟨isClient, serves⟩ | ⟨before, same⟩
    · exact ⟨position, after, isAfter, isClient, .inl serves⟩
    · obtain ⟨place, holder, found, isClient, still⟩ := minds.held number before
      by_cases here : position = place
      · subst place
        cases isThere.symm.trans found
        obtain ⟨isSame, goesOn⟩ := same isClient
        exact ⟨position, after, isAfter, isSame, still.elim goesOn .inr⟩
      · exact ⟨place, holder, (others here).trans found, isClient, still⟩
  · intro stopped place other found serves
    by_cases here : position = place
    · subst place
      cases isAfter.symm.trans found
      exact minds.ended stopped position connection isThere (ends serves)
    · exact minds.ended stopped place other ((others here).symm.trans found)
        serves

/-- A connection moves on its own. -/
theorem turn
    (minds : server.Minds broken)
    (isThere : server.connections[position]? = some connection)
    {moved : Connection × Registry × List Event}
    (turn : connection.Turn server.registry moved) :
    Minds
      { server with
        connections := server.connections.set position moved.1
        registry := moved.2.1 }
      broken := by
  cases turn with
  | joins starts noClient =>
      refine minds.set isThere (Registry.numbered_connect minds.numbered)
        (fun _ => by simp [Connection.isServing, starts]) ?_
      intro number isRegistered
      have joined :
          number ∈ server.registry.roster ++ [server.registry.connect.1] := by
        rw [← Registry.roster_connect]
        exact isRegistered
      rcases List.mem_append.mp joined with before | isNew
      · refine .inr ⟨before, fun isClient => ?_⟩
        rw [noClient] at isClient
        cases isClient
      · rw [List.mem_singleton.mp isNew]
        exact .inl ⟨rfl, rfl⟩
  | @leaves leaving isClient serves isMember =>
      refine minds.set isThere (Registry.numbered_disconnect minds.numbered _)
        (fun _ => serves) ?_
      intro number isRegistered
      have left : number ∈ server.registry.roster.erase leaving := by
        rw [← Registry.roster_disconnect minds.numbered]
        exact isRegistered
      obtain ⟨different, before⟩ :=
        (Registry.nodup_roster minds.numbered).mem_erase_iff.mp left
      refine .inr ⟨before, fun isOther => ?_⟩
      rw [isClient] at isOther
      cases isOther
      contradiction
  | stays calls sameRoster sameCount silent sameClient ends keeps =>
      refine minds.set isThere
        (Registry.numbered_moves minds.numbered calls) ends ?_
      intro number isRegistered
      rw [sameRoster] at isRegistered
      have isMember :=
        (Registry.mem_roster_iff minds.numbered number).mp isRegistered
      refine .inr ⟨isRegistered, fun isClient => ?_⟩
      exact ⟨sameClient.trans isClient,
        fun serves => .inl (keeps number isClient serves isMember)⟩

/-- A connection that was broken off comes to its end. -/
theorem abort
    (minds : server.Minds broken)
    (stopped : server.phase = .stopped)
    (isThere : server.connections[position]? = some connection) :
    Minds
      { server with
        connections :=
          server.connections.set position
            (connection.move .abort server.registry).1 }
      broken := by
  obtain ⟨sameClient, ends⟩ := connection.move_abort_fst server.registry
  refine minds.set isThere minds.numbered ends ?_
  intro number isRegistered
  refine .inr ⟨isRegistered, fun isClient => ⟨sameClient.trans isClient, ?_⟩⟩
  exact fun serves =>
    .inr (minds.ended stopped position connection isThere serves)

/-- A connection is accepted. -/
theorem accept
    (minds : server.Minds broken)
    (accepting : server.phase = .accepting) :
    Minds
      { server with connections := server.connections ++ [Connection.fresh] }
      broken := by
  refine { numbered := minds.numbered, held := ?_, ended := ?_ }
  · intro number isRegistered
    obtain ⟨position, holder, found, holds⟩ := minds.held number isRegistered
    have inBounds := (List.getElem?_eq_some_iff.mp found).1
    exact ⟨position, holder,
      (List.getElem?_append_left inBounds).trans found, holds⟩
  · intro stopped
    cases accepting.symm.trans stopped

/-- All connections have ended. -/
theorem stop
    (minds : server.Minds broken)
    (ended : server.remaining = 0) :
    Minds { server with phase := .stopped } broken := by
  have noneActive : server.connections.filter Connection.isActive = [] :=
    List.length_eq_zero_iff.mp ended
  refine { minds with ended := ?_ }
  intro _ position connection isThere serves
  have active := connection.isActive_of_isServing serves
  exact absurd active
    (List.filter_eq_nil_iff.mp noneActive connection
      (List.mem_of_getElem? isThere))

/-- More connections count as broken off. -/
theorem more
    (minds : server.Minds broken)
    (others : List Nat) :
    server.Minds (broken ++ others) where
  numbered := minds.numbered
  held := by
    intro number isRegistered
    obtain ⟨position, holder, found, isClient, holds⟩ :=
      minds.held number isRegistered
    exact ⟨position, holder, found, isClient,
      holds.imp_right (List.mem_append_left others)⟩
  ended := fun stopped position connection isThere serves =>
    List.mem_append_left others
      (minds.ended stopped position connection isThere serves)

/-- The grace period is over. -/
theorem expire
    (minds : server.Minds broken) :
    Minds { server with phase := .stopped }
      (broken ++ server.servingPositions) :=
  { minds.more server.servingPositions with
    ended := fun _ _ _ isThere serves =>
      List.mem_append_right broken (mem_servingPositions isThere serves) }

end Minds

/-- The positions of the connections that a move breaks off while they have
their clients still to remove. -/
def breaksOff (server : Server) : ServiceMove → List Nat
  | .own .drainExpired =>
      if server.phase = .draining ∧ server.remaining ≠ 0 then
        server.servingPositions
      else []
  | _ => []

/-- Every move keeps to the invariant. -/
theorem Minds.move
    {server after : Server}
    {broken : List Nat}
    {next : ServiceMove}
    (minds : server.Minds broken)
    (makes : server.Makes next after) :
    after.Minds (broken ++ server.breaksOff next) := by
  cases makes with
  | turns isThere turn =>
      exact (minds.turn isThere turn).more _
  | breaks stopped isThere =>
      exact (minds.abort stopped isThere).more _
  | accepts accepting =>
      exact (minds.accept accepting).more _
  | drains =>
      refine { minds.more _ with ended := ?_ }
      intro stopped
      cases stopped
  | stops ended =>
      exact (minds.stop ended).more _
  | expires late =>
      rw [breaksOff, if_pos late]
      exact minds.expire
  | @offers number frame =>
      have stays := server.registry.roster_offer number frame
      refine { minds.more _ with numbered := ?_, held := ?_ }
      · exact Registry.numbered_offer minds.numbered number frame
      · intro other isRegistered
        rw [stays] at isRegistered
        exact (minds.more _).held other isRegistered
  | @discards broadcast number =>
      refine { minds.more _ with numbered := ?_, held := ?_ }
      · exact Registry.numbered_disconnect minds.numbered number
      · intro other isRegistered
        rw [Registry.roster_disconnect minds.numbered] at isRegistered
        exact (minds.more _).held other (List.mem_of_mem_erase isRegistered)
  | rests =>
      exact minds.more _

/-! ## Connections have clients of their own -/

/-- The client of the connection at a position. -/
def clientAt (server : Server) (position : Nat) : Option Nat :=
  server.connections[position]?.bind (·.client)

/-- No two connections have one client. -/
structure Apart (server : Server) : Prop where
  /-- Nobody is a client before the registry has made it one. -/
  known :
    ∀ position number,
      server.clientAt position = some number →
        number ≤ server.registry.clients.length
  apart :
    ∀ position place number,
      server.clientAt position = some number →
        server.clientAt place = some number → position = place

namespace Apart

variable
  {server : Server}
  {position : Nat}
  {connection : Connection}

/-- One connection changes, and its client is the one it had or a new one. -/
theorem set
    (apart : server.Apart)
    (isThere : server.connections[position]? = some connection)
    {after : Connection}
    {changed : Registry}
    (more : server.registry.clients.length ≤ changed.clients.length)
    (own :
      ∀ number,
        after.client = some number →
          connection.client = some number ∨
            server.registry.clients.length < number ∧
              number ≤ changed.clients.length) :
    Apart
      { server with
        connections := server.connections.set position after
        registry := changed } := by
  let next : Server :=
    { server with
      connections := server.connections.set position after
      registry := changed }
  have before
      {place number : Nat}
      (isClient : next.clientAt place = some number) :
      server.clientAt place = some number ∨
        place = position ∧ server.registry.clients.length < number ∧
          number ≤ changed.clients.length := by
    by_cases here : position = place
    · subst place
      have inBounds := (List.getElem?_eq_some_iff.mp isThere).1
      have isAfter : next.clientAt position = after.client := by
        simp [clientAt, next, inBounds]
      have wasBefore : server.clientAt position = connection.client := by
        simp [clientAt, isThere]
      rw [wasBefore]
      exact (own number (isAfter.symm.trans isClient)).imp_right
        fun isNew => ⟨rfl, isNew⟩
    · have same : next.clientAt place = server.clientAt place := by
        simp [clientAt, next, List.getElem?_set_ne here]
      exact .inl (same.symm.trans isClient)
  refine { known := ?_, apart := ?_ }
  · intro place number isClient
    rcases before isClient with wasClient | ⟨_, _, within⟩
    · exact (apart.known place number wasClient).trans more
    · exact within
  · intro first second number isFirst isSecond
    rcases before isFirst with wasFirst | ⟨rfl, isNew, _⟩ <;>
      rcases before isSecond with wasSecond | ⟨rfl, alsoNew, _⟩
    · exact apart.apart first second number wasFirst wasSecond
    · have known := apart.known first number wasFirst
      omega
    · have known := apart.known second number wasSecond
      omega
    · rfl

/-- A connection moves on its own. -/
theorem turn
    (apart : server.Apart)
    (isThere : server.connections[position]? = some connection)
    {moved : Connection × Registry × List Event}
    (turn : connection.Turn server.registry moved) :
    Apart
      { server with
        connections := server.connections.set position moved.1
        registry := moved.2.1 } := by
  cases turn with
  | joins starts noClient =>
      have more :
          server.registry.connect.2.1.clients.length =
            server.registry.clients.length + 1 :=
        List.length_append
      refine apart.set isThere ((Nat.le_succ _).trans more.ge) ?_
      intro number isClient
      obtain rfl : server.registry.nextNumber = number :=
        Option.some.inj isClient
      exact .inr ⟨Nat.lt_succ_self _, more.ge⟩
  | @leaves leaving isClient serves isMember =>
      refine apart.set isThere ?_ fun number isOther => .inl isOther
      exact (server.registry.length_clients_disconnect leaving).ge
  | stays calls sameRoster sameCount silent sameClient ends keeps =>
      exact apart.set isThere sameCount.ge fun number isClient =>
        .inl (sameClient.symm.trans isClient)

/-- A connection that has just been accepted has no client. -/
theorem accept
    (apart : server.Apart) :
    Apart
      { server with
        connections := server.connections ++ [Connection.fresh] } := by
  let next : Server :=
    { server with connections := server.connections ++ [Connection.fresh] }
  have before (position : Nat) :
      next.clientAt position = server.clientAt position := by
    simp only [clientAt, next, List.getElem?_append]
    split
    · rfl
    · next outside =>
        rw [List.getElem?_eq_none (Nat.le_of_not_lt outside),
          List.getElem?_singleton]
        split <;> rfl
  refine { known := ?_, apart := ?_ }
  · intro position number isClient
    exact apart.known position number ((before position).symm.trans isClient)
  · intro position place number isFirst isSecond
    exact apart.apart position place number
      ((before position).symm.trans isFirst)
      ((before place).symm.trans isSecond)

/-- Every move keeps connections apart. -/
theorem move
    {after : Server}
    {next : ServiceMove}
    (apart : server.Apart)
    (makes : server.Makes next after) :
    after.Apart := by
  cases makes with
  | turns isThere turn =>
      exact apart.turn isThere turn
  | @breaks position connection stopped isThere =>
      have sameClient := (connection.move_abort_fst server.registry).1
      exact apart.set isThere (Nat.le_refl _) fun number isClient =>
        .inl (sameClient.symm.trans isClient)
  | accepts accepting =>
      exact apart.accept
  | @offers number frame =>
      have sameCount :
          (server.registry.offer number frame).2.clients.length =
            server.registry.clients.length :=
        List.length_map _
      exact { apart with
        known := fun position other isClient =>
          (apart.known position other isClient).trans sameCount.ge }
  | @discards broadcast number =>
      have sameCount := server.registry.length_clients_disconnect number
      exact { apart with
        known := fun position other isClient =>
          (apart.known position other isClient).trans sameCount.ge }
  | _ =>
      exact { apart with }

end Apart

/-! ## Clients whose connections have ended -/

/-- The connection at a position has nothing more to do about its client, who is
still registered. -/
def Abandons (server : Server) (position number : Nat) : Prop :=
  number ∈ server.registry.roster ∧
    ∃ connection,
      server.connections[position]? = some connection ∧
        connection.client = some number ∧ connection.isServing = false

namespace Abandons

variable
  {server : Server}
  {position number : Nat}

/-- One connection changes, and the client stays registered. -/
theorem set
    (abandons : server.Abandons position number)
    {place : Nat}
    {connection : Connection}
    (isThere : server.connections[place]? = some connection)
    {after : Connection}
    {changed : Registry}
    (stays : number ∈ changed.roster)
    (sameClient : connection.client = some number → after.client = some number)
    (ends : after.isServing = true → connection.isServing = true) :
    Abandons
      { server with
        connections := server.connections.set place after
        registry := changed }
      position number := by
  obtain ⟨_, holder, found, isClient, idle⟩ := abandons
  by_cases here : place = position
  · subst place
    cases isThere.symm.trans found
    have inBounds := (List.getElem?_eq_some_iff.mp isThere).1
    have stillIdle : after.isServing = false := by
      rw [Bool.eq_false_iff]
      intro serves
      rw [ends serves] at idle
      cases idle
    exact ⟨stays, after, List.getElem?_set_self inBounds, sameClient isClient,
      stillIdle⟩
  · exact ⟨stays, holder, (List.getElem?_set_ne here).trans found, isClient,
      idle⟩

/-- A connection moves on its own. -/
theorem turn
    (abandons : server.Abandons position number)
    (numbered : server.registry.Numbered)
    (apart : server.Apart)
    {place : Nat}
    {connection : Connection}
    (isThere : server.connections[place]? = some connection)
    {moved : Connection × Registry × List Event}
    (turn : connection.Turn server.registry moved) :
    Abandons
      { server with
        connections := server.connections.set place moved.1
        registry := moved.2.1 }
      position number := by
  obtain ⟨holder, found, isClient, idle⟩ := abandons.2
  cases turn with
  | joins starts noClient =>
      have joined := server.registry.roster_connect
      refine abandons.set isThere
        (joined ▸ List.mem_append_left _ abandons.1) ?_
        fun _ => by simp [Connection.isServing, starts]
      intro isOther
      rw [noClient] at isOther
      cases isOther
  | @leaves leaving isLeaving serves isMember =>
      -- Whoever leaves is not this client, or its connection would still serve.
      have different : number ≠ leaving := by
        rintro rfl
        have atPlace : server.clientAt place = some number := by
          simp [clientAt, isThere, isLeaving]
        have atPosition : server.clientAt position = some number := by
          simp [clientAt, found, isClient]
        cases apart.apart place position number atPlace atPosition
        cases isThere.symm.trans found
        rw [idle] at serves
        cases serves
      have left := Registry.roster_disconnect numbered leaving
      exact abandons.set isThere
        (left ▸ (List.mem_erase_of_ne different).mpr abandons.1) id
        fun _ => serves
  | stays calls sameRoster sameCount silent sameClient ends keeps =>
      exact abandons.set isThere (sameRoster ▸ abandons.1) sameClient.trans ends

/-- Only a broadcast removes such a client. -/
theorem move
    (abandons : server.Abandons position number)
    (numbered : server.registry.Numbered)
    (apart : server.Apart)
    {after : Server}
    {next : ServiceMove}
    (makes : server.Makes next after)
    (notRemoved : ∀ broadcast, next ≠ .discard broadcast number) :
    after.Abandons position number := by
  cases makes with
  | turns isThere turn =>
      exact abandons.turn numbered apart isThere turn
  | @breaks place connection stopped isThere =>
      obtain ⟨sameClient, ends⟩ := connection.move_abort_fst server.registry
      exact abandons.set isThere abandons.1 sameClient.trans ends
  | accepts accepting =>
      obtain ⟨isRegistered, holder, found, isClient, idle⟩ := abandons
      have inBounds := (List.getElem?_eq_some_iff.mp found).1
      exact ⟨isRegistered, holder,
        (List.getElem?_append_left inBounds).trans found, isClient, idle⟩
  | @offers offering frame =>
      have sameRoster := server.registry.roster_offer offering frame
      exact ⟨sameRoster ▸ abandons.1, abandons.2⟩
  | @discards broadcast leaving =>
      have different : number ≠ leaving := by
        rintro rfl
        exact notRemoved broadcast rfl
      have left := Registry.roster_disconnect numbered leaving
      exact ⟨left ▸ (List.mem_erase_of_ne different).mpr abandons.1, abandons.2⟩
  | _ =>
      exact abandons

end Abandons

end Server

namespace Service

/-- The positions of the connections that a run breaks off while they have their
clients still to remove. -/
def brokenOff (service : Service) (list : List ServiceMove) : List Nat :=
  Run.yielded move (fun service next => service.server.breaksOff next) service
    list

/-- In every run whoever is registered is held by a connection. -/
theorem minds_moves
    (name : String)
    (parent : Token)
    (tokens : Tokens)
    (list : List ServiceMove) :
    ((begin name parent tokens).moves list).server.Minds
      ((begin name parent tokens).brokenOff list) := by
  induction list using List.reverseRecOn with
  | nil =>
      exact { numbered := rfl, held := nofun, ended := nofun }
  | append_singleton list next inductionHypothesis =>
      rw [brokenOff, Run.yielded_concat, moves_append]
      exact inductionHypothesis.move (makes_move _ next)

/-- In every run connections have clients of their own. -/
theorem apart_moves
    (name : String)
    (parent : Token)
    (tokens : Tokens)
    (list : List ServiceMove) :
    ((begin name parent tokens).moves list).server.Apart := by
  induction list using List.reverseRecOn with
  | nil =>
      exact { known := nofun, apart := nofun }
  | append_singleton list next inductionHypothesis =>
      rw [moves_append]
      exact inductionHypothesis.move (makes_move _ next)

/-- A client whose connection has ended without removing it stays through a run
in which no broadcast removes it. -/
theorem abandons_moves
    (name : String)
    (parent : Token)
    (tokens : Tokens)
    (before : List ServiceMove)
    {position number : Nat}
    (abandons :
      ((begin name parent tokens).moves before).server.Abandons position number)
    {after : List ServiceMove}
    (notRemoved : ∀ broadcast, .discard broadcast number ∉ after) :
    ((begin name parent tokens).moves (before ++ after)).server.Abandons
      position number := by
  induction after using List.reverseRecOn with
  | nil =>
      rw [List.append_nil]
      exact abandons
  | append_singleton after next inductionHypothesis =>
      have earlier :=
        inductionHypothesis fun broadcast member =>
          notRemoved broadcast (List.mem_append_left _ member)
      have last (broadcast : Nat) : next ≠ .discard broadcast number := by
        rintro rfl
        exact notRemoved broadcast (List.mem_append_right _ List.mem_cons_self)
      rw [← List.append_assoc, moves_append]
      exact earlier.move (minds_moves name parent tokens _).numbered
        (apart_moves name parent tokens _) (makes_move _ next) last

end Service

end PositionFeed
