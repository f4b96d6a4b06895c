import PositionFeed.Proofs.Push.Gauge
import PositionFeed.Proofs.Push.Holders

namespace PositionFeed

/-!
# A push server that has stopped

A server counts as stopped when its accepting half is done: either all of its
connections have ended by then, or the grace period is over and it breaks the
others off.  Then no client is left but those whose connections still had them
to remove when they were broken off, and these stay until a broadcast finds
their receivers gone.  What the gauge says is another matter, because calls to
the registry may overlap.
-/

namespace Service

/-- What a server that has stopped leaves behind after a run. -/
structure Leaves
    (name : String)
    (parent : Token)
    (tokens : Tokens)
    (list : List ServiceMove) : Prop where
  /-- Only clients can be left whose connections had them still to remove when
  they were broken off. -/
  left :
    let reached := (begin name parent tokens).moves list
    reached.server.phase = .stopped →
      ∀ number ∈ reached.server.registry.roster,
        ∃ position ∈ (begin name parent tokens).brokenOff list,
          reached.server.clientAt position = some number
  /-- And these stay: nobody removes the client of a connection that was broken
  off, unless a broadcast finds its receiver gone. -/
  kept :
    let reached := (begin name parent tokens).moves list
    ∀ before after, list = before ++ after →
      let start := (begin name parent tokens).moves before
      ∀ (position : Nat) (connection : Connection) (number : Nat),
        start.server.connections[position]? = some connection →
          connection.reader = .aborted → connection.client = some number →
            number ∈ start.server.registry.roster →
              (∀ broadcast, .discard broadcast number ∉ after) →
                number ∈ reached.server.registry.roster
  /-- If there were no such connections, nobody is left. -/
  nobody :
    let reached := (begin name parent tokens).moves list
    reached.server.phase = .stopped →
      (begin name parent tokens).brokenOff list = [] →
        reached.server.registry.isEmpty = true ∧
          reached.outlet.hasAudience = false
  /-- Whether it has stopped or not: once calls take turns, and one of them is
  over, the gauge says how many clients are registered. -/
  gauge :
    let reached := (begin name parent tokens).moves list
    ∀ before after, list = before ++ after →
      let start := (begin name parent tokens).moves before
      start.calls = [] → start.TakesTurns after → start.SeesCalls after →
        reached.calls = [] →
          reached.lastLevel = some (countLevel reached.size)
  /-- So if nobody is left and calls took turns, it says zero, unless nobody
  ever came. -/
  zero :
    let reached := (begin name parent tokens).moves list
    reached.server.phase = .stopped →
      (begin name parent tokens).brokenOff list = [] →
        (begin name parent tokens).TakesTurns list →
          reached.calls = [] →
            reached.lastLevel =
              if reached.server.registry.clients = [] then none
              else some (countLevel 0)

section

variable
  (name : String)
  (parent : Token)
  (tokens : Tokens)
  {list : List ServiceMove}

theorem left_of_stopped
    (stopped :
      ((begin name parent tokens).moves list).server.phase = .stopped)
    {number : Nat}
    (isRegistered :
      number ∈ ((begin name parent tokens).moves list).server.registry.roster) :
    ∃ position ∈ (begin name parent tokens).brokenOff list,
      ((begin name parent tokens).moves list).server.clientAt position =
        some number := by
  have minds := minds_moves name parent tokens list
  obtain ⟨position, holder, found, isClient, holds⟩ :=
    minds.held number isRegistered
  refine ⟨position, ?_, by rw [Server.clientAt, found]; exact isClient⟩
  rcases holds with serves | broken
  · exact minds.ended stopped position holder found serves
  · exact broken

theorem size_of_stopped
    (stopped :
      ((begin name parent tokens).moves list).server.phase = .stopped)
    (noneBroken : (begin name parent tokens).brokenOff list = []) :
    ((begin name parent tokens).moves list).size = 0 := by
  let reached := (begin name parent tokens).moves list
  have nobody : reached.server.registry.roster = [] := by
    rw [List.eq_nil_iff_forall_not_mem]
    intro number isRegistered
    obtain ⟨position, broken, _⟩ :=
      left_of_stopped name parent tokens stopped isRegistered
    rw [noneBroken] at broken
    cases broken
  rw [size, ← Registry.length_roster, nobody, List.length_nil]

end

/-- Whatever connections a server has, wherever they are and in whatever order
the grace periods end, once it has stopped no client is left but those whose
connections it broke off.  The gauge says so as far as calls take turns. -/
theorem every_stopped_server_lets_its_clients_go
    (name : String)
    (parent : Token)
    (tokens : Tokens)
    (list : List ServiceMove) :
    Leaves name parent tokens list where
  left := fun stopped _ isRegistered =>
    left_of_stopped name parent tokens stopped isRegistered
  kept := by
    rintro _ before after rfl _ position connection number isThere aborted
      isClient isRegistered notRemoved
    have idle : connection.isServing = false := by
      rw [Connection.isServing, aborted]
    have abandons :
        ((begin name parent tokens).moves before).server.Abandons position
          number :=
      ⟨isRegistered, connection, isThere, isClient, idle⟩
    exact (abandons_moves name parent tokens before abandons notRemoved).1
  nobody := by
    intro reached stopped noneBroken
    have noSize : reached.server.registry.size = 0 :=
      size_of_stopped name parent tokens stopped noneBroken
    have isEmpty : reached.server.registry.isEmpty = true := by
      rw [Registry.isEmpty, noSize]
      rfl
    refine ⟨isEmpty, ?_⟩
    show (! reached.server.registry.isEmpty) = false
    rw [isEmpty]
    rfl
  gauge := by
    rintro reached before after rfl start idle turns sees
    have goesOn : reached = start.moves after :=
      moves_append _ before after
    rw [goesOn]
    exact (even_moves_of_sees idle turns sees).idle
  zero := by
    intro reached stopped noneBroken turns ended
    by_cases nobody : reached.server.registry.clients = []
    · rw [if_pos nobody]
      exact (untouched_moves name parent tokens list nobody).2
    · have sees := seesCalls_of_somebody name parent tokens nobody
      have noSize := size_of_stopped name parent tokens stopped noneBroken
      rw [if_neg nobody, ← noSize]
      exact (even_moves_of_sees rfl turns sees).idle ended

/-- The token of a server whose parent is the first token there is. -/
def ownToken : Token := ⟨1, [0]⟩

/-- A server that nobody comes to is stopped. -/
def unvisited : List ServiceMove :=
  [.cancel ownToken, .own .lookAtToken, .own .drained]

/-- A connection is accepted and registers its client. -/
def arrives (position : Nat) : List ServiceMove :=
  .own .accept :: .own (.connection position (.handshake true)) ::
    finishing position

/-- The writer of a client cannot get rid of its first frame, the queue fills up
behind it, and when the server is stopped there is no room for a close frame. -/
def stalled : List ServiceMove :=
  let one (move : ConnectionMove) : ServiceMove := .own (.connection 0 move)
  let frame : ServiceMove := .offer 1 (.text "position")
  arrives 0 ++
    [frame, one .take, frame, frame, frame, frame, .cancel ownToken, one .stop,
      .own .lookAtToken, one .closeQueued]

/-- Two clients leave at once: the second is removed and counted out while the
call for the first has counted and not yet set the gauge. -/
def crossing : List ServiceMove :=
  let one (position : Nat) (move : ConnectionMove) : ServiceMove :=
    .own (.connection position move)
  arrives 0 ++ arrives 1 ++
    [one 0 .leave, .count (.leaving 0)] ++
    one 1 .leave :: finishing 1 ++
    [.tell (.leaving 0)] ++
    [one 0 .writerEnds, one 1 .writerEnds, one 0 .finish, one 1 .finish] ++
    unvisited

/-- A server that nobody came to has counted nobody, not even zero clients.  One
that stops waiting for a stalled client before its connection does keeps it.
Where two clients leave at once, the count of the one who was still there can be
the last. -/
theorem stopping_keeps_stalled_and_counts_nobody :
    let service := begin "ws" ⟨0, []⟩ ⟨1, []⟩
    let first := service.moves unvisited
    let second :=
      service.moves (stalled ++ [.own .drainExpired, .abort 0])
    let third := service.moves crossing
    first.server.phase = .stopped ∧ first.lastLevel = none ∧
      second.server.phase = .stopped ∧
      second.server.registry.isEmpty = false ∧
      second.outlet.hasAudience = true ∧
      second.lastLevel = some (countLevel 1) ∧
      third.server.phase = .stopped ∧
      third.server.registry.isEmpty = true ∧
      third.lastLevel = some (countLevel 1) := by
  decide +kernel

/-- If the close frame is given up first, the client goes, and the server has
let it go when it stops. -/
example :
    let service := begin "ws" ⟨0, []⟩ ⟨1, []⟩
    let list :=
      stalled ++ .own (.connection 0 .closeExpired) :: finishing 0 ++
        [.own .drainExpired, .abort 0]
    let reached := service.moves list
    reached.server.phase = .stopped ∧ service.brokenOff list = [] ∧
      reached.outlet.hasAudience = false ∧
      reached.lastLevel = some (countLevel 0) := by
  decide +kernel

end Service

end PositionFeed
