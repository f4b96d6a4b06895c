import PositionFeed.Proofs.Push.Service

namespace PositionFeed

/-!
# The gauge of clients among tasks

The gauge is set at the end of a call, to what the call has counted.  While
calls take turns this is how many clients there are.  A server that nobody ever
came to has not set it.
-/

namespace Registry

/-- What a gauge of clients was set to, by what was seen. -/
def levelsIn (channel : String) (events : List Event) : List Float :=
  (Recorded.ofMeasures (measures events)).levels (.clients channel)

/-- Nothing else sets the gauge. -/
theorem levelsIn_append_of_silent
    (channel : String)
    (events : List Event)
    {seen : List Event}
    (silent : measures seen = []) :
    levelsIn channel (events ++ seen) = levelsIn channel events := by
  rw [levelsIn, measures_append, silent, List.append_nil, levelsIn]

/-- A count of clients sets the gauge. -/
theorem levelsIn_append_clients
    (channel : String)
    (events : List Event)
    (count : Nat) :
    levelsIn channel (events ++ [.measure (.clients channel count)]) =
      levelsIn channel events ++ [countLevel count] := by
  simp [levelsIn, Recorded.levels_clients, measures, Measure.clientsOf?]

theorem size_of_roster
    {first second : Registry}
    (same : first.roster = second.roster) :
    first.size = second.size := by
  rw [← length_roster, same, length_roster]

/-- Where a client is removed, there has been one. -/
theorem somebody_disconnect
    {registry : Registry}
    {number : Nat}
    (isMember : registry.isMember number = true) :
    (registry.disconnect number).2.1.clients ≠ [] := by
  intro nobody
  have left := registry.client?_disconnect number number
  rw [client?, nobody, List.find?_nil] at left
  rw [Registry.isMember, Option.map_eq_none_iff.mp left.symm] at isMember
  cases isMember

end Registry

/-- A call that has counted the clients knows how many there are, if one that
had counted them before does. -/
theorem Call.count_counted
    {caller : Caller}
    {size count : Nat}
    (call : Call)
    (knows : ∀ count, call.count = some count → count = size)
    (isCount : (call.counted caller size).count = some count) :
    count = size := by
  unfold counted at isCount
  split at isCount
  · cases before : call.count with
    | none =>
        simpa [before, eq_comm] using isCount
    | some earlier =>
        exact knows count (by simpa [before] using isCount)
  · exact knows count isCount

namespace Service

variable
  {service : Service}

/-! ## What a move is to the gauge -/

/-- What the count of clients was last set to. -/
def lastLevel (service : Service) : Option Float :=
  (Registry.levelsIn service.server.registry.channel service.events).getLast?

theorem measures_greetingEvents
    (service : Service)
    (position : Nat) :
    measures (service.greetingEvents position) = [] := by
  unfold greetingEvents
  cases service.server.connections[position]?.bind (·.client) <;> rfl

/-- What a move is to those who read the gauge. -/
inductive Gauges (service after : Service) : Prop where
  /-- Nobody comes or goes, and the gauge stays. -/
  | quiet
      (sameSize : after.size = service.size)
      (sameCount :
        after.server.registry.clients.length =
          service.server.registry.clients.length)
      (sameLevel : after.lastLevel = service.lastLevel)
      (sameCalls : after.calls = service.calls)
  /-- Somebody comes or goes. -/
  | begins
      (caller : Caller)
      (somebody : after.server.registry.clients ≠ [])
      (begun : after.calls = service.calls ++ [⟨caller, none⟩])
  /-- The clients are counted. -/
  | counts
      (caller : Caller)
      (sameServer : after.server = service.server)
      (sameLevel : after.lastLevel = service.lastLevel)
      (counted :
        after.calls = service.calls.map (Call.counted caller service.size))
  /-- The gauge is set. -/
  | tells
      (call : Call)
      (count : Nat)
      (member : call ∈ service.calls)
      (isCount : call.count = some count)
      (sameServer : after.server = service.server)
      (told : after.lastLevel = some (countLevel count))
      (fewer : after.calls ⊆ service.calls)

namespace Gauges

/-- The server changes, but not who is registered. -/
theorem of_roster
    {server : Server}
    {seen : List Event}
    {tokens : Tokens}
    {greeting : List Nat}
    (sameRoster : server.registry.roster = service.server.registry.roster)
    (sameCount :
      server.registry.clients.length = service.server.registry.clients.length)
    (sameChannel : server.registry.channel = service.server.registry.channel)
    (silent : measures seen = []) :
    service.Gauges
      ⟨server, tokens, service.events ++ seen, service.calls, greeting⟩ := by
  refine .quiet ?_ sameCount ?_ rfl
  · exact Registry.size_of_roster sameRoster
  · rw [lastLevel, sameChannel, Registry.levelsIn_append_of_silent _ _ silent,
      lastLevel]

theorem nothing
    (service : Service) :
    service.Gauges service :=
  .quiet rfl rfl rfl rfl

theorem connection
    (service : Service)
    (position : Nat)
    {next : ConnectionMove}
    (own : next ≠ .abort) :
    service.Gauges (service.moveConnection position next) := by
  cases isThere : service.server.connections[position]? with
  | none =>
      rw [moveConnection, isThere]
      exact .nothing service
  | some connection =>
      let registry := service.server.registry
      have turn := connection.turn_move registry own
      generalize moves : connection.move next registry = moved at turn
      cases turn with
      | joins starts noClient =>
          rw [moveConnection_of_measured isThere moves
            (connection.measures_handshake registry)]
          exact .begins _ (List.append_ne_nil_of_right_ne_nil _
            (List.cons_ne_nil _ _)) rfl
      | leaves isClient serves isMember =>
          rw [moveConnection_of_measured isThere moves
            (connection.measures_depart isMember)]
          exact .begins _ (Registry.somebody_disconnect isMember) rfl
      | stays calls sameRoster sameCount silent sameClient ends keeps =>
          rw [moveConnection_of_silent isThere moves silent]
          exact .of_roster sameRoster sameCount (Registry.channel_moves _ calls)
            silent

theorem abort
    (service : Service)
    (position : Nat) :
    service.Gauges (service.move (.abort position)) := by
  simp only [Service.move]
  split
  · cases isThere : service.server.connections[position]? with
    | none =>
        rw [moveConnection, isThere]
        exact .nothing service
    | some connection =>
        rw [moveConnection_abort isThere]
        exact .quiet rfl rfl rfl rfl
  · exact .nothing service

theorem tell
    (service : Service)
    (caller : Caller) :
    service.Gauges (service.move (.tell caller)) := by
  simp only [Service.move]
  split
  · next count found =>
      refine .tells _ count (List.mem_of_find?_eq_some found) rfl rfl ?_
        (List.filter_subset_self _)
      rw [lastLevel, Registry.levelsIn_append_clients, List.getLast?_concat]
  · exact .nothing service

end Gauges

/-- Every move is one of these. -/
theorem gauges_move
    (service : Service)
    (next : ServiceMove) :
    service.Gauges (service.move next) := by
  cases next with
  | own next =>
      cases next with
      | connection position next =>
          simp only [move]
          split
          · next allowed =>
              refine .connection service position ?_
              rintro rfl
              cases allowed
          · exact .nothing service
      | _ =>
          simp only [move, Server.move]
          split <;> exact .of_roster rfl rfl rfl rfl
  | abort position =>
      exact .abort service position
  | offer number frame =>
      simp only [move]
      split
      · have sameRoster :=
          Registry.roster_offer service.server.registry number frame
        exact .quiet (Registry.size_of_roster sameRoster)
          (List.length_map _) rfl rfl
      · exact .nothing service
  | discard broadcast number =>
      simp only [move]
      split
      · next removes =>
          exact .begins _ (Registry.somebody_disconnect removes.1) rfl
      · exact .nothing service
  | count caller =>
      exact .counts caller rfl rfl rfl
  | tell caller =>
      exact .tell service caller
  | greet position =>
      simp only [move]
      split
      · exact .of_roster rfl rfl rfl (service.measures_greetingEvents position)
      · exact .nothing service
  | cancel token =>
      exact .quiet rfl rfl rfl rfl

/-! ## Runs -/

/-- Nobody has ever come, and the gauge was never set. -/
def Untouched (service : Service) : Prop :=
  service.server.registry.clients = [] →
    service.calls = [] ∧ service.lastLevel = none

theorem Untouched.move
    (untouched : service.Untouched)
    (next : ServiceMove) :
    (service.move next).Untouched := by
  intro nobody
  cases service.gauges_move next with
  | quiet sameSize sameCount sameLevel sameCalls =>
      rw [nobody] at sameCount
      rw [sameLevel, sameCalls]
      exact untouched (List.length_eq_zero_iff.mp sameCount.symm)
  | begins caller somebody begun =>
      contradiction
  | counts caller sameServer sameLevel counted =>
      rw [sameServer] at nobody
      obtain ⟨noCall, noLevel⟩ := untouched nobody
      rw [counted, sameLevel, noCall]
      exact ⟨rfl, noLevel⟩
  | tells call count member isCount sameServer told fewer =>
      rw [sameServer] at nobody
      rw [(untouched nobody).1] at member
      cases member

theorem untouched_moves
    (name : String)
    (parent : Token)
    (tokens : Tokens)
    (list : List ServiceMove) :
    ((begin name parent tokens).moves list).Untouched := by
  induction list using List.reverseRecOn with
  | nil =>
      exact fun _ => ⟨rfl, rfl⟩
  | append_singleton list next inductionHypothesis =>
      rw [moves_append]
      exact inductionHypothesis.move next

/-- The gauge says how many clients are registered, or a call is under way that
will set it to that. -/
structure Even (service : Service) : Prop where
  idle :
    service.calls = [] → service.lastLevel = some (countLevel service.size)
  busy :
    ∀ call ∈ service.calls, ∀ count,
      call.count = some count → count = service.size

namespace Even

/-- A call that has just begun has counted nobody. -/
theorem of_begins
    {after : Service}
    {caller : Caller}
    (begun : after.calls = [⟨caller, none⟩]) :
    after.Even where
  idle := by
    intro ended
    rw [begun] at ended
    cases ended
  busy := by
    intro call member count isCount
    rw [begun] at member
    rw [List.mem_singleton.mp member] at isCount
    cases isCount

/-- The first call that begins is alone. -/
theorem of_first
    (idle : service.calls = [])
    (next : ServiceMove)
    (called : (service.move next).calls ≠ []) :
    (service.move next).Even := by
  cases service.gauges_move next with
  | quiet sameSize sameCount sameLevel sameCalls =>
      exact absurd (sameCalls.trans idle) called
  | begins caller somebody begun =>
      rw [idle, List.nil_append] at begun
      exact .of_begins begun
  | counts caller sameServer sameLevel counted =>
      rw [counted, idle, List.map_nil] at called
      contradiction
  | tells call count member isCount sameServer told fewer =>
      rw [idle] at member
      cases member

/-- As long as no call begins while another is under way, the gauge is even. -/
theorem move
    (even : service.Even)
    (next : ServiceMove)
    (one : (service.move next).calls.length ≤ 1) :
    (service.move next).Even := by
  cases service.gauges_move next with
  | quiet sameSize sameCount sameLevel sameCalls =>
      exact {
        idle := by
          rw [sameCalls, sameLevel, sameSize]
          exact even.idle
        busy := by
          rw [sameCalls, sameSize]
          exact even.busy
      }
  | begins caller somebody begun =>
      rw [begun, List.length_append, List.length_singleton] at one
      have noCall : service.calls = [] :=
        List.length_eq_zero_iff.mp (by omega)
      rw [noCall, List.nil_append] at begun
      exact .of_begins begun
  | counts caller sameServer sameLevel counted =>
      have sameSize : (service.move next).size = service.size := by
        rw [size, sameServer, size]
      refine { idle := ?_, busy := ?_ }
      · intro ended
        rw [counted, List.map_eq_nil_iff] at ended
        rw [sameLevel, sameSize]
        exact even.idle ended
      · intro call member count isCount
        rw [counted] at member
        obtain ⟨before, wasThere, rfl⟩ := List.mem_map.mp member
        rw [sameSize]
        exact before.count_counted (even.busy before wasThere) isCount
  | tells call count member isCount sameServer told fewer =>
      have sameSize : (service.move next).size = service.size := by
        rw [size, sameServer, size]
      refine { idle := ?_, busy := ?_ }
      · intro _
        rw [told, even.busy call member count isCount, sameSize]
      · intro other isOther count isCount
        rw [sameSize]
        exact even.busy other (fewer isOther) count isCount

end Even

/-- No call begins while another is under way. -/
def TakesTurns (service : Service) (list : List ServiceMove) : Prop :=
  ∀ earlier, earlier <+: list → (service.moves earlier).calls.length ≤ 1

/-- A call is under way at some time. -/
def SeesCalls (service : Service) (list : List ServiceMove) : Prop :=
  ∃ earlier, earlier <+: list ∧ (service.moves earlier).calls ≠ []

/-- If calls take turns, the gauge is even from the first of them on. -/
theorem even_moves
    (idle : service.calls = [])
    {list : List ServiceMove}
    (turns : service.TakesTurns list) :
    (¬ service.SeesCalls list) ∨ (service.moves list).Even := by
  induction list using List.reverseRecOn with
  | nil =>
      refine .inl ?_
      rintro ⟨earlier, isEarlier, called⟩
      rw [List.prefix_nil.mp isEarlier] at called
      exact called idle
  | append_singleton list next inductionHypothesis =>
      have earlierTurns : service.TakesTurns list :=
        fun earlier isEarlier =>
          turns earlier (isEarlier.trans (List.prefix_append list [next]))
      have one := turns _ (List.prefix_refl _)
      have last :
          service.moves (list ++ [next]) = (service.moves list).move next :=
        service.moves_append list [next]
      rw [last] at one ⊢
      rcases inductionHypothesis earlierTurns with noneYet | even
      · have noCall : (service.moves list).calls = [] := by
          by_contra called
          exact noneYet ⟨list, List.prefix_refl list, called⟩
        by_cases stillNone : ((service.moves list).move next).calls = []
        · refine .inl ?_
          rintro ⟨earlier, isEarlier, called⟩
          rcases List.prefix_concat_iff.mp isEarlier with rfl | before
          · rw [last] at called
            contradiction
          · exact noneYet ⟨earlier, before, called⟩
        · exact .inr (.of_first noCall next stillNone)
      · exact .inr (even.move next one)

theorem even_moves_of_sees
    (idle : service.calls = [])
    {list : List ServiceMove}
    (turns : service.TakesTurns list)
    (sees : service.SeesCalls list) :
    (service.moves list).Even := by
  rcases even_moves idle turns with none | even
  · contradiction
  · exact even

/-- Where there has been a client, there has been a call. -/
theorem seesCalls_of_somebody
    (name : String)
    (parent : Token)
    (tokens : Tokens)
    {list : List ServiceMove}
    (somebody :
      ((begin name parent tokens).moves list).server.registry.clients ≠ []) :
    (begin name parent tokens).SeesCalls list := by
  induction list using List.reverseRecOn with
  | nil =>
      exact absurd rfl somebody
  | append_singleton list next inductionHypothesis =>
      let before := (begin name parent tokens).moves list
      have last :
          (begin name parent tokens).moves (list ++ [next]) =
            before.move next :=
        (begin name parent tokens).moves_append list [next]
      by_cases nobody : before.server.registry.clients = []
      · rw [last] at somebody
        refine ⟨_, List.prefix_refl _, ?_⟩
        rw [last]
        cases before.gauges_move next with
        | quiet sameSize sameCount sameLevel sameCalls =>
            rw [nobody] at sameCount
            exact absurd (List.length_eq_zero_iff.mp sameCount) somebody
        | begins caller isSomebody begun =>
            rw [begun]
            exact List.append_ne_nil_of_right_ne_nil _ (List.cons_ne_nil _ _)
        | counts caller sameServer sameLevel counted =>
            rw [sameServer] at somebody
            contradiction
        | tells call count member isCount sameServer told fewer =>
            rw [sameServer] at somebody
            contradiction
      · obtain ⟨earlier, isEarlier, called⟩ := inductionHypothesis nobody
        exact ⟨earlier, isEarlier.trans (List.prefix_append list [next]),
          called⟩

end Service

end PositionFeed
