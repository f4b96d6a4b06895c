import PositionFeed.Bus.Intake
import PositionFeed.Channel.Basic
import PositionFeed.Proofs.Bus.Record
import PositionFeed.Proofs.Channel.Hub
import PositionFeed.Proofs.Run

namespace PositionFeed

/-!
# From one cache to another over the bus

A relay is a publisher, the network and a subscriber.  The publisher is a cache
with one bus channel, the subscriber an intake in front of a hub.  The network
loses, repeats and reorders datagrams as it likes, but leaves their bytes as
they are.

The two ends share nothing but the format.  Every datagram in flight is the
record of a sample that the publisher handed over, and the record of any sample
is accepted, so no datagram is rejected.  What a datagram says about the number
of its sample is ignored: the subscriber counts for itself, and its hub moves as
if the positions had come from nowhere else.
-/

/-- A publisher, the network and a subscriber. -/
structure Relay where
  /-- The cache of the publisher. -/
  source : Cache
  /-- The bus channel of the publisher. -/
  channel : Channel
  /-- The datagrams in the network, the next to be delivered first. -/
  inFlight : List (List UInt8)
  /-- What takes datagrams at the subscriber. -/
  intake : Intake
  /-- The cache of the subscriber and the distributors around it. -/
  hub : Hub

/-- What happens to a relay. -/
inductive RelayMove where
  /-- A position enters the cache of the publisher. -/
  | update (position : Position)
  /-- The channel of the publisher ticks. -/
  | publish (network : Network) (now : Int64)
  /-- The network keeps the datagrams at these places, in this order.  What is
  not named is lost, and what is named twice is repeated. -/
  | shuffle (places : List Nat)
  /-- The next datagram reaches the subscriber. -/
  | deliver
  /-- The distributor at a place of the subscriber ticks. -/
  | distribute (place : Nat) (audience : Bool) (now : Int64)
      (answer : Sample → Except Fault Unit)

/-- The position that a move brings into the cache of the publisher. -/
def RelayMove.position? : RelayMove → Option Position
  | .update position => some position
  | _ => none

/-- What the channel of a bus outlet is answered for a sample. -/
def BusOutlet.answer
    (outlet : BusOutlet)
    (network : Network)
    (sample : Sample) :
    Except Fault Unit :=
  (outlet.send network sample).1.map fun _ => ()

/-- What gets out is the record of the sample. -/
theorem BusOutlet.eq_recordBytes_of_send
    {outlet : BusOutlet}
    {network : Network}
    {sample : Sample}
    {bytes : List UInt8}
    (sent : (outlet.send network sample).1 = .ok bytes) :
    bytes = (Record.ofSample sample).encode outlet.target.format := by
  unfold send payload at sent
  by_cases large :
      outlet.target.largestRecord < (outlet.recordBytes sample).length
  · simp [large] at sent
  · simp only [large, ↓reduceIte] at sent
    cases isOpen : outlet.isOpen with
    | false =>
        simp [isOpen] at sent
    | true =>
        cases answer : network.send outlet.target.address with
        | some reason =>
            simp [isOpen, answer] at sent
        | none =>
            simp only [isOpen, answer] at sent
            exact (Except.ok.inj sent).symm

/-- A tick of a bus channel is a tick of its distributor, and leaves the outlet
as it is. -/
theorem Channel.tick_of_bus
    {channel : Channel}
    {outlet : BusOutlet}
    (isBus : channel.outlet = .bus outlet)
    (network : Network)
    (now : Int64)
    (cache : Cache) :
    let ticked :=
      channel.distributor.tick cache.latest true now (outlet.answer network)
    (channel.tick network now cache).1 = ⟨ticked.1, .bus outlet⟩ ∧
      (channel.tick network now cache).2.1 = ticked.2.1 := by
  have audience : channel.outlet.hasAudience = true := by
    rw [isBus]
    rfl
  simp only [tick, decide, Distributor.tick, audience]
  cases channel.distributor.decide cache.latest true with
  | rest outcome =>
      simp [carryOut, isBus]
  | handOff sample =>
      simp [carryOut, isBus, Outlet.send, BusOutlet.answer]

namespace Relay

/-- A relay before its first move: the channel of the publisher with its name,
policy and target, and distributors of the subscriber with these names and
policies.  The subscriber expects the format of the target. -/
def begin
    (name : String)
    (policy : ForwardPolicy)
    (target : BusTarget)
    (plans : List (String × ForwardPolicy)) : Relay where
  source := .empty
  channel :=
    { distributor := .begin name policy
      outlet := .bus ⟨name, target, true⟩ }
  inFlight := []
  intake := .begin target.format
  hub := .begin plans

/-- The bytes that a tick of the publisher puts into the network. -/
def sends
    (relay : Relay)
    (network : Network) :
    Option (List UInt8) :=
  match relay.channel.decide relay.source, relay.channel.outlet with
  | .handOff sample, .bus outlet => (outlet.send network sample).1.toOption
  | _, _ => none

/-- What a move makes of a relay. -/
def move (relay : Relay) : RelayMove → Relay
  | .update position => { relay with source := relay.source.update position }
  | .publish network now =>
      { relay with
        channel := (relay.channel.tick network now relay.source).1
        inFlight := relay.inFlight ++ (relay.sends network).toList }
  | .shuffle places =>
      { relay with
        inFlight := places.filterMap fun place => relay.inFlight[place]? }
  | .deliver =>
      match relay.inFlight with
      | [] => relay
      | datagram :: rest =>
          let handled := relay.intake.handle relay.hub.cache datagram
          { relay with
            inFlight := rest
            intake := handled.1
            hub := { relay.hub with cache := handled.2.1 } }
  | .distribute place audience now answer =>
      { relay with hub := relay.hub.move (.tick place audience now answer) }

/-- Makes moves one after the other. -/
def moves (relay : Relay) (list : List RelayMove) : Relay :=
  list.foldl move relay

/-- The positions that moves bring into the cache of the publisher. -/
def updates (list : List RelayMove) : List Position :=
  list.filterMap RelayMove.position?

/-- The sample that the publisher hands over in a move: the newest one, if the
tick answers that it forwarded it. -/
def hands (relay : Relay) : RelayMove → Option Sample
  | .publish network now =>
      match (relay.channel.tick network now relay.source).2.1 with
      | .ok (.forwarded _) => relay.source.latest
      | _ => none
  | _ => none

/-- The sample that the subscriber makes of a datagram in a move. -/
def arrives (relay : Relay) : RelayMove → Option Sample
  | .deliver =>
      match relay.inFlight with
      | [] => none
      | datagram :: _ =>
          (relay.intake.handle relay.hub.cache datagram).2.2.1.toOption
  | _ => none

/-- The sample that the distributor at a place of the subscriber hands over in
a move. -/
def distributes (relay : Relay) (place : Nat) : RelayMove → Option Sample
  | .distribute ticking audience now answer =>
      relay.hub.accepts place (.tick ticking audience now answer)
  | _ => none

/-- The samples that moves yield, where each of them yields at most one. -/
def yielded
    (yields : Relay → RelayMove → Option Sample)
    (relay : Relay)
    (list : List RelayMove) :
    List Sample :=
  Run.yielded move (fun relay next => (yields relay next).toList) relay list

@[simp] theorem moves_concat
    (relay : Relay)
    (list : List RelayMove)
    (next : RelayMove) :
    relay.moves (list ++ [next]) = (relay.moves list).move next := by
  simp [moves]

@[simp] theorem updates_concat
    (list : List RelayMove)
    (next : RelayMove) :
    updates (list ++ [next]) = updates list ++ next.position?.toList :=
  Run.filterMap_concat _ list next

@[simp] theorem yielded_concat
    (yields : Relay → RelayMove → Option Sample)
    (relay : Relay)
    (list : List RelayMove)
    (next : RelayMove) :
    yielded yields relay (list ++ [next]) =
      yielded yields relay list ++
        (yields (relay.moves list) next).toList :=
  Run.yielded_concat _ _ relay list next

/-! ## The publisher -/

/-- The publisher hands over what its outlet takes. -/
theorem hands_publish
    {relay : Relay}
    {outlet : BusOutlet}
    (isBus : relay.channel.outlet = .bus outlet)
    (network : Network)
    (now : Int64) :
    relay.hands (.publish network now) =
      relay.channel.distributor.accepts relay.source.latest true
        (outlet.answer network) := by
  have ticked := (Channel.tick_of_bus isBus network now relay.source).2
  have forwarded (sequence : Nat) :
      (relay.channel.distributor.tick relay.source.latest true now
          (outlet.answer network)).2.1 = .ok (.forwarded sequence) ↔
        ∃ sample,
          relay.channel.distributor.accepts relay.source.latest true
              (outlet.answer network) = some sample ∧
            sample.sequence = sequence :=
    Distributor.tick_eq_forwarded_iff
  simp only [hands, ticked]
  cases taken : relay.channel.distributor.accepts relay.source.latest true
      (outlet.answer network) with
  | none =>
      split
      · next sequence isForwarded =>
          obtain ⟨sample, accepted, _⟩ := (forwarded sequence).mp isForwarded
          rw [taken] at accepted
          cases accepted
      · rfl
  | some sample =>
      have decision := (Distributor.accepts_eq_some_iff.mp taken).1
      obtain ⟨held, _⟩ := Distributor.decide_eq_handOff_iff.mp decision
      rw [(forwarded sample.sequence).mpr ⟨sample, taken, rfl⟩]
      exact held

/-- The publisher sends the record of the sample that it hands over. -/
theorem sends_eq
    {relay : Relay}
    {outlet : BusOutlet}
    (isBus : relay.channel.outlet = .bus outlet)
    (network : Network) :
    relay.sends network =
      (relay.channel.distributor.accepts relay.source.latest true
        (outlet.answer network)).map fun sample =>
          (Record.ofSample sample).encode outlet.target.format := by
  have audience : (Outlet.bus outlet).hasAudience = true := rfl
  simp only [sends, Channel.decide, isBus, audience, Distributor.accepts]
  cases relay.channel.distributor.decide relay.source.latest true with
  | rest outcome =>
      rfl
  | handOff sample =>
      simp only [BusOutlet.answer]
      cases sent : (outlet.send network sample).1 with
      | error fault =>
          rfl
      | ok bytes =>
          rw [BusOutlet.eq_recordBytes_of_send sent]
          rfl

/-- A publisher after these positions entered its cache and these samples were
handed over. -/
structure Publishes
    (relay : Relay)
    (outlet : BusOutlet)
    (positions : List Position)
    (handedOver : List Sample) : Prop where
  sourceIs :
    relay.source = .ofUpdates positions
  outletIs :
    relay.channel.outlet = .bus outlet
  ledger :
    Ledger positions relay.channel.distributor.cursor handedOver
  inFlight :
    ∀ datagram ∈ relay.inFlight, ∃ sample ∈ handedOver,
      datagram = (Record.ofSample sample).encode outlet.target.format

namespace Publishes

variable
  {relay : Relay}
  {outlet : BusOutlet}
  {positions : List Position}
  {handedOver : List Sample}

theorem begin
    (name : String)
    (policy : ForwardPolicy)
    (target : BusTarget)
    (plans : List (String × ForwardPolicy)) :
    (Relay.begin name policy target plans).Publishes ⟨name, target, true⟩ []
      [] where
  sourceIs := rfl
  outletIs := rfl
  ledger := .begin
  inFlight := by simp [Relay.begin]

theorem update
    (publishes : relay.Publishes outlet positions handedOver)
    (position : Position) :
    (relay.move (.update position)).Publishes outlet (positions ++ [position])
      handedOver where
  sourceIs := by
    simp [move, publishes.sourceIs]
  outletIs := publishes.outletIs
  ledger := publishes.ledger.update [position]
  inFlight := publishes.inFlight

/-- A tick of the publisher sends the record of what it hands over. -/
theorem publish
    (publishes : relay.Publishes outlet positions handedOver)
    (network : Network)
    (now : Int64) :
    (relay.move (.publish network now)).Publishes outlet positions
      (handedOver ++ (relay.hands (.publish network now)).toList) := by
  have isBus := publishes.outletIs
  have ticked :=
    (Channel.tick_of_bus isBus network now relay.source).1
  have ledger := publishes.ledger.tick true now (outlet.answer network)
  simp only [← publishes.sourceIs, ← hands_publish isBus network now] at ledger
  refine {
    sourceIs := publishes.sourceIs
    outletIs := ?_
    ledger := ?_
    inFlight := ?_
  }
  · simp [move, ticked]
  · simpa only [move, ticked] using ledger
  · intro datagram member
    simp only [move, sends_eq isBus, ← hands_publish isBus network now,
      List.mem_append, Option.mem_toList, Option.map_eq_some_iff] at member
    rcases member with before | ⟨sample, taken, rfl⟩
    · obtain ⟨sample, handed, isRecord⟩ := publishes.inFlight datagram before
      exact ⟨sample, List.mem_append_left _ handed, isRecord⟩
    · exact ⟨sample, List.mem_append_right _ (by simp [taken]), rfl⟩

/-- What happens to datagrams in the network or at the subscriber does not
concern the publisher. -/
theorem of_subset
    (publishes : relay.Publishes outlet positions handedOver)
    {after : Relay}
    (source : after.source = relay.source)
    (channel : after.channel = relay.channel)
    (among : after.inFlight ⊆ relay.inFlight) :
    after.Publishes outlet positions handedOver where
  sourceIs := source.trans publishes.sourceIs
  outletIs := channel ▸ publishes.outletIs
  ledger := channel ▸ publishes.ledger
  inFlight datagram member := publishes.inFlight datagram (among member)

/-- A publisher goes on as it should over one more move. -/
theorem move
    (publishes : relay.Publishes outlet positions handedOver)
    (next : RelayMove) :
    (relay.move next).Publishes outlet (positions ++ next.position?.toList)
      (handedOver ++ (relay.hands next).toList) := by
  cases next with
  | update position =>
      simpa [RelayMove.position?, hands] using publishes.update position
  | publish network now =>
      simpa [RelayMove.position?] using publishes.publish network now
  | shuffle places =>
      have after : (relay.move (.shuffle places)).Publishes outlet positions
          handedOver := by
        refine publishes.of_subset rfl rfl ?_
        intro datagram member
        obtain ⟨place, _, found⟩ := List.mem_filterMap.mp member
        exact List.mem_of_getElem? found
      simpa [RelayMove.position?, hands] using after
  | deliver =>
      have after : (relay.move .deliver).Publishes outlet positions
          handedOver := by
        cases waiting : relay.inFlight with
        | nil =>
            simpa [Relay.move, waiting] using publishes
        | cons datagram rest =>
            refine publishes.of_subset ?_ ?_ ?_
            · simp [Relay.move, waiting]
            · simp [Relay.move, waiting]
            · simp [Relay.move, waiting]
      simpa [RelayMove.position?, hands] using after
  | distribute place audience now answer =>
      have after :
          (relay.move (.distribute place audience now answer)).Publishes outlet
            positions handedOver :=
        publishes.of_subset rfl rfl (List.Subset.refl _)
      simpa [RelayMove.position?, hands] using after

end Publishes

/-- The publisher goes on as it should in every run. -/
theorem publishes_moves
    (name : String)
    (policy : ForwardPolicy)
    (target : BusTarget)
    (plans : List (String × ForwardPolicy))
    (list : List RelayMove) :
    let start := begin name policy target plans
    (start.moves list).Publishes ⟨name, target, true⟩ (updates list)
      (yielded hands start list) := by
  intro start
  induction list using List.reverseRecOn with
  | nil =>
      exact .begin name policy target plans
  | append_singleton list next inductionHypothesis =>
      rw [moves_concat, updates_concat, yielded_concat]
      exact inductionHypothesis.move next

/-! ## The subscriber -/

/-- A datagram that holds a position becomes the next sample of the
subscriber, and its hub moves as after any update. -/
theorem move_deliver
    {relay : Relay}
    {datagram : List UInt8}
    {rest : List (List UInt8)}
    {position : Position}
    (waiting : relay.inFlight = datagram :: rest)
    (holds :
      Record.decodePosition relay.intake.format datagram = .ok position) :
    relay.arrives .deliver = some (relay.hub.cache.nextSample position) ∧
      relay.move .deliver =
        { relay with
          inFlight := rest
          intake := relay.intake.count true
          hub := relay.hub.move (.update position) } := by
  constructor
  · simp only [arrives, waiting, Intake.handle, holds]
    rfl
  · simp only [move, waiting, Intake.handle, holds]
    rfl

/-- A subscriber that made these samples of datagrams, whose distributors handed
over these samples, and whose hub made these moves. -/
structure Subscribes
    (relay : Relay)
    (plans : List (String × ForwardPolicy))
    (format : WireFormat)
    (arrived : List Sample)
    (distributed : Nat → List Sample)
    (hubMoves : List HubMove) : Prop where
  formatIs :
    relay.intake.format = format
  countsAre :
    relay.intake.counts = ⟨arrived.length, arrived.length, 0⟩
  latestIs :
    relay.hub.cache.latest = arrived.getLast?
  numbered :
    arrived.map Sample.sequence = List.range' 1 arrived.length
  hubIs :
    relay.hub = (Hub.begin plans).moves hubMoves
  updatesAre :
    Hub.updates hubMoves = arrived.map Sample.position
  distributes :
    ∀ place, (Hub.begin plans).accepted place hubMoves = distributed place

namespace Subscribes

variable
  {relay : Relay}
  {plans : List (String × ForwardPolicy)}
  {format : WireFormat}
  {arrived : List Sample}
  {distributed : Nat → List Sample}
  {hubMoves : List HubMove}

theorem begin
    (name : String)
    (policy : ForwardPolicy)
    (target : BusTarget)
    (plans : List (String × ForwardPolicy)) :
    (Relay.begin name policy target plans).Subscribes plans target.format []
      (fun _ => []) [] where
  formatIs := rfl
  countsAre := rfl
  latestIs := rfl
  numbered := rfl
  hubIs := rfl
  updatesAre := rfl
  distributes _ := rfl

/-- The numbers of the cache count the samples that were made. -/
theorem latestSequence_eq
    (subscribes :
      relay.Subscribes plans format arrived distributed hubMoves) :
    relay.hub.cache.latestSequence = arrived.length := by
  rw [subscribes.hubIs, Hub.cache_moves, subscribes.updatesAre,
    Cache.latestSequence_ofUpdates, List.length_map]

/-- What happens to the publisher or in the network does not concern the
subscriber. -/
theorem of_eq
    (subscribes :
      relay.Subscribes plans format arrived distributed hubMoves)
    {after : Relay}
    (intake : after.intake = relay.intake)
    (hub : after.hub = relay.hub) :
    after.Subscribes plans format arrived distributed hubMoves where
  formatIs := intake ▸ subscribes.formatIs
  countsAre := intake ▸ subscribes.countsAre
  latestIs := hub ▸ subscribes.latestIs
  numbered := subscribes.numbered
  hubIs := hub ▸ subscribes.hubIs
  updatesAre := subscribes.updatesAre
  distributes := subscribes.distributes

/-- A datagram that holds a position is made the next sample. -/
theorem deliver
    (subscribes :
      relay.Subscribes plans format arrived distributed hubMoves)
    {datagram : List UInt8}
    {rest : List (List UInt8)}
    {position : Position}
    (waiting : relay.inFlight = datagram :: rest)
    (holds : Record.decodePosition format datagram = .ok position) :
    (relay.move .deliver).Subscribes plans format
      (arrived ++ [⟨position, arrived.length + 1⟩]) distributed
      (hubMoves ++ [.update position]) := by
  have holdsHere :
      Record.decodePosition relay.intake.format datagram = .ok position := by
    rw [subscribes.formatIs]
    exact holds
  rw [(move_deliver waiting holdsHere).2]
  refine {
    formatIs := subscribes.formatIs
    countsAre := ?_
    latestIs := ?_
    numbered := ?_
    hubIs := ?_
    updatesAre := ?_
    distributes := ?_
  }
  · simp [Intake.count, subscribes.countsAre]
  · simp [Hub.move, Cache.nextSample, subscribes.latestSequence_eq]
  · rw [List.map_append, subscribes.numbered, List.length_append,
      List.length_singleton, List.range'_1_concat, Nat.add_comm 1]
    rfl
  · rw [Hub.moves_concat, ← subscribes.hubIs]
  · simp [subscribes.updatesAre, HubMove.position?]
  · intro place
    rw [Hub.accepted_concat, subscribes.distributes]
    simp [Hub.accepts]

/-- A tick of a distributor changes nothing but the distributor. -/
theorem distribute
    (subscribes :
      relay.Subscribes plans format arrived distributed hubMoves)
    (ticking : Nat)
    (audience : Bool)
    (now : Int64)
    (answer : Sample → Except Fault Unit) :
    (relay.move (.distribute ticking audience now answer)).Subscribes plans
      format arrived
      (fun place =>
        distributed place ++
          (relay.distributes place
            (.distribute ticking audience now answer)).toList)
      (hubMoves ++ [.tick ticking audience now answer]) where
  formatIs := subscribes.formatIs
  countsAre := subscribes.countsAre
  latestIs := by
    have cache :
        (relay.hub.move (.tick ticking audience now answer)).cache =
          relay.hub.cache := by
      rw [subscribes.hubIs, ← Hub.moves_concat, Hub.cache_moves,
        Hub.cache_moves]
      simp [HubMove.position?]
    simpa only [move, cache] using subscribes.latestIs
  numbered := subscribes.numbered
  hubIs := by
    rw [Hub.moves_concat, ← subscribes.hubIs]
    rfl
  updatesAre := by
    simp [subscribes.updatesAre, HubMove.position?]
  distributes place := by
    rw [Hub.accepted_concat, subscribes.distributes, ← subscribes.hubIs]
    rfl

/-- What a subscriber hands over is a sample that it made. -/
theorem mem_arrived
    (subscribes :
      relay.Subscribes plans format arrived distributed hubMoves)
    {sample : Sample}
    (recorded : sample.RecordedIn (arrived.map Sample.position)) :
    sample ∈ arrived := by
  obtain ⟨positive, found⟩ := recorded
  rw [List.getElem?_map, Option.map_eq_some_iff] at found
  obtain ⟨made, isMade, samePosition⟩ := found
  obtain ⟨inBounds, _⟩ := List.getElem?_eq_some_iff.mp isMade
  have number :
      (arrived.map Sample.sequence)[sample.sequence - 1]? =
        some sample.sequence := by
    rw [subscribes.numbered, List.getElem?_range' inBounds]
    congr 1
    omega
  rw [List.getElem?_map, isMade] at number
  have sameSequence : made.sequence = sample.sequence := by
    simpa using number
  have same : made = sample := by
    cases made
    cases sample
    cases samePosition
    cases sameSequence
    rfl
  rw [← same]
  exact List.mem_of_getElem? isMade

end Subscribes

/-! ## Both ends -/

/-- Every datagram in flight holds a position that a sample handed over
became. -/
theorem Publishes.holds
    {relay : Relay}
    {outlet : BusOutlet}
    {positions : List Position}
    {handedOver : List Sample}
    (publishes : relay.Publishes outlet positions handedOver)
    {datagram : List UInt8}
    (member : datagram ∈ relay.inFlight) :
    ∃ origin ∈ handedOver,
      Record.decodePosition outlet.target.format datagram =
        .ok origin.position.reread := by
  obtain ⟨origin, handed, rfl⟩ := publishes.inFlight datagram member
  exact ⟨origin, handed,
    Record.decodePosition_ofSample outlet.target.format origin⟩

/-- The subscriber goes on as it should over one more move, and makes samples
only of what was handed over. -/
theorem Subscribes.move
    {relay : Relay}
    {outlet : BusOutlet}
    {plans : List (String × ForwardPolicy)}
    {positions : List Position}
    {handedOver arrived : List Sample}
    {distributed : Nat → List Sample}
    {hubMoves : List HubMove}
    (publishes : relay.Publishes outlet positions handedOver)
    (subscribes :
      relay.Subscribes plans outlet.target.format arrived distributed hubMoves)
    (next : RelayMove) :
    (∃ hubMovesAfter,
      (relay.move next).Subscribes plans outlet.target.format
        (arrived ++ (relay.arrives next).toList)
        (fun place => distributed place ++ (relay.distributes place next).toList)
        hubMovesAfter) ∧
      ∀ sample ∈ relay.arrives next, ∃ origin ∈ handedOver,
        origin.position.CarriedFrom sample.position := by
  cases next with
  | update position =>
      have after :
          (relay.move (.update position)).Subscribes plans
            outlet.target.format arrived distributed hubMoves :=
        subscribes.of_eq rfl rfl
      refine ⟨⟨hubMoves, ?_⟩, by simp [arrives]⟩
      simpa [arrives, Relay.distributes] using after
  | publish network now =>
      have after :
          (relay.move (.publish network now)).Subscribes plans
            outlet.target.format arrived distributed hubMoves :=
        subscribes.of_eq rfl rfl
      refine ⟨⟨hubMoves, ?_⟩, by simp [arrives]⟩
      simpa [arrives, Relay.distributes] using after
  | shuffle places =>
      have after :
          (relay.move (.shuffle places)).Subscribes plans
            outlet.target.format arrived distributed hubMoves :=
        subscribes.of_eq rfl rfl
      refine ⟨⟨hubMoves, ?_⟩, by simp [arrives]⟩
      simpa [arrives, Relay.distributes] using after
  | deliver =>
      cases waiting : relay.inFlight with
      | nil =>
          refine ⟨⟨hubMoves, ?_⟩, by simp [arrives, waiting]⟩
          simpa [Relay.move, arrives, Relay.distributes, waiting] using subscribes
      | cons datagram rest =>
          have member : datagram ∈ relay.inFlight := by
            simp [waiting]
          obtain ⟨origin, handed, holds⟩ := publishes.holds member
          have holdsHere := holds
          rw [← subscribes.formatIs] at holdsHere
          have made :
              relay.arrives .deliver =
                some ⟨origin.position.reread, arrived.length + 1⟩ := by
            rw [(move_deliver waiting holdsHere).1, Cache.nextSample,
              subscribes.latestSequence_eq]
          rw [made]
          refine ⟨⟨hubMoves ++ [.update origin.position.reread], ?_⟩, ?_⟩
          · simpa [Relay.distributes] using subscribes.deliver waiting holds
          · rintro sample ⟨⟩
            exact ⟨origin, handed, origin.position.carriedFrom_reread⟩
  | distribute place audience now answer =>
      refine ⟨⟨hubMoves ++ [.tick place audience now answer], ?_⟩,
        by simp [arrives]⟩
      simpa [arrives] using
        subscribes.distribute place audience now answer

/-- The subscriber goes on as it should in every run. -/
theorem exists_subscribes
    (name : String)
    (policy : ForwardPolicy)
    (target : BusTarget)
    (plans : List (String × ForwardPolicy))
    (list : List RelayMove) :
    let start := begin name policy target plans
    (∃ hubMoves,
      (start.moves list).Subscribes plans target.format
        (yielded arrives start list)
        (fun place => yielded (distributes · place) start list) hubMoves) ∧
      ∀ sample ∈ yielded arrives start list,
        ∃ origin ∈ yielded hands start list,
          origin.position.CarriedFrom sample.position := by
  intro start
  induction list using List.reverseRecOn with
  | nil =>
      exact ⟨⟨[], .begin name policy target plans⟩, by simp [yielded, Run.yielded]⟩
  | append_singleton list next inductionHypothesis =>
      obtain ⟨⟨hubMoves, subscribes⟩, carried⟩ := inductionHypothesis
      have publishes := publishes_moves name policy target plans list
      obtain ⟨moved, arrival⟩ := Subscribes.move publishes subscribes next
      simp only [moves_concat, yielded_concat]
      refine ⟨moved, ?_⟩
      intro sample member
      rcases List.mem_append.mp member with before | isNew
      · obtain ⟨origin, handed, carries⟩ := carried sample before
        exact ⟨origin, List.mem_append_left _ handed, carries⟩
      · obtain ⟨origin, handed, carries⟩ :=
          arrival sample (Option.mem_toList.mp isNew)
        exact ⟨origin, List.mem_append_left _ handed, carries⟩

/-- What is promised of a relay after any run. -/
structure Carries
    (start : Relay)
    (list : List RelayMove) : Prop where
  /-- The publisher hands over samples with ascending numbers. -/
  handsAscending :
    ((yielded hands start list).map Sample.sequence).Pairwise (· < ·)
  /-- What the publisher hands over is a sample that its cache held. -/
  handsRecorded :
    ∀ sample ∈ yielded hands start list, sample.RecordedIn (updates list)
  /-- No datagram was rejected. -/
  noneRejected :
    (start.moves list).intake.counts.rejected = 0
  /-- No datagram in flight would be rejected, whenever it comes. -/
  noneWouldBe :
    ∀ datagram ∈ (start.moves list).inFlight, ∀ cache,
      ∃ sample,
        ((start.moves list).intake.handle cache datagram).2.2.1 = .ok sample
  /-- Every sample that the subscriber made is of the moment of a sample that
  the publisher handed over, and its position is what the text of that one
  means. -/
  carried :
    ∀ sample ∈ yielded arrives start list,
      ∃ origin ∈ yielded hands start list,
        origin.position.CarriedFrom sample.position
  /-- The samples of the subscriber are numbered without a gap. -/
  numbered :
    (yielded arrives start list).map Sample.sequence =
      List.range' 1 (start.moves list).intake.counts.accepted
  /-- The cache of the subscriber holds the last of them. -/
  latestIs :
    (start.moves list).hub.cache.latest = (yielded arrives start list).getLast?
  /-- Each distributor of the subscriber hands over samples with ascending
  numbers. -/
  distributesAscending :
    ∀ place < (start.hub.distributors).length,
      ((yielded (distributes · place) start list).map
        Sample.sequence).Pairwise (· < ·)
  /-- What a distributor of the subscriber hands over is a sample that the
  subscriber made. -/
  distributesArrived :
    ∀ place < (start.hub.distributors).length,
      ∀ sample ∈ yielded (distributes · place) start list,
        sample ∈ yielded arrives start list

/-- In every run of a relay, whatever the network loses, repeats or reorders,
no datagram is rejected, and what the subscriber holds and hands on is what the
text of samples means that the publisher handed over, under numbers of its
own. -/
theorem every_run_carries
    (name : String)
    (policy : ForwardPolicy)
    (target : BusTarget)
    (plans : List (String × ForwardPolicy))
    (list : List RelayMove) :
    (begin name policy target plans).Carries list := by
  have publishes := publishes_moves name policy target plans list
  obtain ⟨⟨hubMoves, subscribes⟩, carried⟩ :=
    exists_subscribes name policy target plans list
  have ledgers
      (place : Nat)
      (inBounds :
        place < (begin name policy target plans).hub.distributors.length) :
      ∃ cursor,
        Ledger
          ((yielded arrives (begin name policy target plans) list).map
            Sample.position)
          cursor
          (yielded (distributes · place) (begin name policy target plans)
            list) := by
    have isPlace : place < plans.length := by
      simpa [begin, Hub.begin] using inBounds
    obtain ⟨distributor, tracks⟩ :=
      Hub.exists_tracks plans ⟨place, isPlace⟩ hubMoves
    refine ⟨distributor.cursor, ?_⟩
    have ledger := tracks.ledger
    rwa [subscribes.updatesAre, subscribes.distributes] at ledger
  refine {
    handsAscending := publishes.ledger.ascending
    handsRecorded := publishes.ledger.recorded
    noneRejected := ?_
    noneWouldBe := ?_
    carried := carried
    numbered := ?_
    latestIs := subscribes.latestIs
    distributesAscending := ?_
    distributesArrived := ?_
  }
  · rw [subscribes.countsAre]
  · intro datagram member cache
    obtain ⟨origin, _, holds⟩ := publishes.holds member
    rw [← subscribes.formatIs] at holds
    exact ⟨cache.nextSample origin.position.reread, by
      rw [Intake.handle, holds]⟩
  · rw [subscribes.countsAre]
    exact subscribes.numbered
  · intro place inBounds
    obtain ⟨cursor, ledger⟩ := ledgers place inBounds
    exact ledger.ascending
  · intro place inBounds sample member
    obtain ⟨cursor, ledger⟩ := ledgers place inBounds
    exact subscribes.mem_arrived (ledger.recorded sample member)

/-- A datagram that the network repeats becomes two samples. -/
example :
    ((begin "bus" .always ⟨.four 127 0 0 1 7400, .bincode, 65000⟩ []).moves
      [.update ⟨0.5, -0.25, 7⟩, .publish .willing 9,
        .shuffle [0, 0], .deliver, .deliver]).hub.cache.latest =
      some ⟨⟨0.5, -0.25, 7⟩, 2⟩ := by
  decide +kernel

end Relay

end PositionFeed
