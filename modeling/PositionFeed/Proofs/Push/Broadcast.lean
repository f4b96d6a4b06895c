import Mathlib.Data.List.Nodup
import PositionFeed.Proofs.Push.Isolation
import PositionFeed.Proofs.Telemetry.Recorded

namespace PositionFeed

/-!
# Broadcasts and the count of clients

A broadcast sorts the registered clients into three kinds: those that queue the
frame, those that are full, and those whose receiver is gone.  The last are
removed and the others are the audience.  What comes of it does not depend on
the order in which the clients are visited, because an offer to one client
changes nothing for the others.

Who is registered changes one client at a time.  The count of clients is set
after each of these changes and at no other time, so it has the history that
the membership has.
-/

namespace Client

variable
  {client : Client}

theorem offer_eq_gone_iff :
    client.offer = .gone ↔ client.receiving = false := by
  unfold offer
  split
  · simp_all
  · split <;> simp_all

theorem offer_eq_queued_iff :
    client.offer = .queued ↔
      client.receiving = true ∧ client.hasRoom = true := by
  unfold offer hasRoom
  split
  · simp_all
  · split <;> simp_all

theorem offer_eq_full_iff :
    client.offer = .full ↔
      client.receiving = true ∧ client.hasRoom = false := by
  unfold offer hasRoom
  split
  · simp_all
  · split <;> simp_all

end Client

/-- A change of who is registered. -/
inductive RosterChange where
  /-- A client came. -/
  | joined (number : Nat)
  /-- A client went. -/
  | left (number : Nat)
  deriving Repr, DecidableEq

namespace RosterChange

/-- Who is registered after a change. -/
def apply (numbers : List Nat) : RosterChange → List Nat
  | .joined number => numbers ++ [number]
  | .left number => numbers.erase number

/-- Who is registered after each of the changes. -/
def history (numbers : List Nat) : List RosterChange → List (List Nat)
  | [] => []
  | change :: rest =>
      change.apply numbers :: history (change.apply numbers) rest

@[simp] theorem history_nil
    (numbers : List Nat) :
    history numbers [] = [] := rfl

theorem history_append
    (numbers : List Nat)
    (earlier later : List RosterChange) :
    history numbers (earlier ++ later) =
      history numbers earlier ++
        history (earlier.foldl apply numbers) later := by
  induction earlier generalizing numbers with
  | nil =>
      rfl
  | cons change rest inductionHypothesis =>
      simp [history, inductionHypothesis]

/-- The history ends with those who are registered at the end. -/
theorem getLast?_history
    (numbers : List Nat)
    (changes : List RosterChange) :
    (history numbers changes).getLast? =
      if changes = [] then none else some (changes.foldl apply numbers) := by
  induction changes using List.reverseRecOn with
  | nil =>
      rfl
  | append_singleton earlier change inductionHypothesis =>
      simp [history_append, history]

/-- How many are registered while clients go does not depend on which go
first. -/
theorem lengths_history_left
    {first second : List Nat}
    (alike : first.length = second.length)
    {numbers others : List Nat}
    (distinct : first.Nodup)
    (present : first ⊆ numbers)
    (otherDistinct : second.Nodup)
    (otherPresent : second ⊆ others)
    (same : numbers.length = others.length) :
    (history numbers (first.map left)).map List.length =
      (history others (second.map left)).map List.length := by
  induction first generalizing second numbers others with
  | nil =>
      rw [List.length_eq_zero_iff.mp alike.symm]
      rfl
  | cons number rest inductionHypothesis =>
      obtain ⟨other, otherRest, rfl⟩ :=
        List.exists_cons_of_length_eq_add_one alike.symm
      obtain ⟨absent, distinct⟩ := List.nodup_cons.mp distinct
      obtain ⟨otherAbsent, otherDistinct⟩ := List.nodup_cons.mp otherDistinct
      obtain ⟨member, present⟩ := List.cons_subset.mp present
      obtain ⟨otherMember, otherPresent⟩ := List.cons_subset.mp otherPresent
      have fewer :
          (numbers.erase number).length = (others.erase other).length := by
        rw [List.length_erase_of_mem member,
          List.length_erase_of_mem otherMember, same]
      have stay {gone : Nat} {leaving all : List Nat}
          (absent : gone ∉ leaving)
          (present : leaving ⊆ all) :
          leaving ⊆ all.erase gone := by
        intro one isLeaving
        have different : one ≠ gone := by
          rintro rfl
          exact absent isLeaving
        exact (List.mem_erase_of_ne different).mpr (present isLeaving)
      have later :=
        inductionHypothesis (Nat.succ.inj alike) distinct (stay absent present)
          otherDistinct (stay otherAbsent otherPresent) fewer
      simp only [List.map_cons, history, apply, fewer, later]

end RosterChange

namespace Registry

/-- The numbers of the clients that are registered. -/
def roster (registry : Registry) : List Nat :=
  registry.members.map Client.number

/-- The clients that are registered and have a receiver. -/
def living (registry : Registry) : List Client :=
  registry.members.filter (·.receiving)

/-- What a call makes known. -/
def tells (registry : Registry) : RegistryMove → List Event
  | .connect => registry.connect.2.2
  | .disconnect number => (registry.disconnect number).2.2
  | .broadcast frame => (registry.broadcast frame).2.2
  | _ => []

/-- What calls made one after the other make known. -/
def told (registry : Registry) (list : List RegistryMove) : List Event :=
  Run.yielded move tells registry list

/-- How a call changes who is registered. -/
def changes (registry : Registry) (next : RegistryMove) : List RosterChange :=
  (registry.hands next).map .joined ++ (registry.removes next).map .left

/-- How calls made one after the other change who is registered. -/
def changed (registry : Registry) (list : List RegistryMove) :
    List RosterChange :=
  Run.yielded move changes registry list

/-- What is to be seen when so many clients are counted one after the other. -/
def countEvents (channel : String) (counts : List Nat) : List Event :=
  counts.map fun count => .measure (.clients channel count)

variable
  {registry : Registry}
  {number : Nat}

/-! ## Who is registered after a call -/

theorem length_roster
    (registry : Registry) :
    registry.roster.length = registry.size :=
  List.length_map _

theorem nodup_roster
    (numbered : registry.Numbered) :
    registry.roster.Nodup :=
  nodup_members numbered

theorem mem_roster_iff
    (numbered : registry.Numbered)
    (number : Nat) :
    number ∈ registry.roster ↔ registry.isMember number = true :=
  mem_members_iff numbered number

theorem roster_connect
    (registry : Registry) :
    registry.connect.2.1.roster = registry.roster ++ [registry.connect.1] := by
  simp [roster, members, connect, Client.fresh]

/-- A change that removes nobody keeps those who are registered. -/
theorem roster_change
    {changing : Nat}
    {update : Client → Client}
    (keeps : ∀ client, (update client).number = client.number)
    (stays : ∀ client, (update client).registered = client.registered) :
    (registry.change changing update).roster = registry.roster := by
  have registered :
      (fun client : Client => client.registered) ∘ (fun client =>
        if client.number = changing then update client else client) =
        fun client => client.registered := by
    funext client
    simp only [Function.comp_apply]
    split
    · exact stays client
    · rfl
  simp only [roster, members, change, List.filter_map, List.map_map, registered]
  refine List.map_congr_left fun client _ => ?_
  simp only [Function.comp_apply]
  split
  · exact keeps client
  · rfl

theorem roster_disconnect
    (numbered : registry.Numbered)
    (leaving : Nat) :
    (registry.disconnect leaving).2.1.roster =
      registry.roster.erase leaving := by
  unfold disconnect
  split
  · have stays :
        (fun client : Client => client.registered) ∘ (fun client =>
          if client.number = leaving then client.removed else client) =
          fun client => client.number != leaving && client.registered := by
      funext client
      by_cases same : client.number = leaving <;> simp [same, Client.removed]
    have sameNumber :
        Client.number ∘ (fun client =>
          if client.number = leaving then client.removed else client) =
          Client.number := by
      funext client
      by_cases same : client.number = leaving <;> simp [same, Client.removed]
    have distinct := nodup_roster numbered
    have left :
        (registry.change leaving Client.removed).roster =
          registry.roster.filter (· != leaving) := by
      simp only [roster, members, change, List.filter_map, List.map_map, stays,
        sameNumber, List.filter_filter]
      rfl
    rw [distinct.erase_eq_filter]
    exact left
  · next notMember =>
      rw [← mem_roster_iff numbered] at notMember
      exact (List.erase_of_not_mem notMember).symm

theorem roster_offer
    (registry : Registry)
    (offering : Nat)
    (frame : Frame) :
    (registry.offer offering frame).2.roster = registry.roster := by
  refine roster_change (number_offered frame) fun client => ?_
  rw [Client.offered_eq]
  split <;> rfl

theorem roster_offerAll
    (frame : Frame)
    (offering : List Nat)
    (registry : Registry) :
    (offerAll frame offering registry).2.2.roster = registry.roster := by
  induction offering generalizing registry with
  | nil =>
      rfl
  | cons first rest inductionHypothesis =>
      simp only [offerAll, inductionHypothesis, roster_offer]

theorem roster_receive
    (registry : Registry)
    (receiving : Nat) :
    (registry.receive receiving).2.roster = registry.roster := by
  unfold receive
  split
  · rfl
  · refine roster_change number_receive fun client => ?_
    unfold Client.receive
    split
    · rfl
    · split <;> rfl

theorem roster_dropReceiver
    (registry : Registry)
    (number : Nat) :
    (registry.move (.dropReceiver number)).roster = registry.roster := by
  refine roster_change ?_ ?_ <;> intro client <;> rfl

theorem length_clients_receive
    (registry : Registry)
    (number : Nat) :
    (registry.receive number).2.clients.length = registry.clients.length := by
  unfold receive
  split
  · rfl
  · exact List.length_map _

theorem length_clients_disconnect
    (registry : Registry)
    (leaving : Nat) :
    (registry.disconnect leaving).2.1.clients.length =
      registry.clients.length := by
  unfold disconnect
  split
  · exact List.length_map _
  · rfl

theorem isMember_offer
    (registry : Registry)
    (offering : Nat)
    (frame : Frame)
    (number : Nat) :
    (registry.offer offering frame).2.isMember number =
      registry.isMember number := by
  have registered (client : Client) :
      (if offering = number then client.offered frame else client).registered =
        client.registered := by
    rw [Client.offered_eq]
    split
    · split <;> rfl
    · rfl
  simp only [isMember, client?_offer, Option.any_map, registered]

/-! ## Removing clients one after the other -/

theorem channel_disconnectAll
    (leaving : List Nat)
    (registry : Registry) :
    (registry.disconnectAll leaving).1.channel = registry.channel := by
  induction leaving generalizing registry with
  | nil =>
      rfl
  | cons first rest inductionHypothesis =>
      simp only [disconnectAll, inductionHypothesis]
      unfold disconnect
      split <;> rfl

theorem roster_disconnectAll
    {leaving : List Nat}
    (numbered : registry.Numbered) :
    (registry.disconnectAll leaving).1.roster =
      (leaving.map RosterChange.left).foldl RosterChange.apply registry.roster := by
  induction leaving generalizing registry with
  | nil =>
      rfl
  | cons first rest inductionHypothesis =>
      simp only [disconnectAll,
        inductionHypothesis (numbered_disconnect numbered first),
        roster_disconnect numbered]
      rfl

/-- A client that is registered is counted out when it is removed. -/
theorem disconnect_events
    (numbered : registry.Numbered)
    (member : number ∈ registry.roster) :
    (registry.disconnect number).2.2 =
      countEvents registry.channel [(registry.roster.erase number).length] := by
  have isMember := (mem_roster_iff numbered number).mp member
  have left := roster_disconnect numbered number
  rw [← left, length_roster]
  simp [disconnect, isMember, sizeEvents, countEvents, change]

/-- Every client that is removed is counted out, one after the other. -/
theorem disconnectAll_events
    {leaving : List Nat}
    (numbered : registry.Numbered)
    (distinct : leaving.Nodup)
    (present : leaving ⊆ registry.roster) :
    (registry.disconnectAll leaving).2 =
      countEvents registry.channel
        ((RosterChange.history registry.roster
          (leaving.map .left)).map List.length) := by
  induction leaving generalizing registry with
  | nil =>
      rfl
  | cons first rest inductionHypothesis =>
      obtain ⟨absent, distinct⟩ := List.nodup_cons.mp distinct
      obtain ⟨member, present⟩ := List.cons_subset.mp present
      have left := roster_disconnect numbered first
      have stay : rest ⊆ (registry.disconnect first).2.1.roster := by
        intro other isLeaving
        have different : other ≠ first := by
          rintro rfl
          exact absent isLeaving
        rw [left]
        exact (List.mem_erase_of_ne different).mpr (present isLeaving)
      have sameChannel : (registry.disconnect first).2.1.channel =
          registry.channel :=
        channel_disconnectAll [first] registry
      simp only [disconnectAll, disconnect_events numbered member,
        inductionHypothesis (numbered_disconnect numbered first) distinct stay,
        left, sameChannel]
      rfl

/-! ## Offering a frame to all clients -/

/-- Whether a client would answer an offer like this. -/
def answers (registry : Registry) (answer : Offer) (number : Nat) : Bool :=
  (registry.client? number).map Client.offer == some answer

/-- An offer to a client changes the answer of no other. -/
theorem answers_offer_of_ne
    {offering : Nat}
    (frame : Frame)
    (answer : Offer)
    (different : number ≠ offering) :
    (registry.offer offering frame).2.answers answer number =
      registry.answers answer number := by
  have other : ¬ offering = number := fun same => different same.symm
  simp [answers, client?_offer, other]

/-- An offer to each of some clients is answered by each as if it were made to
that client alone. -/
theorem offerAll_sorts
    {offering : List Nat}
    (distinct : offering.Nodup)
    (frame : Frame)
    (registry : Registry) :
    (offerAll frame offering registry).1 =
        ⟨offering.countP (registry.answers .queued),
          offering.countP (registry.answers .full)⟩ ∧
      (offerAll frame offering registry).2.1 =
        offering.filter (registry.answers .gone) := by
  induction offering generalizing registry with
  | nil =>
      exact ⟨rfl, rfl⟩
  | cons first rest inductionHypothesis =>
      obtain ⟨absent, distinct⟩ := List.nodup_cons.mp distinct
      obtain ⟨counts, gone⟩ :=
        inductionHypothesis distinct (registry.offer first frame).2
      have unchanged (answer : Offer) :
          ∀ other ∈ rest,
            (registry.offer first frame).2.answers answer other =
              registry.answers answer other := by
        intro other member
        refine answers_offer_of_ne frame answer ?_
        rintro rfl
        exact absent member
      have sameCount (answer : Offer) :
          rest.countP ((registry.offer first frame).2.answers answer) =
            rest.countP (registry.answers answer) :=
        List.countP_congr fun other member => by
          rw [unchanged answer other member]
      have sameGone :
          rest.filter ((registry.offer first frame).2.answers .gone) =
            rest.filter (registry.answers .gone) :=
        List.filter_congr (unchanged .gone)
      have told :
          (registry.offer first frame).1 =
            (registry.client? first).map Client.offer := rfl
      simp only [offerAll, counts, gone, sameCount, sameGone, told,
        List.countP_cons, List.filter_cons]
      cases present : registry.client? first with
      | none =>
          simp [answers, present, countOffer]
      | some client =>
          cases offer : client.offer <;>
            simp [answers, present, offer, countOffer]

/-- A removal changes no client's answer to an offer. -/
theorem answers_disconnect
    (registry : Registry)
    (leaving : Nat)
    (answer : Offer)
    (number : Nat) :
    (registry.disconnect leaving).2.1.answers answer number =
      registry.answers answer number := by
  have same :
      (Client.offer ∘ fun client : Client =>
        if leaving = number then client.removed else client) =
        Client.offer := by
    funext client
    simp only [Function.comp_apply]
    split <;> rfl
  simp only [answers, client?_disconnect, Option.map_map, same]

/-- Nor does an offer change who has nobody to receive. -/
theorem answers_gone_offer
    (registry : Registry)
    (offering : Nat)
    (frame : Frame)
    (number : Nat) :
    (registry.offer offering frame).2.answers .gone number =
      registry.answers .gone number := by
  have same (client : Client) :
      (if offering = number then client.offered frame else client).offer =
          .gone ↔
        client.offer = .gone := by
    rw [Client.offer_eq_gone_iff, Client.offer_eq_gone_iff, Client.offered_eq]
    split
    · split <;> rfl
    · rfl
  rw [Bool.eq_iff_iff]
  simp [answers, client?_offer, same]

theorem answers_gone_offerAll
    (frame : Frame)
    (offering : List Nat)
    (registry : Registry) :
    (offerAll frame offering registry).2.2.answers .gone =
      registry.answers .gone := by
  induction offering generalizing registry with
  | nil =>
      rfl
  | cons first rest inductionHypothesis =>
      simp only [offerAll, inductionHypothesis]
      exact funext (registry.answers_gone_offer first frame)

theorem channel_offerAll
    (frame : Frame)
    (offering : List Nat)
    (registry : Registry) :
    (offerAll frame offering registry).2.2.channel = registry.channel := by
  induction offering generalizing registry with
  | nil =>
      rfl
  | cons first rest inductionHypothesis =>
      simp only [offerAll, inductionHypothesis]
      rfl

/-- The clients are what is found under the numbers from one on. -/
theorem map_some_clients
    (numbered : registry.Numbered) :
    registry.clients.map some =
      (List.range' 1 registry.clients.length).map registry.client? := by
  have shape :
      registry.clients.map Client.number =
        List.range' 1 registry.clients.length := numbered
  rw [← shape, List.map_map]
  refine List.map_congr_left fun client member => ?_
  exact (client?_of_mem numbered member).symm

/-- A registry is known from its channel and from what is found under each
number. -/
theorem eq_of_client?
    {first second : Registry}
    (numbered : first.Numbered)
    (otherNumbered : second.Numbered)
    (sameChannel : first.channel = second.channel)
    (same : ∀ number, first.client? number = second.client? number) :
    first = second := by
  have sameLength : first.clients.length = second.clients.length := by
    have within (number : Nat) :
        (1 ≤ number ∧ number ≤ first.clients.length) ↔
          (1 ≤ number ∧ number ≤ second.clients.length) := by
      rw [← isSome_client?_iff numbered, ← isSome_client?_iff otherNumbered,
        same]
    have last := within first.clients.length
    have otherLast := within second.clients.length
    omega
  have sameClients : first.clients.map some = second.clients.map some := by
    rw [map_some_clients numbered, map_some_clients otherNumbered, sameLength,
      funext same]
  obtain ⟨channel, clients⟩ := first
  obtain ⟨otherChannel, otherClients⟩ := second
  have alike : clients = otherClients :=
    List.map_injective_iff.mpr (fun _ _ => Option.some.inj) sameClients
  rw [alike, show channel = otherChannel from sameChannel]

/-- It does not matter which of some clients is removed first. -/
theorem disconnectAll_of_perm
    {leaving order : List Nat}
    (numbered : registry.Numbered)
    (distinct : leaving.Nodup)
    (present : leaving ⊆ registry.roster)
    (isOrder : order.Perm leaving) :
    registry.disconnectAll order = registry.disconnectAll leaving := by
  have sameRegistry :
      (registry.disconnectAll order).1 =
        (registry.disconnectAll leaving).1 := by
    refine eq_of_client? (numbered_disconnectAll numbered order)
      (numbered_disconnectAll numbered leaving) ?_ fun number => ?_
    · rw [channel_disconnectAll, channel_disconnectAll]
    · simp only [client?_disconnectAll, isOrder.mem_iff]
  have sameEvents :
      (registry.disconnectAll order).2 =
        (registry.disconnectAll leaving).2 := by
    have orderDistinct : order.Nodup := isOrder.nodup_iff.mpr distinct
    have orderPresent : order ⊆ registry.roster :=
      fun number member => present (isOrder.mem_iff.mp member)
    rw [disconnectAll_events numbered distinct present,
      disconnectAll_events numbered orderDistinct orderPresent,
      RosterChange.lengths_history_left isOrder.length_eq orderDistinct
        orderPresent distinct present rfl]
  exact Prod.ext sameRegistry sameEvents

/-- What comes of a broadcast does not depend on the order in which the clients
are visited. -/
theorem broadcastTo_of_perm
    {order : List Nat}
    (numbered : registry.Numbered)
    (frame : Frame)
    (isOrder : order.Perm registry.roster) :
    registry.broadcastTo order frame = registry.broadcast frame := by
  have distinct := nodup_roster numbered
  have orderDistinct : order.Nodup := isOrder.nodup_iff.mpr distinct
  obtain ⟨counts, gone⟩ := offerAll_sorts distinct frame registry
  obtain ⟨orderCounts, orderGone⟩ := offerAll_sorts orderDistinct frame registry
  have sameCounts :
      (registry.offerAll frame order).1 =
        (registry.offerAll frame registry.roster).1 := by
    rw [counts, orderCounts, isOrder.countP_eq, isOrder.countP_eq]
  have sameOffered :
      (registry.offerAll frame order).2.2 =
        (registry.offerAll frame registry.roster).2.2 := by
    refine eq_of_client? (numbered_offerAll numbered frame order)
      (numbered_offerAll numbered frame registry.roster) ?_ fun number => ?_
    · rw [channel_offerAll, channel_offerAll]
    · rw [client?_offerAll orderDistinct, client?_offerAll distinct]
      simp only [isOrder.mem_iff]
  have sameGone :
      (registry.offerAll frame order).2.1.Perm
        (registry.offerAll frame registry.roster).2.1 := by
    rw [gone, orderGone]
    exact isOrder.filter _
  have sameRemoved :
      (registry.offerAll frame order).2.2.disconnectAll
          (registry.offerAll frame order).2.1 =
        (registry.offerAll frame registry.roster).2.2.disconnectAll
          (registry.offerAll frame registry.roster).2.1 := by
    rw [sameOffered]
    refine disconnectAll_of_perm (numbered_offerAll numbered frame _) ?_ ?_
      sameGone
    · rw [gone]
      exact distinct.filter _
    · rw [gone, roster_offerAll]
      exact List.filter_subset_self _
  have visits :
      registry.broadcast frame = registry.broadcastTo registry.roster frame :=
    rfl
  rw [visits]
  simp only [broadcastTo, sameCounts, sameRemoved]

/-! ## Who hears a broadcast -/

theorem answers_of_member
    {client : Client}
    (numbered : registry.Numbered)
    (answer : Offer)
    (member : client ∈ registry.members) :
    registry.answers answer client.number = (client.offer == answer) := by
  have found := client?_of_mem numbered (List.mem_of_mem_filter member)
  simp [answers, found]

/-- The clients that answer in a way, by their numbers. -/
theorem filter_answers
    (numbered : registry.Numbered)
    (answer : Offer) :
    registry.roster.filter (registry.answers answer) =
      (registry.members.filter (·.offer == answer)).map Client.number := by
  rw [roster, List.filter_map]
  congr 1
  exact List.filter_congr fun client member =>
    answers_of_member numbered answer member

theorem filter_offer_eq
    {answer : Offer}
    {hears : Client → Bool}
    (means : ∀ client, client.offer = answer ↔
      client.receiving = true ∧ hears client = true)
    (registry : Registry) :
    registry.members.filter (·.offer == answer) =
      registry.living.filter hears := by
  rw [living, List.filter_filter]
  refine List.filter_congr fun client _ => ?_
  rw [Bool.eq_iff_iff]
  simp [means, and_comm]

theorem queued_broadcast
    (numbered : registry.Numbered)
    (frame : Frame) :
    (registry.broadcast frame).1.queued =
      (registry.living.filter Client.hasRoom).length := by
  have distinct := nodup_roster numbered
  have counts := (offerAll_sorts distinct frame registry).1
  have queued :
      (registry.broadcast frame).1.queued =
        registry.roster.countP (registry.answers .queued) :=
    congrArg Broadcast.queued counts
  rw [queued, List.countP_eq_length_filter, filter_answers numbered,
    List.length_map, filter_offer_eq fun client => client.offer_eq_queued_iff]

theorem dropped_broadcast
    (numbered : registry.Numbered)
    (frame : Frame) :
    (registry.broadcast frame).1.dropped =
      (registry.living.filter fun client => ! client.hasRoom).length := by
  have distinct := nodup_roster numbered
  have counts := (offerAll_sorts distinct frame registry).1
  have dropped :
      (registry.broadcast frame).1.dropped =
        registry.roster.countP (registry.answers .full) :=
    congrArg Broadcast.dropped counts
  have means (client : Client) :
      client.offer = .full ↔
        client.receiving = true ∧ (! client.hasRoom) = true := by
    rw [Client.offer_eq_full_iff, Bool.not_eq_true']
  rw [dropped, List.countP_eq_length_filter, filter_answers numbered,
    List.length_map, filter_offer_eq means]

/-- The clients that have a receiver and room, by their numbers. -/
theorem mem_living_hasRoom_iff
    (numbered : registry.Numbered)
    (number : Nat) :
    number ∈ (registry.living.filter Client.hasRoom).map Client.number ↔
      ∃ client, registry.client? number = some client ∧
        client.registered = true ∧ client.receiving = true ∧
          client.hasRoom = true := by
  simp only [living, members, List.mem_map, List.mem_filter]
  constructor
  · rintro ⟨client, ⟨⟨⟨member, registered⟩, receives⟩, room⟩, rfl⟩
    exact ⟨client, client?_of_mem numbered member, registered, receives, room⟩
  · rintro ⟨client, found, registered, receives, room⟩
    exact ⟨client,
      ⟨⟨⟨List.mem_of_find?_eq_some found, registered⟩, receives⟩, room⟩,
      number_of_client? found⟩

/-- The frame waits last where there was room, and nowhere else. -/
theorem waiting_broadcast_eq
    (numbered : registry.Numbered)
    (frame : Frame)
    (number : Nat) :
    (registry.broadcast frame).2.1.waiting number =
      registry.waiting number ++
        if number ∈ (registry.living.filter Client.hasRoom).map Client.number
        then [frame] else [] := by
  simp only [mem_living_hasRoom_iff numbered, waiting,
    client?_broadcast numbered]
  cases present : registry.client? number with
  | none =>
      simp
  | some client =>
      cases registered : client.registered <;>
        cases receives : client.receiving <;>
          cases room : client.hasRoom <;>
            simp [Client.heard, Client.offered_eq, Client.removed, registered,
              receives, room]

/-- Those with a receiver are the audience. -/
theorem audience_broadcast
    (numbered : registry.Numbered)
    (frame : Frame) :
    (registry.broadcast frame).1.audience = registry.living.length := by
  rw [Broadcast.audience, queued_broadcast numbered, dropped_broadcast numbered]
  exact (List.length_eq_length_filter_add Client.hasRoom).symm

/-- After its offers a broadcast removes the clients that it found gone. -/
theorem broadcast_snd
    (numbered : registry.Numbered)
    (frame : Frame) :
    (registry.broadcast frame).2 =
      (registry.offerAll frame registry.roster).2.2.disconnectAll
        (registry.roster.filter (registry.answers .gone)) := by
  rw [← (offerAll_sorts (nodup_roster numbered) frame registry).2]
  rfl

/-- Those without a receiver do not stay. -/
theorem roster_broadcast
    (numbered : registry.Numbered)
    (frame : Frame) :
    (registry.broadcast frame).2.1.roster =
      registry.roster.filter fun number => ! registry.answers .gone number := by
  have distinct := nodup_roster numbered
  have offered := numbered_offerAll numbered frame registry.roster
  have left :
      (registry.broadcast frame).2.1.roster =
        registry.roster.diff (registry.roster.filter (registry.answers .gone)) := by
    rw [broadcast_snd numbered, roster_disconnectAll offered, roster_offerAll,
      List.diff_eq_foldl, List.foldl_map]
    rfl
  rw [left, distinct.sdiff_eq_filter]
  refine List.filter_congr fun number member => ?_
  simp [member]

/-- Those with a receiver do. -/
theorem roster_broadcast_eq_living
    (numbered : registry.Numbered)
    (frame : Frame) :
    (registry.broadcast frame).2.1.roster =
      registry.living.map Client.number := by
  rw [roster_broadcast numbered, roster, List.filter_map, living]
  congr 1
  refine List.filter_congr fun client member => ?_
  rw [Function.comp_apply, answers_of_member numbered .gone member,
    Bool.eq_iff_iff]
  simp [Client.offer_eq_gone_iff]

/-- A broadcast removes those that it finds gone. -/
theorem removes_broadcast
    (numbered : registry.Numbered)
    (frame : Frame) :
    registry.removes (.broadcast frame) =
      registry.roster.filter (registry.answers .gone) := by
  have after := numbered_broadcast numbered frame
  refine List.filter_congr fun number member => ?_
  have isMember :
      (registry.broadcast frame).2.1.isMember number =
        ! registry.answers .gone number := by
    rw [Bool.eq_iff_iff, ← mem_roster_iff after, roster_broadcast numbered,
      List.mem_filter]
    exact and_iff_right member
  rw [move, isMember, Bool.not_not]

/-! ## The count of clients -/

/-- A call after which the same clients are registered removes none. -/
theorem removes_of_roster
    {next : RegistryMove}
    (numbered : registry.Numbered)
    (same : (registry.move next).roster = registry.roster) :
    registry.removes next = [] := by
  rw [removes, List.filter_eq_nil_iff]
  intro number member
  rw [← roster, ← same, mem_roster_iff (numbered_move numbered next)] at member
  simp [member]

theorem channel_move
    (registry : Registry)
    (next : RegistryMove) :
    (registry.move next).channel = registry.channel := by
  cases next with
  | disconnect leaving =>
      exact channel_disconnectAll [leaving] registry
  | broadcast frame =>
      exact (channel_disconnectAll _ _).trans (channel_offerAll frame _ registry)
  | receive receiving =>
      simp only [move, receive]
      split <;> rfl
  | _ =>
      rfl

/-- What a call does to the membership and says about the count of clients. -/
structure Counts (registry : Registry) (next : RegistryMove) : Prop where
  /-- Its changes lead to those that are registered afterwards. -/
  roster :
    (registry.move next).roster =
      (registry.changes next).foldl RosterChange.apply registry.roster
  /-- The count is set after each change, and at no other time. -/
  events :
    registry.tells next =
      countEvents registry.channel
        ((RosterChange.history registry.roster
          (registry.changes next)).map List.length)

/-- A call that removes nobody and says nothing counts as it should. -/
theorem Counts.of_quiet
    {next : RegistryMove}
    (numbered : registry.Numbered)
    (same : (registry.move next).roster = registry.roster)
    (nobody : registry.hands next = [])
    (silent : registry.tells next = []) :
    registry.Counts next := by
  have unchanged : registry.changes next = [] := by
    rw [changes, nobody, removes_of_roster numbered same]
    rfl
  exact {
    roster := by rw [unchanged, same, List.foldl_nil]
    events := by rw [unchanged, silent]; rfl
  }

theorem counts_connect
    (numbered : registry.Numbered) :
    registry.Counts .connect := by
  have joins := roster_connect registry
  have nobody : registry.removes .connect = [] := by
    rw [removes, List.filter_eq_nil_iff]
    intro number member
    have stays : number ∈ registry.connect.2.1.roster := by
      rw [joins]
      exact List.mem_append_left _ member
    rw [mem_roster_iff (numbered_connect numbered)] at stays
    simp [move, stays]
  have changes : registry.changes .connect = [.joined registry.connect.1] := by
    rw [Registry.changes, nobody]
    rfl
  exact {
    roster := by
      rw [changes, move, joins]
      rfl
    events := by
      rw [changes]
      simp only [RosterChange.history, RosterChange.apply, ← joins]
      rw [List.map_singleton, length_roster]
      rfl
  }

theorem counts_disconnect
    (numbered : registry.Numbered)
    (leaving : Nat) :
    registry.Counts (.disconnect leaving) := by
  have left := roster_disconnect numbered leaving
  by_cases member : leaving ∈ registry.roster
  · have isMember := (mem_roster_iff numbered leaving).mp member
    have changes : registry.changes (.disconnect leaving) = [.left leaving] := by
      rw [Registry.changes, removes_disconnect numbered, disconnect_fst,
        if_pos isMember]
      rfl
    exact {
      roster := by
        rw [changes, move, left]
        rfl
      events := by
        rw [changes, tells, disconnect_events numbered member]
        rfl
    }
  · have same : (registry.disconnect leaving).2.1.roster = registry.roster := by
      rw [left, List.erase_of_not_mem member]
    refine .of_quiet numbered same rfl ?_
    rw [mem_roster_iff numbered] at member
    simp [tells, disconnect, member]

theorem counts_broadcast
    (numbered : registry.Numbered)
    (frame : Frame) :
    registry.Counts (.broadcast frame) := by
  have offered := numbered_offerAll numbered frame registry.roster
  have sameRoster := roster_offerAll frame registry.roster registry
  have removed := broadcast_snd numbered frame
  have distinct := nodup_roster numbered
  have changes :
      registry.changes (.broadcast frame) =
        (registry.roster.filter (registry.answers .gone)).map .left := by
    rw [Registry.changes, removes_broadcast numbered]
    rfl
  exact {
    roster := by
      rw [changes, move, removed, roster_disconnectAll offered, sameRoster]
    events := by
      have present :
          registry.roster.filter (registry.answers .gone) ⊆
            (registry.offerAll frame registry.roster).2.2.roster := by
        rw [sameRoster]
        exact List.filter_subset_self _
      rw [changes, tells, removed,
        disconnectAll_events offered (distinct.filter _) present, sameRoster,
        channel_offerAll]
  }

/-- Every call counts as it should. -/
theorem counts_move
    (numbered : registry.Numbered)
    (next : RegistryMove) :
    registry.Counts next := by
  cases next with
  | connect =>
      exact counts_connect numbered
  | disconnect leaving =>
      exact counts_disconnect numbered leaving
  | offer offering frame =>
      exact .of_quiet numbered (roster_offer registry offering frame) rfl rfl
  | broadcast frame =>
      exact counts_broadcast numbered frame
  | receive receiving =>
      exact .of_quiet numbered (roster_receive registry receiving) rfl rfl
  | dropReceiver dropping =>
      exact .of_quiet numbered (registry.roster_dropReceiver dropping) rfl rfl

/-! ## Runs -/

theorem channel_moves
    (registry : Registry)
    (list : List RegistryMove) :
    (registry.moves list).channel = registry.channel := by
  induction list using List.reverseRecOn with
  | nil =>
      rfl
  | append_singleton list next inductionHypothesis =>
      rw [moves_concat, channel_move, inductionHypothesis]

/-- The changes of a run lead to those that are registered at its end. -/
theorem roster_moves
    (channel : String)
    (list : List RegistryMove) :
    ((empty channel).moves list).roster =
      ((empty channel).changed list).foldl RosterChange.apply [] := by
  induction list using List.reverseRecOn with
  | nil =>
      rfl
  | append_singleton list next inductionHypothesis =>
      have counts := counts_move (numbered_reached channel list) next
      rw [changed, Run.yielded_concat, List.foldl_append, moves_concat,
        counts.roster, inductionHypothesis]
      rfl

/-- While no client comes, an empty registry stays empty. -/
theorem roster_moves_of_nobody
    (numbered : registry.Numbered)
    (nobody : registry.roster = [])
    {list : List RegistryMove}
    (noneComes : .connect ∉ list) :
    (registry.moves list).roster = [] := by
  induction list generalizing registry with
  | nil =>
      exact nobody
  | cons first rest inductionHypothesis =>
      obtain ⟨notFirst, noneComes⟩ := List.ne_and_not_mem_of_not_mem_cons noneComes
      have handsNone : registry.hands first = [] := by
        cases first <;> first | rfl | exact absurd rfl notFirst
      have removesNone : registry.removes first = [] := by
        rw [removes, ← roster, nobody, List.filter_nil]
      have unchanged : registry.changes first = [] := by
        rw [changes, handsNone, removesNone]
        rfl
      have stays := (counts_move numbered first).roster
      rw [unchanged, List.foldl_nil, nobody] at stays
      exact inductionHypothesis (numbered_move numbered first) stays noneComes

/-- A run says how many clients there are after each change and nothing
else. -/
theorem told_eq
    (channel : String)
    (list : List RegistryMove) :
    (empty channel).told list =
      countEvents channel
        ((RosterChange.history []
          ((empty channel).changed list)).map List.length) := by
  induction list using List.reverseRecOn with
  | nil =>
      rfl
  | append_singleton list next inductionHypothesis =>
      have counts := counts_move (numbered_reached channel list) next
      have earlier := roster_moves channel list
      have said := counts.events
      rw [channel_moves, earlier] at said
      rw [told, changed, Run.yielded_concat, Run.yielded_concat,
        RosterChange.history_append, List.map_append, countEvents,
        List.map_append]
      exact congrArg₂ _ inductionHypothesis said

end Registry

/-- The series of the count of clients. -/
def Series.clients (channel : String) : Series :=
  ⟨"connected_clients", [("channel", channel)]⟩

/-- The count of clients of a channel that a measure sets. -/
def Measure.clientsOf? (name : String) : Measure → Option Nat
  | .clients channel count => if channel = name then some count else none
  | _ => none

/-- A recorder keeps every count of clients, in order. -/
theorem Recorded.levels_clients
    (name : String)
    (measures : List Measure) :
    (ofMeasures measures).levels (.clients name) =
      (measures.filterMap (Measure.clientsOf? name)).map countLevel := by
  rw [List.map_filterMap]
  refine levels_ofMeasures (fun measure => ?_) measures
  cases measure with
  | clients channel count =>
      by_cases same : channel = name <;>
        simp [Measure.observations, Series.clients, Measure.clientsOf?,
          Observation.level?, same]
  | _ =>
      simp [Measure.observations, Series.clients, Measure.clientsOf?,
        Observation.level?]

namespace Registry

theorem clientsOf_countEvents
    (channel : String)
    (counts : List Nat) :
    (measures (countEvents channel counts)).filterMap
        (Measure.clientsOf? channel) =
      counts := by
  rw [measures, countEvents, List.filterMap_map, List.filterMap_filterMap]
  simp [Measure.clientsOf?]

/-- What is kept of the count of clients over a run. -/
def clientLevels (channel : String) (list : List RegistryMove) : List Float :=
  (Recorded.ofMeasures (measures ((empty channel).told list))).levels
    (.clients channel)

/-- What a registry without clients owes to those who count its clients, over a
run. -/
structure KeepsCount (channel : String) (list : List RegistryMove) : Prop where
  /-- Whoever has a receiver hears a broadcast and stays. -/
  audience :
    ∀ frame,
      let reached := (empty channel).moves list
      (reached.broadcast frame).1.audience = reached.living.length ∧
        (reached.broadcast frame).2.1.size = reached.living.length
  /-- Those with room queue the frame. -/
  queued :
    ∀ frame,
      let reached := (empty channel).moves list
      (reached.broadcast frame).1.queued =
        (reached.living.filter Client.hasRoom).length
  /-- It waits last in their queues, and the other queues stay as they are. -/
  queues :
    ∀ frame number,
      let reached := (empty channel).moves list
      (reached.broadcast frame).2.1.waiting number =
        reached.waiting number ++
          if number ∈ (reached.living.filter Client.hasRoom).map Client.number
          then [frame] else []
  /-- Those whose receiver is gone are removed, and no others. -/
  removed :
    ∀ frame,
      let reached := (empty channel).moves list
      reached.removes (.broadcast frame) =
        (reached.members.filter fun client => ! client.receiving).map
          Client.number
  /-- In whatever order the clients are visited, the same comes of it. -/
  order :
    ∀ frame order,
      let reached := (empty channel).moves list
      order.Perm reached.roster →
        reached.broadcastTo order frame = reached.broadcast frame
  /-- Clients come and go one at a time, up to those who are there. -/
  membership :
    ((empty channel).moves list).roster =
      ((empty channel).changed list).foldl RosterChange.apply []
  /-- The count is set after each of these changes and at no other time. -/
  levels :
    clientLevels channel list =
      (RosterChange.history [] ((empty channel).changed list)).map
        fun roster => countLevel roster.length
  /-- So it was last set to the number of clients, if it ever was. -/
  last :
    (clientLevels channel list).getLast? =
      if (empty channel).changed list = [] then none
      else some (countLevel ((empty channel).moves list).size)

theorem clientLevels_eq
    (channel : String)
    (list : List RegistryMove) :
    clientLevels channel list =
      (RosterChange.history [] ((empty channel).changed list)).map
        fun roster => countLevel roster.length := by
  rw [clientLevels, told_eq, Recorded.levels_clients, clientsOf_countEvents,
    List.map_map]
  rfl

/-- In every run of calls a registry counts its clients right: a broadcast
counts those with a receiver and removes the others in whatever order it visits
them, and the count is set to the new number of clients whenever one comes or
goes. -/
theorem every_run_keeps_count
    (channel : String)
    (list : List RegistryMove) :
    KeepsCount channel list where
  audience := by
    intro frame reached
    have numbered : reached.Numbered := numbered_reached channel list
    refine ⟨audience_broadcast numbered frame, ?_⟩
    rw [← length_roster, roster_broadcast_eq_living numbered, List.length_map]
  queued := by
    intro frame reached
    exact queued_broadcast (numbered_reached channel list) frame
  queues := by
    intro frame number reached
    exact waiting_broadcast_eq (numbered_reached channel list) frame number
  removed := by
    intro frame reached
    have numbered : reached.Numbered := numbered_reached channel list
    rw [removes_broadcast numbered, filter_answers numbered]
    congr 1
    refine List.filter_congr fun client _ => ?_
    rw [Bool.eq_iff_iff]
    simp [Client.offer_eq_gone_iff]
  order := by
    intro frame order reached isOrder
    exact broadcastTo_of_perm (numbered_reached channel list) frame isOrder
  membership := roster_moves channel list
  levels := clientLevels_eq channel list
  last := by
    rw [clientLevels_eq, List.getLast?_map, RosterChange.getLast?_history,
      ← roster_moves, ← length_roster]
    split <;> rfl

/-- Two clients come, one of them is gone when a frame is broadcast, and the
other one is removed. -/
example :
    let list : List RegistryMove :=
      [.connect, .connect, .dropReceiver 2, .broadcast (.echo "anyone?"),
        .disconnect 1]
    (RosterChange.history [] ((empty "push").changed list)).map List.length =
      [1, 2, 1, 0] := by
  decide

end Registry

end PositionFeed
