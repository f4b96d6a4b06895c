import Mathlib.Data.List.Nodup
import Mathlib.Data.List.Range
import PositionFeed.Proofs.Run
import PositionFeed.Push.Registry

namespace PositionFeed

/-!
# What becomes of a client's queue

A registry moves by the calls that connections and the distributor make.  Seen
from one client every call does one of three things to its queue: it takes
frames from the front, it adds the one frame of the call at the end, or it
throws all of them away.

For a broadcast this needs that every number belongs to one client, which the
registry sees to by counting.
-/

/-- A call to a registry. -/
inductive RegistryMove where
  /-- A client registers. -/
  | connect
  /-- A client is removed. -/
  | disconnect (number : Nat)
  /-- A frame is offered to one client. -/
  | offer (number : Nat) (frame : Frame)
  /-- A frame is offered to every client. -/
  | broadcast (frame : Frame)
  /-- The receiver of a client asks for a frame. -/
  | receive (number : Nat)
  /-- The receiver of a client is dropped. -/
  | dropReceiver (number : Nat)

/-- The frame that a call offers. -/
def RegistryMove.frame? : RegistryMove → Option Frame
  | .offer _ frame => some frame
  | .broadcast frame => some frame
  | _ => none

namespace Registry

/-- What a call makes of a registry. -/
def move (registry : Registry) : RegistryMove → Registry
  | .connect => registry.connect.2.1
  | .disconnect number => (registry.disconnect number).2.1
  | .offer number frame => (registry.offer number frame).2
  | .broadcast frame => (registry.broadcast frame).2.1
  | .receive number => (registry.receive number).2
  | .dropReceiver number => (registry.dropReceiver number).2

/-- Makes calls one after the other. -/
def moves (registry : Registry) (list : List RegistryMove) : Registry :=
  list.foldl move registry

/-- The frames that wait in the queue of a client. -/
def waiting (registry : Registry) (number : Nat) : List Frame :=
  (registry.client? number).elim [] Client.queue

/-- The frames that a client takes in a call. -/
def takes (registry : Registry) (number : Nat) : RegistryMove → List Frame
  | .receive receiving =>
      if receiving = number then
        match (registry.receive number).1 with
        | .frame frame => [frame]
        | _ => []
      else []
  | _ => []

/-- The frames that a client takes in calls made one after the other. -/
def taken
    (number : Nat)
    (registry : Registry)
    (list : List RegistryMove) :
    List Frame :=
  Run.yielded move (fun registry next => registry.takes number next) registry
    list

@[simp] theorem taken_nil
    (number : Nat)
    (registry : Registry) :
    taken number registry [] = [] := rfl

@[simp] theorem taken_cons
    (number : Nat)
    (registry : Registry)
    (next : RegistryMove)
    (rest : List RegistryMove) :
    taken number registry (next :: rest) =
      registry.takes number next ++ taken number (registry.move next) rest := rfl

/-- The clients have the numbers from one on. -/
def Numbered (registry : Registry) : Prop :=
  registry.clients.map Client.number =
    List.range' 1 registry.clients.length

/-! ## Changing one client -/

theorem client?_change
    {registry : Registry}
    {changing : Nat}
    {update : Client → Client}
    (keeps : ∀ client, (update client).number = client.number)
    (number : Nat) :
    (registry.change changing update).client? number =
      (registry.client? number).map fun client =>
        if client.number = changing then update client else client := by
  have sameNumber (client : Client) :
      (if client.number = changing then update client else client).number =
        client.number := by
    split
    · exact keeps client
    · rfl
  simp only [client?, change, List.find?_map]
  congr 2
  funext client
  simp [sameNumber]

/-- A lookup finds the client with that number. -/
theorem number_of_client?
    {registry : Registry}
    {number : Nat}
    {client : Client}
    (found : registry.client? number = some client) :
    client.number = number := by
  simpa using List.find?_some found

/-- A change reaches the client with that number. -/
theorem client?_change_self
    {registry : Registry}
    {number : Nat}
    {update : Client → Client}
    (keeps : ∀ client, (update client).number = client.number) :
    (registry.change number update).client? number =
      (registry.client? number).map update := by
  rw [client?_change keeps]
  cases found : registry.client? number with
  | none =>
      rfl
  | some client =>
      simp [number_of_client? found]

/-- A change leaves the clients with other numbers alone. -/
theorem client?_change_of_ne
    {registry : Registry}
    {changing number : Nat}
    {update : Client → Client}
    (keeps : ∀ client, (update client).number = client.number)
    (different : number ≠ changing) :
    (registry.change changing update).client? number =
      registry.client? number := by
  rw [client?_change keeps]
  cases found : registry.client? number with
  | none =>
      rfl
  | some client =>
      simp [number_of_client? found, different]

/-- A change that leaves queues alone changes no queue. -/
theorem waiting_change
    {registry : Registry}
    {changing : Nat}
    {update : Client → Client}
    (keeps : ∀ client, (update client).number = client.number)
    (keepsQueue : ∀ client, (update client).queue = client.queue)
    (number : Nat) :
    (registry.change changing update).waiting number =
      registry.waiting number := by
  by_cases same : number = changing
  · subst number
    simp only [waiting, client?_change_self keeps]
    cases registry.client? changing <;> simp [keepsQueue]
  · simp only [waiting, client?_change_of_ne keeps same]

/-- A change that keeps numbers changes none. -/
theorem numbered_change
    {registry : Registry}
    {update : Client → Client}
    (keeps : ∀ client, (update client).number = client.number)
    (numbered : registry.Numbered)
    (changing : Nat) :
    (registry.change changing update).Numbered := by
  have sameNumbers :
      (registry.change changing update).clients.map Client.number =
        registry.clients.map Client.number := by
    simp only [change, List.map_map]
    refine List.map_congr_left fun client _ => ?_
    simp only [Function.comp_apply]
    split
    · exact keeps client
    · rfl
  rw [Numbered, sameNumbers, numbered]
  simp [change]

/-! ## Registering and removing -/

/-- A client that registers finds an empty queue, and changes no other. -/
theorem waiting_connect
    (registry : Registry)
    (number : Nat) :
    registry.connect.2.1.waiting number = registry.waiting number := by
  simp only [waiting, connect, client?, List.find?_append]
  cases registry.clients.find? (·.number == number) with
  | none =>
      by_cases same : registry.nextNumber = number <;>
        simp [Client.fresh, same]
  | some client =>
      rfl

theorem numbered_connect
    {registry : Registry}
    (numbered : registry.Numbered) :
    registry.connect.2.1.Numbered := by
  have shape :
      registry.clients.map Client.number =
        List.range' 1 registry.clients.length := numbered
  simp only [Numbered, connect, List.map_append, shape, List.length_append]
  simp [List.range'_concat, Client.fresh, nextNumber, Nat.add_comm]

/-- Removing a client leaves every queue as it is. -/
theorem waiting_disconnect
    (registry : Registry)
    (leaving number : Nat) :
    (registry.disconnect leaving).2.1.waiting number =
      registry.waiting number := by
  unfold disconnect
  split
  · refine waiting_change ?_ ?_ number <;> intro client <;> rfl
  · rfl

theorem numbered_disconnect
    {registry : Registry}
    (numbered : registry.Numbered)
    (leaving : Nat) :
    (registry.disconnect leaving).2.1.Numbered := by
  unfold disconnect
  split
  · refine numbered_change ?_ numbered leaving
    intro client
    rfl
  · exact numbered

theorem waiting_disconnectAll
    (leaving : List Nat)
    (registry : Registry)
    (number : Nat) :
    (registry.disconnectAll leaving).1.waiting number =
      registry.waiting number := by
  induction leaving generalizing registry with
  | nil =>
      rfl
  | cons first rest inductionHypothesis =>
      simp only [disconnectAll]
      rw [inductionHypothesis, waiting_disconnect]

theorem numbered_disconnectAll
    {registry : Registry}
    (numbered : registry.Numbered)
    (leaving : List Nat) :
    (registry.disconnectAll leaving).1.Numbered := by
  induction leaving generalizing registry with
  | nil =>
      exact numbered
  | cons first rest inductionHypothesis =>
      exact inductionHypothesis (numbered_disconnect numbered first)

/-! ## Offering frames -/

theorem number_offered
    (frame : Frame)
    (client : Client) :
    (client.offered frame).number = client.number := by
  unfold Client.offered
  split <;> rfl

/-- An offer reaches the queue of the one client that it is made to, and only
if there is room. -/
theorem waiting_offer
    (registry : Registry)
    (offering : Nat)
    (frame : Frame)
    (number : Nat) :
    (registry.offer offering frame).2.waiting number =
      registry.waiting number ++
        if number = offering ∧
            (registry.offer offering frame).1 = some .queued then [frame]
        else [] := by
  by_cases same : number = offering
  · subst number
    simp only [offer, waiting, client?_change_self (number_offered frame)]
    cases registry.client? offering with
    | none =>
        rfl
    | some client =>
        cases offer : client.offer <;> simp [Client.offered, offer]
  · simp [offer, waiting, client?_change_of_ne (number_offered frame) same,
      same]

theorem numbered_offer
    {registry : Registry}
    (numbered : registry.Numbered)
    (offering : Nat)
    (frame : Frame) :
    (registry.offer offering frame).2.Numbered :=
  numbered_change (number_offered frame) numbered offering

/-- Offers to others leave a queue as it is. -/
theorem waiting_offerAll_of_notMem
    {offering : List Nat}
    {number : Nat}
    (absent : number ∉ offering)
    (frame : Frame)
    (registry : Registry) :
    (offerAll frame offering registry).2.2.waiting number =
      registry.waiting number := by
  induction offering generalizing registry with
  | nil =>
      rfl
  | cons first rest inductionHypothesis =>
      obtain ⟨different, absent⟩ := List.ne_and_not_mem_of_not_mem_cons absent
      simp only [offerAll]
      rw [inductionHypothesis absent, waiting_offer]
      simp [different]

/-- A frame that is offered once to each joins a queue at most once. -/
theorem waiting_offerAll
    {offering : List Nat}
    (distinct : offering.Nodup)
    (frame : Frame)
    (registry : Registry)
    (number : Nat) :
    (offerAll frame offering registry).2.2.waiting number =
        registry.waiting number ∨
      (offerAll frame offering registry).2.2.waiting number =
        registry.waiting number ++ [frame] := by
  induction offering generalizing registry with
  | nil =>
      exact .inl rfl
  | cons first rest inductionHypothesis =>
      obtain ⟨absent, distinct⟩ := List.nodup_cons.mp distinct
      simp only [offerAll]
      by_cases same : number = first
      · subst number
        rw [waiting_offerAll_of_notMem absent, waiting_offer]
        split
        · exact .inr rfl
        · exact .inl (List.append_nil _)
      · have unchanged :
            (registry.offer first frame).2.waiting number =
              registry.waiting number := by
          simp [waiting_offer, same]
        rw [← unchanged]
        exact inductionHypothesis distinct _

/-- Where a broadcast finds neither room nor a full queue, it leaves every
queue as it is. -/
theorem waiting_offerAll_of_unheard
    {offering : List Nat}
    {frame : Frame}
    {registry : Registry}
    (unheard : (offerAll frame offering registry).1.audience = 0)
    (number : Nat) :
    (offerAll frame offering registry).2.2.waiting number =
      registry.waiting number := by
  induction offering generalizing registry with
  | nil =>
      rfl
  | cons first rest inductionHypothesis =>
      simp only [offerAll] at unheard ⊢
      cases answer : (registry.offer first frame).1 with
      | none =>
          rw [answer] at unheard
          rw [inductionHypothesis unheard, waiting_offer]
          simp [answer]
      | some offer =>
          rw [answer] at unheard
          cases offer with
          | queued =>
              simp [countOffer, Broadcast.audience] at unheard
          | full =>
              simp [countOffer, Broadcast.audience] at unheard
          | gone =>
              rw [inductionHypothesis unheard, waiting_offer]
              simp [answer]

theorem numbered_offerAll
    {registry : Registry}
    (numbered : registry.Numbered)
    (frame : Frame)
    (offering : List Nat) :
    (offerAll frame offering registry).2.2.Numbered := by
  induction offering generalizing registry with
  | nil =>
      exact numbered
  | cons first rest inductionHypothesis =>
      exact inductionHypothesis (numbered_offer numbered first frame)

/-- Numbers are of one client each. -/
theorem nodup_members
    {registry : Registry}
    (numbered : registry.Numbered) :
    (registry.members.map Client.number).Nodup := by
  have distinct : (registry.clients.map Client.number).Nodup := by
    rw [show registry.clients.map Client.number = _ from numbered]
    exact List.nodup_range'
  exact distinct.sublist (List.filter_sublist.map Client.number)

/-- A broadcast adds its frame to a queue at most once. -/
theorem waiting_broadcast
    {registry : Registry}
    (numbered : registry.Numbered)
    (frame : Frame)
    (number : Nat) :
    (registry.broadcast frame).2.1.waiting number =
        registry.waiting number ∨
      (registry.broadcast frame).2.1.waiting number =
        registry.waiting number ++ [frame] := by
  simp only [broadcast, broadcastTo, waiting_disconnectAll]
  exact waiting_offerAll (nodup_members numbered) frame registry number

/-- A broadcast without an audience leaves every queue as it is. -/
theorem waiting_broadcast_of_unheard
    {registry : Registry}
    {frame : Frame}
    (unheard : (registry.broadcast frame).1.audience = 0)
    (number : Nat) :
    (registry.broadcast frame).2.1.waiting number =
      registry.waiting number := by
  simp only [broadcast, broadcastTo] at unheard ⊢
  rw [waiting_disconnectAll, waiting_offerAll_of_unheard unheard]

theorem numbered_broadcast
    {registry : Registry}
    (numbered : registry.Numbered)
    (frame : Frame) :
    (registry.broadcast frame).2.1.Numbered := by
  simp only [broadcast, broadcastTo]
  exact numbered_disconnectAll (numbered_offerAll numbered frame _) _

/-! ## Receiving -/

theorem number_receive
    (client : Client) :
    client.receive.2.number = client.number := by
  unfold Client.receive
  split
  · rfl
  · split <;> rfl

/-- A client takes what is first in its queue, and nobody else takes it. -/
theorem waiting_receive
    (registry : Registry)
    (receiving number : Nat) :
    registry.waiting number =
      registry.takes number (.receive receiving) ++
        (registry.receive receiving).2.waiting number := by
  by_cases same : receiving = number
  · subst receiving
    cases found : registry.client? number with
    | none =>
        simp [takes, receive, found]
    | some client =>
        simp only [takes, receive, found, waiting,
          client?_change_self number_receive, ↓reduceIte]
        by_cases receives : client.receiving
        · cases queue : client.queue with
          | nil =>
              cases registered : client.registered <;>
                simp [Client.receive, receives, queue, registered]
          | cons frame rest =>
              simp [Client.receive, receives, queue]
        · simp [Client.receive, receives]
  · have different : number ≠ receiving := fun found => same found.symm
    cases found : registry.client? receiving with
    | none =>
        simp [takes, receive, found, same]
    | some client =>
        simp [takes, receive, found, same, waiting,
          client?_change_of_ne number_receive different]

theorem numbered_receive
    {registry : Registry}
    (numbered : registry.Numbered)
    (receiving : Nat) :
    (registry.receive receiving).2.Numbered := by
  unfold receive
  split
  · exact numbered
  · exact numbered_change number_receive numbered receiving

/-- Without a receiver a queue is empty. -/
theorem waiting_dropReceiver
    (registry : Registry)
    (dropping number : Nat) :
    (registry.dropReceiver dropping).2.waiting number =
      if number = dropping then [] else registry.waiting number := by
  have keeps (client : Client) :
      client.dropReceiver.number = client.number := rfl
  by_cases same : number = dropping
  · subst number
    simp only [dropReceiver, waiting, client?_change_self keeps]
    cases registry.client? dropping <;> simp [Client.dropReceiver]
  · simp [dropReceiver, waiting, client?_change_of_ne keeps same, same]

/-! ## Calls -/

/-- Every call keeps the numbers in order. -/
theorem numbered_move
    {registry : Registry}
    (numbered : registry.Numbered)
    (next : RegistryMove) :
    (registry.move next).Numbered := by
  cases next with
  | connect =>
      exact numbered_connect numbered
  | disconnect leaving =>
      exact numbered_disconnect numbered leaving
  | offer offering frame =>
      exact numbered_offer numbered offering frame
  | broadcast frame =>
      exact numbered_broadcast numbered frame
  | receive receiving =>
      exact numbered_receive numbered receiving
  | dropReceiver dropping =>
      refine numbered_change ?_ numbered dropping
      intro client
      rfl

/-- A call takes frames from the front of a queue, adds its one frame at the
end, or throws all frames away. -/
theorem waiting_move
    {registry : Registry}
    (numbered : registry.Numbered)
    (number : Nat)
    (next : RegistryMove) :
    registry.waiting number =
        registry.takes number next ++ (registry.move next).waiting number ∨
      registry.takes number next = [] ∧
        ((∃ frame, next.frame? = some frame ∧
            (registry.move next).waiting number =
              registry.waiting number ++ [frame]) ∨
          (registry.move next).waiting number = []) := by
  cases next with
  | connect =>
      exact .inl (waiting_connect registry number).symm
  | disconnect leaving =>
      exact .inl (waiting_disconnect registry leaving number).symm
  | offer offering frame =>
      have offered := waiting_offer registry offering frame number
      split at offered
      · exact .inr ⟨rfl, .inl ⟨frame, rfl, offered⟩⟩
      · exact .inl (by simp [takes, move, offered])
  | broadcast frame =>
      rcases waiting_broadcast numbered frame number with unchanged | joined
      · exact .inl unchanged.symm
      · exact .inr ⟨rfl, .inl ⟨frame, rfl, joined⟩⟩
  | receive receiving =>
      exact .inl (waiting_receive registry receiving number)
  | dropReceiver dropping =>
      have dropped := waiting_dropReceiver registry dropping number
      split at dropped
      · exact .inr ⟨rfl, .inr dropped⟩
      · exact .inl dropped.symm

/-- If what a client took and what waits for it is in order within what was
sent, then it still is after a call that sends one more frame. -/
theorem sublist_move
    {registry : Registry}
    (numbered : registry.Numbered)
    {number : Nat}
    {keep : Frame → Bool}
    {seen sent : List Frame}
    (inOrder :
      ((seen ++ registry.waiting number).filter keep).Sublist sent)
    (next : RegistryMove) :
    ((seen ++ registry.takes number next ++
        (registry.move next).waiting number).filter keep).Sublist
      (sent ++ next.frame?.toList.filter keep) := by
  rcases waiting_move numbered number next with
    taken | ⟨nothing, ⟨frame, offered, joined⟩ | emptied⟩
  · rw [taken, ← List.append_assoc] at inOrder
    exact inOrder.trans (List.sublist_append_left _ _)
  · rw [nothing, joined, offered, List.append_nil, ← List.append_assoc,
      List.filter_append]
    exact inOrder.append (List.Sublist.refl _)
  · rw [nothing, emptied, List.append_nil, List.append_nil]
    have seenInOrder :
        (seen.filter keep).Sublist
          ((seen ++ registry.waiting number).filter keep) :=
      (List.sublist_append_left _ _).filter keep
    exact (seenInOrder.trans inOrder).trans (List.sublist_append_left _ _)

/-! ## Runs -/

theorem numbered_moves
    {registry : Registry}
    (numbered : registry.Numbered)
    (list : List RegistryMove) :
    (registry.moves list).Numbered := by
  induction list generalizing registry with
  | nil =>
      exact numbered
  | cons first rest inductionHypothesis =>
      exact inductionHypothesis (numbered_move numbered first)

/-- What a client took and what waits for it stays in order within what is
sent, call after call. -/
theorem sublist_moves
    {registry : Registry}
    (numbered : registry.Numbered)
    {number : Nat}
    {keep : Frame → Bool}
    {seen sent : List Frame}
    (inOrder :
      ((seen ++ registry.waiting number).filter keep).Sublist sent)
    (list : List RegistryMove) :
    ((seen ++ taken number registry list ++
        (registry.moves list).waiting number).filter keep).Sublist
      (sent ++ (list.filterMap RegistryMove.frame?).filter keep) := by
  induction list generalizing registry seen sent with
  | nil =>
      simpa [moves] using inOrder
  | cons first rest inductionHypothesis =>
      have later :=
        inductionHypothesis (numbered_move numbered first)
          (sublist_move numbered inOrder first)
      have frames :
          (first :: rest).filterMap RegistryMove.frame? =
            first.frame?.toList ++ rest.filterMap RegistryMove.frame? := by
        cases offered : first.frame? <;> simp [offered]
      rw [taken_cons, frames, List.filter_append (first.frame?.toList),
        ← List.append_assoc, ← List.append_assoc]
      exact later

end Registry

end PositionFeed
