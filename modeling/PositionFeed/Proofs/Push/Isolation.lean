import Mathlib.Data.List.Nodup
import Mathlib.Data.List.Range
import PositionFeed.Proofs.Push.Clients

namespace PositionFeed

/-!
# Clients are served apart from each other

What a registry keeps of one client follows from the calls that concern this
client alone: the broadcasts since it registered, and the calls that name it.
A client that is driven by these calls, with no registry around it, has the
same queue and takes the same frames.  So clients do not notice each other.

Alone with its calls a client is easy to account for.  While somebody receives,
the frames that it took and those that wait for it are the frames that were
offered while its queue had room.
-/

/-- A call that concerns one client. -/
inductive ClientCall where
  /-- It is removed. -/
  | remove
  /-- It is offered a frame of its own. -/
  | offer (frame : Frame)
  /-- Everybody is offered a frame. -/
  | broadcast (frame : Frame)
  /-- Its receiver asks for a frame. -/
  | receive
  /-- Its receiver is dropped. -/
  | dropReceiver
  deriving DecidableEq

/-- What a call to a registry means for the client with a number. -/
def RegistryMove.callOn? (number : Nat) : RegistryMove → Option ClientCall
  | .connect => none
  | .disconnect leaving => if leaving = number then some .remove else none
  | .offer offering frame =>
      if offering = number then some (.offer frame) else none
  | .broadcast frame => some (.broadcast frame)
  | .receive receiving => if receiving = number then some .receive else none
  | .dropReceiver dropping =>
      if dropping = number then some .dropReceiver else none

namespace Client

/-- A client that is not registered any more. -/
def removed (client : Client) : Client :=
  { client with registered := false }

/-- A client after a broadcast.  It hears of it while it is registered, and is
removed if nobody receives. -/
def heard (frame : Frame) (client : Client) : Client :=
  if client.registered then
    if client.receiving then client.offered frame else client.removed
  else client

/-- What a call makes of a client. -/
def call (client : Client) : ClientCall → Client
  | .remove => client.removed
  | .offer frame => client.offered frame
  | .broadcast frame => client.heard frame
  | .receive => client.receive.2
  | .dropReceiver => client.dropReceiver

/-- The frames that a client takes in a call. -/
def takes (client : Client) : ClientCall → List Frame
  | .receive =>
      match client.receive.1 with
      | .frame frame => [frame]
      | _ => []
  | _ => []

/-- Whether the queue of a client has room. -/
def hasRoom (client : Client) : Bool := client.queue.length < depth

/-- The frames that a call offers to a client while its queue has room. -/
def finds (client : Client) : ClientCall → List Frame
  | .offer frame => if client.hasRoom then [frame] else []
  | .broadcast frame =>
      if client.registered ∧ client.hasRoom then [frame] else []
  | _ => []

/-- A client that registered under a number, after calls. -/
def after (number : Nat) (calls : List ClientCall) : Client :=
  calls.foldl call (fresh number)

/-- The frames that a client takes in calls made one after the other. -/
def taken (number : Nat) (calls : List ClientCall) : List Frame :=
  Run.yielded call takes (fresh number) calls

/-- The frames that calls made one after the other offer to a client while its
queue has room. -/
def found (number : Nat) (calls : List ClientCall) : List Frame :=
  Run.yielded call finds (fresh number) calls

@[simp] theorem after_concat
    (number : Nat)
    (calls : List ClientCall)
    (next : ClientCall) :
    after number (calls ++ [next]) = (after number calls).call next := by
  simp [after]

/-- An offer joins a queue with room, if somebody receives. -/
theorem offered_eq
    (frame : Frame)
    (client : Client) :
    client.offered frame =
      if client.receiving ∧ client.hasRoom then
        { client with queue := client.queue ++ [frame] }
      else client := by
  unfold offered offer hasRoom
  by_cases receives : client.receiving
  · by_cases room : client.queue.length < depth <;> simp [receives, room]
  · simp [receives]

/-- No call brings a receiver back. -/
theorem receiving_of_call
    {client : Client}
    {next : ClientCall}
    (receives : (client.call next).receiving = true) :
    client.receiving = true := by
  by_contra stopped
  rw [Bool.not_eq_true] at stopped
  cases next <;>
    simp_all [call, removed, heard, offered_eq, receive, dropReceiver]
  split at receives <;> simp_all

/-- No call registers a client again. -/
theorem registered_of_call
    {client : Client}
    {next : ClientCall}
    (registered : (client.call next).registered = true) :
    client.registered = true := by
  by_contra gone
  rw [Bool.not_eq_true] at gone
  cases next with
  | remove =>
      simp [call, removed] at registered
  | offer frame =>
      simp only [call, offered_eq] at registered
      split at registered <;> simp_all
  | broadcast frame =>
      simp [call, heard, gone] at registered
  | receive =>
      simp only [call, receive] at registered
      split at registered
      · simp_all
      · split at registered <;> simp_all
  | dropReceiver =>
      simp [call, dropReceiver, gone] at registered

/-- A call keeps a queue within its depth. -/
theorem length_queue_call
    {client : Client}
    (bounded : client.queue.length ≤ depth)
    (next : ClientCall) :
    (client.call next).queue.length ≤ depth := by
  have offer (frame : Frame) :
      (client.offered frame).queue.length ≤ depth := by
    rw [offered_eq]
    split
    · next fits =>
        have room : client.queue.length < depth := by
          simpa [hasRoom] using fits.2
        simpa using Nat.succ_le_of_lt room
    · exact bounded
  cases next with
  | remove =>
      exact bounded
  | offer frame =>
      exact offer frame
  | broadcast frame =>
      simp only [call, heard]
      split
      · split
        · exact offer frame
        · exact bounded
      · exact bounded
  | receive =>
      simp only [call, receive]
      split
      · exact bounded
      · split
        · next frame rest shape =>
            rw [shape, List.length_cons] at bounded
            exact Nat.le_of_succ_le bounded
        · exact bounded
  | dropReceiver =>
      exact Nat.zero_le _

/-- While somebody receives, a call takes from the front of a queue and adds
what it offers at the end. -/
theorem takes_append_queue_call
    {client : Client}
    {next : ClientCall}
    (receives : (client.call next).receiving = true) :
    client.takes next ++ (client.call next).queue =
      client.queue ++ client.finds next := by
  have before := receiving_of_call receives
  have offer (frame : Frame) :
      (client.offered frame).queue =
        client.queue ++ if client.hasRoom then [frame] else [] := by
    rw [offered_eq]
    by_cases room : client.hasRoom <;> simp [before, room]
  cases next with
  | remove =>
      simp [takes, call, removed, finds]
  | offer frame =>
      exact offer frame
  | broadcast frame =>
      by_cases registered : client.registered
      · simpa [takes, call, heard, finds, registered, before] using offer frame
      · simp [takes, call, heard, finds, registered]
  | receive =>
      cases queue : client.queue with
      | nil =>
          cases registered : client.registered <;>
            simp [takes, call, finds, receive, before, queue, registered]
      | cons frame rest =>
          simp [takes, call, finds, receive, before, queue]
  | dropReceiver =>
      simp [call, dropReceiver] at receives

/-! ## Calls one after the other -/

theorem length_queue_after
    (number : Nat)
    (calls : List ClientCall) :
    (after number calls).queue.length ≤ depth := by
  induction calls using List.reverseRecOn with
  | nil =>
      exact Nat.zero_le _
  | append_singleton calls next inductionHypothesis =>
      rw [after_concat]
      exact length_queue_call inductionHypothesis next

/-- While somebody receives, nothing that was offered to a queue with room is
lost, doubled or put out of order. -/
theorem taken_append_queue
    {number : Nat}
    {calls : List ClientCall}
    (receives : (after number calls).receiving = true) :
    taken number calls ++ (after number calls).queue = found number calls := by
  induction calls using List.reverseRecOn with
  | nil =>
      rfl
  | append_singleton calls next inductionHypothesis =>
      rw [after_concat] at receives ⊢
      have earlier := inductionHypothesis (receiving_of_call receives)
      simp only [taken, found, Run.yielded_concat] at earlier ⊢
      rw [List.append_assoc]
      have moved := takes_append_queue_call receives
      simp only [after] at earlier moved ⊢
      rw [moved, ← List.append_assoc, earlier]

/-- The same client under another number. -/
def renumber (number : Nat) (client : Client) : Client :=
  { client with number := number }

theorem offered_renumber
    (number : Nat)
    (frame : Frame)
    (client : Client) :
    (client.renumber number).offered frame =
      (client.offered frame).renumber number := by
  by_cases joins : client.receiving ∧ client.hasRoom
  · rw [offered_eq, offered_eq, if_pos joins]
    exact if_pos joins
  · rw [offered_eq, offered_eq, if_neg joins]
    exact if_neg joins

theorem receive_renumber
    (number : Nat)
    (client : Client) :
    (client.renumber number).receive =
      (client.receive.1, client.receive.2.renumber number) := by
  obtain ⟨own, registered, receiving, queue⟩ := client
  cases receiving <;> cases queue <;> rfl

theorem call_renumber
    (number : Nat)
    (client : Client)
    (next : ClientCall) :
    (client.renumber number).call next =
      (client.call next).renumber number := by
  cases next with
  | remove =>
      rfl
  | offer frame =>
      exact offered_renumber number frame client
  | broadcast frame =>
      obtain ⟨own, registered, receiving, queue⟩ := client
      cases registered
      · rfl
      · cases receiving
        · rfl
        · exact offered_renumber number frame ⟨own, true, true, queue⟩
  | receive =>
      simp only [call, receive_renumber]
  | dropReceiver =>
      rfl

theorem takes_renumber
    (number : Nat)
    (client : Client)
    (next : ClientCall) :
    (client.renumber number).takes next = client.takes next := by
  cases next with
  | receive =>
      simp only [takes, receive_renumber]
  | _ =>
      rfl

/-- What calls make of a client does not depend on its number. -/
theorem after_renumber
    (number other : Nat)
    (calls : List ClientCall) :
    after other calls = (after number calls).renumber other ∧
      taken other calls = taken number calls := by
  induction calls using List.reverseRecOn with
  | nil =>
      exact ⟨rfl, rfl⟩
  | append_singleton calls next inductionHypothesis =>
      obtain ⟨same, sameTaken⟩ := inductionHypothesis
      refine ⟨by simp only [after_concat, same, call_renumber], ?_⟩
      simp only [taken, Run.yielded_concat] at sameTaken ⊢
      simp only [after] at same
      rw [sameTaken, same, takes_renumber]

end Client

namespace Registry

/-! ## What a call means for one client -/

/-- Whether there is room in the queue of a client. -/
def hasRoom (registry : Registry) (number : Nat) : Bool :=
  (registry.client? number).any Client.hasRoom

/-- The numbers that a call hands out. -/
def hands (registry : Registry) : RegistryMove → List Nat
  | .connect => [registry.connect.1]
  | _ => []

/-- The numbers of the clients that are registered before a call and not
afterwards. -/
def removes (registry : Registry) (next : RegistryMove) : List Nat :=
  (registry.members.map Client.number).filter fun number =>
    ! (registry.move next).isMember number

/-- The frames that a call offers to a client while its queue has room. -/
def finds (registry : Registry) (number : Nat) : RegistryMove → List Frame
  | .offer offering frame =>
      if offering = number ∧ registry.hasRoom number then [frame] else []
  | .broadcast frame =>
      if registry.isMember number ∧ registry.hasRoom number then [frame]
      else []
  | _ => []

/-- What a call means for a client that has registered. -/
def concerns
    (registry : Registry)
    (number : Nat)
    (next : RegistryMove) : List ClientCall :=
  if (registry.client? number).isSome then (next.callOn? number).toList else []

/-- The numbers that calls hand out. -/
def handed (registry : Registry) (list : List RegistryMove) : List Nat :=
  Run.yielded move hands registry list

/-- The numbers of the clients that calls remove. -/
def removals (registry : Registry) (list : List RegistryMove) : List Nat :=
  Run.yielded move removes registry list

/-- The frames that calls offer to a client while its queue has room. -/
def found
    (number : Nat)
    (registry : Registry)
    (list : List RegistryMove) : List Frame :=
  Run.yielded move (fun registry next => registry.finds number next) registry
    list

/-- What calls mean for a client since it registered. -/
def callsOn
    (number : Nat)
    (registry : Registry)
    (list : List RegistryMove) : List ClientCall :=
  Run.yielded move (fun registry next => registry.concerns number next)
    registry list

@[simp] theorem moves_concat
    (registry : Registry)
    (list : List RegistryMove)
    (next : RegistryMove) :
    registry.moves (list ++ [next]) = (registry.moves list).move next := by
  simp [moves]

variable
  {registry : Registry}
  {number : Nat}
  {client : Client}

/-- A change reaches the one client with its number. -/
theorem client?_change_iff
    (registry : Registry)
    (update : Client → Client)
    (keeps : ∀ client, (update client).number = client.number)
    (changing number : Nat) :
    (registry.change changing update).client? number =
      (registry.client? number).map fun client =>
        if changing = number then update client else client := by
  by_cases same : changing = number
  · subst changing
    simpa using client?_change_self keeps
  · simp only [if_neg same, Option.map_id']
    exact client?_change_of_ne keeps fun other => same other.symm

theorem client?_disconnect
    (registry : Registry)
    (leaving number : Nat) :
    (registry.disconnect leaving).2.1.client? number =
      (registry.client? number).map fun client =>
        if leaving = number then client.removed else client := by
  unfold disconnect
  split
  · exact client?_change_iff registry Client.removed (fun _ => rfl) leaving
      number
  · next notMember =>
      cases present : registry.client? number with
      | none =>
          rfl
      | some client =>
          by_cases same : leaving = number
          · subst leaving
            have gone : client.registered = false := by
              simpa [isMember, present] using notMember
            have already : client.removed = client := by
              rw [Client.removed, ← gone]
            simp [already]
          · simp [same]

theorem client?_disconnectAll
    (leaving : List Nat)
    (registry : Registry)
    (number : Nat) :
    (registry.disconnectAll leaving).1.client? number =
      (registry.client? number).map fun client =>
        if number ∈ leaving then client.removed else client := by
  induction leaving generalizing registry with
  | nil =>
      simp [disconnectAll]
  | cons first rest inductionHypothesis =>
      simp only [disconnectAll, inductionHypothesis, client?_disconnect,
        Option.map_map]
      congr 1
      funext client
      by_cases same : first = number
      · simp [same, Client.removed]
      · have different : number ≠ first := fun other => same other.symm
        simp [same, different]

theorem client?_offer
    (registry : Registry)
    (offering : Nat)
    (frame : Frame)
    (number : Nat) :
    (registry.offer offering frame).2.client? number =
      (registry.client? number).map fun client =>
        if offering = number then client.offered frame else client :=
  client?_change_iff registry _ (number_offered frame) offering number

theorem client?_receive
    (registry : Registry)
    (receiving number : Nat) :
    (registry.receive receiving).2.client? number =
      (registry.client? number).map fun client =>
        if receiving = number then client.receive.2 else client := by
  unfold receive
  split
  · next unknown =>
      cases present : registry.client? number with
      | none =>
          rfl
      | some client =>
          have different : receiving ≠ number := by
            rintro rfl
            simp [unknown] at present
          simp [different]
  · exact client?_change_iff registry _ number_receive receiving number

theorem client?_dropReceiver
    (registry : Registry)
    (dropping number : Nat) :
    (registry.dropReceiver dropping).2.client? number =
      (registry.client? number).map fun client =>
        if dropping = number then client.dropReceiver else client :=
  client?_change_iff registry Client.dropReceiver (fun _ => rfl) dropping number

theorem client?_offerAll
    {offering : List Nat}
    (distinct : offering.Nodup)
    (frame : Frame)
    (registry : Registry)
    (number : Nat) :
    (offerAll frame offering registry).2.2.client? number =
      (registry.client? number).map fun client =>
        if number ∈ offering then client.offered frame else client := by
  induction offering generalizing registry with
  | nil =>
      simp [offerAll]
  | cons first rest inductionHypothesis =>
      obtain ⟨absent, distinct⟩ := List.nodup_cons.mp distinct
      simp only [offerAll, inductionHypothesis distinct, client?_offer,
        Option.map_map]
      congr 1
      funext client
      by_cases same : first = number
      · subst first
        simp [absent]
      · have different : number ≠ first := fun other => same other.symm
        simp [same, different]

/-- A broadcast finds those gone that nobody receives for. -/
theorem mem_gone_iff
    {offering : List Nat}
    (distinct : offering.Nodup)
    (frame : Frame)
    (registry : Registry)
    (number : Nat) :
    number ∈ (offerAll frame offering registry).2.1 ↔
      number ∈ offering ∧
        (registry.client? number).map Client.offer = some .gone := by
  induction offering generalizing registry with
  | nil =>
      simp [offerAll]
  | cons first rest inductionHypothesis =>
      obtain ⟨absent, distinct⟩ := List.nodup_cons.mp distinct
      have later := inductionHypothesis distinct (registry.offer first frame).2
      rw [client?_offer] at later
      by_cases same : first = number
      · subst first
        have notLater :
            number ∉
              (offerAll frame rest (registry.offer number frame).2).2.1 := by
          simp [later, absent]
        have told :
            (registry.offer number frame).1 =
              (registry.client? number).map Client.offer := rfl
        simp only [offerAll, told, List.mem_cons, true_or, true_and]
        split
        · next isGone =>
            simp [isGone]
        · next notGone =>
            simp [notLater, notGone]
      · have different : number ≠ first := fun other => same other.symm
        simp only [if_neg same, Option.map_id'] at later
        simp only [offerAll, List.mem_cons, different, false_or]
        split
        · simpa [different] using later
        · exact later

/-- Every client is found under its number. -/
theorem client?_of_mem
    (numbered : registry.Numbered)
    (member : client ∈ registry.clients) :
    registry.client? client.number = some client := by
  have distinct : (registry.clients.map Client.number).Nodup := by
    rw [show registry.clients.map Client.number = _ from numbered]
    exact List.nodup_range'
  obtain ⟨found, isFound⟩ :
      ∃ found, registry.client? client.number = some found := by
    rw [← Option.isSome_iff_exists, client?, List.find?_isSome]
    exact ⟨client, member, by simp⟩
  have same : found = client :=
    List.inj_on_of_nodup_map distinct (List.mem_of_find?_eq_some isFound)
      member (number_of_client? isFound)
  rw [isFound, same]

/-- The members are the clients that are registered. -/
theorem mem_members_iff
    (numbered : registry.Numbered)
    (number : Nat) :
    number ∈ registry.members.map Client.number ↔
      registry.isMember number = true := by
  simp only [isMember, Option.any_eq_true, members, List.mem_map,
    List.mem_filter]
  constructor
  · rintro ⟨client, ⟨member, registered⟩, rfl⟩
    exact ⟨client, client?_of_mem numbered member, registered⟩
  · rintro ⟨client, isFound, registered⟩
    exact ⟨client, ⟨List.mem_of_find?_eq_some isFound, registered⟩,
      number_of_client? isFound⟩

/-- A broadcast is heard by every client on its own. -/
theorem client?_broadcast
    (numbered : registry.Numbered)
    (frame : Frame)
    (number : Nat) :
    (registry.broadcast frame).2.1.client? number =
      (registry.client? number).map (Client.heard frame) := by
  have distinct := nodup_members numbered
  simp only [broadcast, broadcastTo, client?_disconnectAll,
    client?_offerAll distinct, Option.map_map, mem_gone_iff distinct,
    mem_members_iff numbered]
  cases present : registry.client? number with
  | none =>
      rfl
  | some client =>
      have isMember : registry.isMember number = client.registered := by
        simp [Registry.isMember, present]
      have gone :
          client.offer = .gone ↔ client.receiving = false := by
        simp only [Client.offer]
        split <;> [simp_all; split <;> simp_all]
      simp only [Option.map_some, Function.comp_apply, isMember,
        Option.some.injEq, gone, Client.heard]
      cases registered : client.registered <;>
        cases receives : client.receiving <;>
        simp [Client.offered_eq, receives]

/-- A call makes of a client what it means for the client. -/
theorem client?_move_of_some
    (numbered : registry.Numbered)
    (present : registry.client? number = some client)
    (next : RegistryMove) :
    (registry.move next).client? number =
      some ((next.callOn? number).elim client client.call) := by
  cases next with
  | connect =>
      simp only [move, connect, client?, List.find?_append]
      rw [client?] at present
      rw [present]
      rfl
  | disconnect leaving =>
      simp only [move, client?_disconnect, present, RegistryMove.callOn?]
      split <;> rfl
  | offer offering frame =>
      simp only [move, client?_offer, present, RegistryMove.callOn?]
      split <;> rfl
  | broadcast frame =>
      simp only [move, client?_broadcast numbered, present]
      rfl
  | receive receiving =>
      simp only [move, client?_receive, present, RegistryMove.callOn?]
      split <;> rfl
  | dropReceiver dropping =>
      simp only [move, client?_dropReceiver, present, RegistryMove.callOn?]
      split <;> rfl

/-- A number that nobody has is only ever given to a new client. -/
theorem client?_move_of_none
    (numbered : registry.Numbered)
    (absent : registry.client? number = none)
    (next : RegistryMove) :
    (registry.move next).client? number =
      if number ∈ registry.hands next then some (.fresh number) else none := by
  cases next with
  | connect =>
      rw [client?] at absent
      simp only [move, connect, client?, List.find?_append, absent, hands,
        List.mem_singleton, Option.none_or]
      by_cases same : number = registry.nextNumber
      · simp [same, Client.fresh]
      · have different : registry.nextNumber ≠ number :=
          fun other => same other.symm
        simp [Client.fresh, same, different]
  | disconnect leaving =>
      simp [move, client?_disconnect, absent, hands]
  | offer offering frame =>
      simp [move, client?_offer, absent, hands]
  | broadcast frame =>
      simp [move, client?_broadcast numbered, absent, hands]
  | receive receiving =>
      simp [move, client?_receive, absent, hands]
  | dropReceiver dropping =>
      simp [move, client?_dropReceiver, absent, hands]

/-- No call takes a client out of the books. -/
theorem isSome_client?_move
    (numbered : registry.Numbered)
    (next : RegistryMove)
    (number : Nat) :
    ((registry.move next).client? number).isSome =
      ((registry.client? number).isSome ||
        decide (number ∈ registry.hands next)) := by
  cases present : registry.client? number with
  | none =>
      rw [client?_move_of_none numbered present]
      split <;> simp_all
  | some client =>
      rw [client?_move_of_some numbered present]
      rfl

/-! ## Runs -/

/-- What a registry keeps of a client agrees with the client alone: it was
driven by these calls, took these frames, and was offered these while its queue
had room. -/
inductive Follows
    (registry : Registry)
    (number : Nat) :
    List ClientCall → List Frame → List Frame → Prop where
  /-- The client has not registered. -/
  | absent (unknown : registry.client? number = none) :
      Follows registry number [] [] []
  | present
      (calls : List ClientCall)
      (known : registry.client? number = some (.after number calls)) :
      Follows registry number calls (Client.taken number calls)
        (Client.found number calls)

/-- A client that has registered is the client alone. -/
theorem Follows.of_known
    {calls : List ClientCall}
    {taken found : List Frame}
    (follows : registry.Follows number calls taken found)
    (known : registry.client? number = some client) :
    client = .after number calls ∧ taken = Client.taken number calls ∧
      found = Client.found number calls := by
  cases follows with
  | absent unknown =>
      simp [unknown] at known
  | present calls isAfter =>
      exact ⟨Option.some.inj (known.symm.trans isAfter), rfl, rfl⟩

/-- A number that nobody has takes nothing. -/
theorem takes_of_unknown
    (unknown : registry.client? number = none)
    (next : RegistryMove) :
    registry.takes number next = [] := by
  cases next with
  | receive receiving =>
      simp only [takes]
      split
      · next same =>
          subst receiving
          simp [receive, unknown]
      · rfl
  | _ =>
      rfl

/-- A client takes in a call what it takes in the call that concerns it. -/
theorem takes_of_known
    (known : registry.client? number = some client)
    (next : RegistryMove) :
    registry.takes number next =
      (next.callOn? number).elim [] client.takes := by
  cases next with
  | receive receiving =>
      simp only [takes, RegistryMove.callOn?]
      split
      · next same =>
          subst receiving
          simp only [receive, known]
          rfl
      · rfl
  | disconnect leaving =>
      simp only [RegistryMove.callOn?]
      split <;> rfl
  | offer offering frame =>
      simp only [RegistryMove.callOn?]
      split <;> rfl
  | dropReceiver dropping =>
      simp only [RegistryMove.callOn?]
      split <;> rfl
  | connect =>
      rfl
  | broadcast frame =>
      rfl

/-- A client is offered in a call what the call that concerns it offers. -/
theorem finds_of_known
    (known : registry.client? number = some client)
    (next : RegistryMove) :
    registry.finds number next =
      (next.callOn? number).elim [] client.finds := by
  cases next with
  | offer offering frame =>
      by_cases same : offering = number <;>
        simp [finds, RegistryMove.callOn?, hasRoom, known, Client.finds, same]
  | broadcast frame =>
      simp [finds, RegistryMove.callOn?, hasRoom, isMember, known,
        Client.finds]
  | disconnect leaving =>
      simp only [RegistryMove.callOn?]
      split <;> rfl
  | receive receiving =>
      simp only [RegistryMove.callOn?]
      split <;> rfl
  | dropReceiver dropping =>
      simp only [RegistryMove.callOn?]
      split <;> rfl
  | connect =>
      rfl

/-- A registry goes on keeping a client as it should. -/
theorem Follows.move
    {calls : List ClientCall}
    {taken found : List Frame}
    (numbered : registry.Numbered)
    (follows : registry.Follows number calls taken found)
    (next : RegistryMove) :
    (registry.move next).Follows number
      (calls ++ registry.concerns number next)
      (taken ++ registry.takes number next)
      (found ++ registry.finds number next) := by
  cases follows with
  | absent unknown =>
      have noConcern : registry.concerns number next = [] := by
        simp [concerns, unknown]
      have nothingFound : registry.finds number next = [] := by
        cases next <;> simp [finds, hasRoom, unknown]
      rw [noConcern, takes_of_unknown unknown, nothingFound]
      have becomes := client?_move_of_none numbered unknown next
      split at becomes
      · exact .present [] becomes
      · exact .absent becomes
  | present calls known =>
      have becomes := client?_move_of_some numbered known next
      have concern :
          registry.concerns number next = (next.callOn? number).toList := by
        simp [concerns, known]
      rw [concern, takes_of_known known, finds_of_known known]
      cases means : next.callOn? number with
      | none =>
          rw [means] at becomes
          simpa using Follows.present calls becomes
      | some call =>
          rw [means] at becomes
          have follows :
              (registry.move next).Follows number (calls ++ [call])
                (Client.taken number (calls ++ [call]))
                (Client.found number (calls ++ [call])) := by
            refine .present _ ?_
            rw [becomes, Client.after_concat]
            rfl
          rw [Client.taken, Client.found, Run.yielded_concat,
            Run.yielded_concat] at follows
          exact follows

theorem numbered_reached
    (channel : String)
    (list : List RegistryMove) :
    ((empty channel).moves list).Numbered :=
  numbered_moves (show (empty channel).Numbered from rfl) list

/-- A registry keeps every client as it should after every run. -/
theorem follows_moves
    (channel : String)
    (list : List RegistryMove)
    (number : Nat) :
    ((empty channel).moves list).Follows number
      (callsOn number (empty channel) list)
      (taken number (empty channel) list)
      (found number (empty channel) list) := by
  induction list using List.reverseRecOn with
  | nil =>
      exact .absent rfl
  | append_singleton list next inductionHypothesis =>
      have moved := inductionHypothesis.move (numbered_reached channel list) next
      rw [moves_concat]
      simp only [callsOn, taken, found, Run.yielded_concat] at moved ⊢
      exact moved

theorem handed_concat
    (registry : Registry)
    (list : List RegistryMove)
    (next : RegistryMove) :
    registry.handed (list ++ [next]) =
      registry.handed list ++ (registry.moves list).hands next :=
  Run.yielded_concat _ _ registry list next

theorem removals_concat
    (registry : Registry)
    (list : List RegistryMove)
    (next : RegistryMove) :
    registry.removals (list ++ [next]) =
      registry.removals list ++ (registry.moves list).removes next :=
  Run.yielded_concat _ _ registry list next

/-- The numbers from one on are taken. -/
theorem isSome_client?_iff
    (numbered : registry.Numbered)
    (number : Nat) :
    (registry.client? number).isSome = true ↔
      1 ≤ number ∧ number ≤ registry.clients.length := by
  have member :
      number ∈ registry.clients.map Client.number ↔
        1 ≤ number ∧ number < 1 + registry.clients.length := by
    rw [show registry.clients.map Client.number = _ from numbered,
      List.mem_range'_1]
  have same :
      (registry.client? number).isSome = true ↔
        number ∈ registry.clients.map Client.number := by
    simp [client?, List.find?_isSome]
  rw [same, member]
  omega

/-- Whoever registers is known afterwards. -/
theorem client?_connect
    (numbered : registry.Numbered) :
    (registry.move .connect).client? registry.nextNumber =
      some (.fresh registry.nextNumber) := by
  have absent : registry.client? registry.nextNumber = none := by
    rw [← Option.not_isSome_iff_eq_none, isSome_client?_iff numbered]
    simp [nextNumber]
  rw [client?_move_of_none numbered absent]
  exact if_pos (List.mem_singleton.mpr rfl)

/-- A call makes as many clients as it hands out numbers. -/
theorem length_clients_move
    (numbered : registry.Numbered)
    (next : RegistryMove) :
    (registry.move next).clients.length =
      registry.clients.length + (registry.hands next).length := by
  by_cases connects : next = .connect
  · subst connects
    simp [move, connect, hands]
  · have nothing : registry.hands next = [] := by
      cases next <;> simp_all [hands]
    have same (number : Nat) :
        (1 ≤ number ∧ number ≤ (registry.move next).clients.length) ↔
          (1 ≤ number ∧ number ≤ registry.clients.length) := by
      rw [← isSome_client?_iff numbered,
        ← isSome_client?_iff (numbered_move numbered next),
        isSome_client?_move numbered, nothing]
      simp
    have before := same registry.clients.length
    have after := same (registry.move next).clients.length
    rw [nothing, List.length_nil]
    omega

/-- Numbers are handed out from one on, to as many clients as there are. -/
theorem handed_eq
    (channel : String)
    (list : List RegistryMove) :
    (empty channel).handed list =
      List.range' 1 ((empty channel).moves list).clients.length := by
  induction list using List.reverseRecOn with
  | nil =>
      rfl
  | append_singleton list next inductionHypothesis =>
      rw [handed_concat, moves_concat, inductionHypothesis,
        length_clients_move (numbered_reached channel list)]
      cases next with
      | connect =>
          have hands :
              ((empty channel).moves list).hands .connect =
                [1 + ((empty channel).moves list).clients.length] := by
            simp [Registry.hands, connect, nextNumber, Nat.add_comm]
          rw [hands, List.length_singleton, List.range'_1_concat]
      | _ =>
          simp [hands]

/-- The numbers that were handed out are those of clients. -/
theorem mem_handed_iff
    (channel : String)
    (list : List RegistryMove)
    (number : Nat) :
    number ∈ (empty channel).handed list ↔
      (((empty channel).moves list).client? number).isSome = true := by
  rw [handed_eq, isSome_client?_iff (numbered_reached channel list),
    List.mem_range'_1]
  omega

theorem mem_removes_iff
    (numbered : registry.Numbered)
    (next : RegistryMove)
    (number : Nat) :
    number ∈ registry.removes next ↔
      registry.isMember number = true ∧
        (registry.move next).isMember number = false := by
  simp [removes, mem_members_iff numbered]

/-- A client was removed if it is there and not registered. -/
theorem mem_removals_iff
    (channel : String)
    (list : List RegistryMove)
    (number : Nat) :
    number ∈ (empty channel).removals list ↔
      (((empty channel).moves list).client? number).isSome = true ∧
        ((empty channel).moves list).isMember number = false := by
  induction list using List.reverseRecOn with
  | nil =>
      simp [removals, Run.yielded, moves, client?, empty]
  | append_singleton list next inductionHypothesis =>
      have numbered := numbered_reached channel list
      rw [removals_concat, moves_concat, List.mem_append,
        inductionHypothesis, mem_removes_iff numbered]
      cases present : ((empty channel).moves list).client? number with
      | none =>
          have becomes := client?_move_of_none numbered present next
          simp only [isMember, present, becomes]
          split <;> simp [Client.fresh]
      | some client =>
          have becomes := client?_move_of_some numbered present next
          simp only [isMember, present, becomes]
          -- A client that was removed before is not registered again.
          cases registered : client.registered
          · have stays :
                ((next.callOn? number).elim client client.call).registered =
                  false := by
              cases next.callOn? number with
              | none =>
                  exact registered
              | some call =>
                  by_contra again
                  rw [Bool.not_eq_false] at again
                  have := Client.registered_of_call again
                  simp [registered] at this
            simp [registered, stays]
          · simp [registered]

/-- No client is removed twice. -/
theorem nodup_removals
    (channel : String)
    (list : List RegistryMove) :
    ((empty channel).removals list).Nodup := by
  induction list using List.reverseRecOn with
  | nil =>
      exact List.nodup_nil
  | append_singleton list next inductionHypothesis =>
      have numbered := numbered_reached channel list
      rw [removals_concat]
      refine inductionHypothesis.append ((nodup_members numbered).filter _) ?_
      intro number removedBefore removedNow
      have gone := ((mem_removals_iff channel list number).mp removedBefore).2
      have there := ((mem_removes_iff numbered next number).mp removedNow).1
      simp [gone] at there

theorem disconnect_fst
    (leaving : Nat) :
    (registry.disconnect leaving).1 = registry.isMember leaving := by
  unfold disconnect
  split <;> simp_all

/-- A call that removes one client removes it if it says so, and no other. -/
theorem removes_disconnect
    (numbered : registry.Numbered)
    (leaving : Nat) :
    registry.removes (.disconnect leaving) =
      if (registry.disconnect leaving).1 then [leaving] else [] := by
  have distinct : (registry.removes (.disconnect leaving)).Nodup :=
    (nodup_members numbered).filter _
  have members (number : Nat) :
      number ∈ registry.removes (.disconnect leaving) ↔
        number = leaving ∧ registry.isMember leaving = true := by
    rw [mem_removes_iff numbered]
    simp only [isMember, move, client?_disconnect]
    by_cases same : leaving = number
    · subst leaving
      cases registry.client? number <;> simp [Client.removed]
    · have different : number ≠ leaving := fun other => same other.symm
      cases registry.client? number <;> simp [same, different]
  rw [disconnect_fst]
  split
  · next member =>
      have only :
          (registry.removes (.disconnect leaving)).Perm [leaving] := by
        rw [List.perm_ext_iff_of_nodup distinct (List.nodup_singleton leaving)]
        simp [members, member]
      exact List.perm_singleton.mp only
  · next notMember =>
      refine List.eq_nil_iff_forall_not_mem.mpr fun number removed => ?_
      exact notMember ((members number).mp removed).2

/-- What a registry without clients owes to those that come, over a run. -/
structure Serves (channel : String) (list : List RegistryMove) : Prop where
  /-- Numbers are handed out from one on. -/
  numbers :
    (empty channel).handed list =
      List.range' 1 ((empty channel).handed list).length
  removedOnce :
    ((empty channel).removals list).Nodup
  /-- A client can be removed if it has registered and was not removed, and no
  call says otherwise. -/
  removal :
    ∀ number,
      let reached := (empty channel).moves list
      ((reached.disconnect number).1 = true ↔
          number ∈ (empty channel).handed list ∧
            number ∉ (empty channel).removals list) ∧
        reached.removes (.disconnect number) =
          if (reached.disconnect number).1 then [number] else []
  bounded :
    ∀ number,
      (((empty channel).moves list).waiting number).length ≤ Client.depth
  /-- While somebody receives, nothing that found room is lost. -/
  stream :
    ∀ number client,
      ((empty channel).moves list).client? number = some client →
        client.receiving = true →
          taken number (empty channel) list ++ client.queue =
            found number (empty channel) list
  /-- Clients to which the same happens in two runs are served alike. -/
  apart :
    ∀ number client otherChannel otherList other otherClient,
      ((empty channel).moves list).client? number = some client →
        ((empty otherChannel).moves otherList).client? other =
            some otherClient →
          callsOn number (empty channel) list =
              callsOn other (empty otherChannel) otherList →
            taken number (empty channel) list =
                taken other (empty otherChannel) otherList ∧
              otherClient = client.renumber other

/-- In every run of calls a registry hands out each number once, removes each
client at most once, keeps queues short, loses nothing that found room, and
serves each client as if there were no other. -/
theorem every_run_serves
    (channel : String)
    (list : List RegistryMove) :
    Serves channel list where
  numbers := by
    rw [handed_eq, List.length_range']
  removedOnce := nodup_removals channel list
  removal := by
    intro number reached
    refine ⟨?_, removes_disconnect (numbered_reached channel list) number⟩
    rw [disconnect_fst, mem_handed_iff, mem_removals_iff]
    cases present : reached.client? number <;>
      simp_all [isMember, reached]
  bounded := by
    intro number
    cases known : ((empty channel).moves list).client? number with
    | none =>
        simp [waiting, known]
    | some client =>
        obtain ⟨rfl, _⟩ := (follows_moves channel list number).of_known known
        simp only [waiting, known]
        exact Client.length_queue_after number _
  stream := by
    intro number client known receives
    obtain ⟨rfl, isTaken, isFound⟩ :=
      (follows_moves channel list number).of_known known
    rw [isTaken, isFound]
    exact Client.taken_append_queue receives
  apart := by
    intro number client otherChannel otherList other otherClient known
      otherKnown sameCalls
    obtain ⟨rfl, isTaken, _⟩ :=
      (follows_moves channel list number).of_known known
    obtain ⟨rfl, otherTaken, _⟩ :=
      (follows_moves otherChannel otherList other).of_known otherKnown
    obtain ⟨sameClient, sameTaken⟩ :=
      Client.after_renumber number other
        (callsOn number (empty channel) list)
    rw [isTaken, otherTaken, ← sameCalls]
    exact ⟨sameTaken.symm, sameClient⟩

/-- A client whose receiver is gone is removed by the next broadcast, and the
other one does not notice. -/
example :
    let list : List RegistryMove :=
      [.connect, .connect, .dropReceiver 1, .broadcast (.echo "still there?"),
        .disconnect 1, .receive 2]
    (empty "push").removals list = [1] ∧
      taken 2 (empty "push") list = [.echo "still there?"] := by
  decide

end Registry

end PositionFeed
