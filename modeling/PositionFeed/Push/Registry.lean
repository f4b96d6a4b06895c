import PositionFeed.Push.Frame
import PositionFeed.Telemetry.Notice

namespace PositionFeed

/-!
# The registry of clients

Every client has a queue with room for a few frames.  A broadcast offers a
frame to every registered client: it joins the queue where there is room, is
dropped where there is none, and a client whose receiver is gone is removed.

The registry keeps a client after its removal, because its receiver may still
take what is in the queue.  Numbers are handed out from one and never again.
-/

/-- A client, registered or not. -/
structure Client where
  number : Nat
  registered : Bool
  /-- Whether somebody still receives. -/
  receiving : Bool
  /-- The frames that were queued and not received. -/
  queue : List Frame
  deriving Repr, DecidableEq

/-- What becomes of a frame that is offered to a client. -/
inductive Offer where
  /-- It joined the queue. -/
  | queued
  /-- There was no room. -/
  | full
  /-- Nobody receives. -/
  | gone
  deriving Repr, DecidableEq

/-- What a receiver gets. -/
inductive Received where
  | frame (frame : Frame)
  /-- Nothing for now. -/
  | empty
  /-- Nothing ever again. -/
  | ended
  | nobody
  deriving Repr, DecidableEq

/-- What a broadcast came to. -/
structure Broadcast where
  /-- The clients whose queues took the frame. -/
  queued : Nat
  /-- The clients whose queues were full. -/
  dropped : Nat
  deriving Repr, DecidableEq

/-- The clients that are there, slow ones included. -/
def Broadcast.audience (broadcast : Broadcast) : Nat :=
  broadcast.queued + broadcast.dropped

/-- The clients of one push server. -/
structure Registry where
  /-- The name of its channel. -/
  channel : String
  /-- All clients so far, in the order of their numbers. -/
  clients : List Client
  deriving Repr, DecidableEq

namespace Client

/-- How many frames a queue has room for. -/
def depth : Nat := 4

/-- A client that has just registered. -/
def fresh (number : Nat) : Client := ⟨number, true, true, []⟩

/-- What becomes of a frame that the client is offered. -/
def offer (client : Client) : Offer :=
  if ¬ client.receiving then .gone
  else if client.queue.length < depth then .queued
  else .full

def offered (frame : Frame) (client : Client) : Client :=
  match client.offer with
  | .queued => { client with queue := client.queue ++ [frame] }
  | _ => client

/-- What the receiver gets, and the client afterwards. -/
def receive (client : Client) : Received × Client :=
  if ¬ client.receiving then (.nobody, client)
  else match client.queue with
    | frame :: rest => (.frame frame, { client with queue := rest })
    | [] => (if client.registered then .empty else .ended, client)

/-- The client after its receiver was dropped, with all that it held. -/
def dropReceiver (client : Client) : Client :=
  { client with receiving := false, queue := [] }

end Client

namespace Registry

/-- A registry without clients. -/
def empty (channel : String) : Registry := ⟨channel, []⟩

def members (registry : Registry) : List Client :=
  registry.clients.filter (·.registered)

/-- How many clients are registered. -/
def size (registry : Registry) : Nat := registry.members.length

/-- Whether no client is registered. -/
def isEmpty (registry : Registry) : Bool := registry.size == 0

def client? (registry : Registry) (number : Nat) : Option Client :=
  registry.clients.find? (·.number == number)

def change (number : Nat) (update : Client → Client) (registry : Registry) :
    Registry :=
  { registry with
    clients := registry.clients.map fun client =>
      if client.number = number then update client else client }

/-- What is to be seen of the size of a registry. -/
def sizeEvents (registry : Registry) : List Event :=
  [.measure (.clients registry.channel registry.size)]

/-- The number of the next client. -/
def nextNumber (registry : Registry) : Nat := registry.clients.length + 1

/-- Registers a client under the next number. -/
def connect (registry : Registry) : Nat × Registry × List Event :=
  let number := registry.nextNumber
  let registry :=
    { registry with clients := registry.clients ++ [Client.fresh number] }
  (number, registry, registry.sizeEvents)

/-- Whether the client with a number is registered. -/
def isMember (registry : Registry) (number : Nat) : Bool :=
  (registry.client? number).any (·.registered)

/-- Removes a client and says whether it was registered. -/
def disconnect (number : Nat) (registry : Registry) :
    Bool × Registry × List Event :=
  if registry.isMember number then
    let registry :=
      registry.change number fun client => { client with registered := false }
    (true, registry, registry.sizeEvents)
  else (false, registry, [])

/-- Removes clients one after the other. -/
def disconnectAll : List Nat → Registry → Registry × List Event
  | [], registry => (registry, [])
  | number :: rest, registry =>
      let (_, registry, events) := registry.disconnect number
      let (registry, later) := disconnectAll rest registry
      (registry, events ++ later)

/-- Offers a frame to the client with a number. -/
def offer (number : Nat) (frame : Frame) (registry : Registry) :
    Option Offer × Registry :=
  ((registry.client? number).map Client.offer,
    registry.change number (Client.offered frame))

/-- Counts what became of an offer. -/
def countOffer (broadcast : Broadcast) : Option Offer → Broadcast
  | some .queued => { broadcast with queued := broadcast.queued + 1 }
  | some .full => { broadcast with dropped := broadcast.dropped + 1 }
  | _ => broadcast

/-- Offers a frame to the clients with the given numbers, in that order.  The
numbers of those whose receiver is gone are returned as well. -/
def offerAll (frame : Frame) :
    List Nat → Registry → Broadcast × List Nat × Registry
  | [], registry => (⟨0, 0⟩, [], registry)
  | number :: rest, registry =>
      let (offer, registry) := registry.offer number frame
      let (broadcast, gone, registry) := offerAll frame rest registry
      (countOffer broadcast offer,
        if offer = some .gone then number :: gone else gone, registry)

/-- Offers a frame to the clients with the given numbers, in that order, and
then removes those whose receiver is gone. -/
def broadcastTo (numbers : List Nat) (frame : Frame) (registry : Registry) :
    Broadcast × Registry × List Event :=
  let (broadcast, gone, registry) := registry.offerAll frame numbers
  let (registry, events) := registry.disconnectAll gone
  (broadcast, registry, events)

/-- Offers a frame to every registered client and removes those whose receiver
is gone. -/
def broadcast (frame : Frame) (registry : Registry) :
    Broadcast × Registry × List Event :=
  registry.broadcastTo (registry.members.map (·.number)) frame

/-- What the receiver of a client gets. -/
def receive (number : Nat) (registry : Registry) : Received × Registry :=
  match registry.client? number with
  | none => (.nobody, registry)
  | some client =>
      (client.receive.1, registry.change number fun client => client.receive.2)

/-- Drops the receiver of a client and says whether it had one. -/
def dropReceiver (number : Nat) (registry : Registry) : Bool × Registry :=
  ((registry.client? number).any (·.receiving),
    registry.change number Client.dropReceiver)

end Registry

end PositionFeed
