import PositionFeed.Push.Registry

namespace PositionFeed

/-!
# One connection of a push server

A connection has two halves.  The reader answers the texts of its client, and
when the server stops it queues a close frame, for which it waits no longer than
a grace period.  It removes its client only then, so a broadcast may still queue
a frame behind the close frame.  The writer takes frames from the client's queue
one at a time and sends each before it takes the next; it ends after a close
frame, after a failure, or when the queue is empty and nobody can fill it any
more.

A connection moves by what happens to it.  A move that is not possible where
the connection stands changes nothing.
-/

/-- Where the reader of a connection is. -/
inductive ReaderPhase where
  /-- The client has not finished its handshake. -/
  | handshaking
  /-- It waits for the client. -/
  | reading
  /-- It waits for room for the close frame. -/
  | closing
  /-- It has queued the close frame and has yet to remove its client. -/
  | leaving
  /-- It has removed its client and waits for the writer. -/
  | draining
  | done
  /-- It was broken off. -/
  | aborted
  deriving Repr, DecidableEq

/-- A connection and its client. -/
structure Connection where
  reader : ReaderPhase
  /-- The number of the client, once it is registered. -/
  client : Option Nat
  /-- Whether the writer runs. -/
  writing : Bool
  /-- The frame that the writer has taken and is sending. -/
  outgoing : Option Frame
  deriving Repr, DecidableEq

/-- What happens to a connection. -/
inductive ConnectionMove where
  /-- The handshake ends, well or badly. -/
  | handshake (succeeds : Bool)
  /-- The client sends a text. -/
  | text (content : String)
  /-- The client sends something that is passed over. -/
  | other
  /-- The client closes, falls silent or breaks the protocol. -/
  | leave
  /-- The reader sees that the server stops. -/
  | stop
  /-- There is room for the close frame. -/
  | closeQueued
  /-- The reader removes its client after it queued the close frame. -/
  | depart
  /-- The grace period for the close frame is over. -/
  | closeExpired
  /-- The writer takes the next frame. -/
  | take
  /-- The frame that the writer has taken is sent, or cannot be sent. -/
  | sent (succeeds : Bool)
  /-- The writer finds its queue closed. -/
  | writerEnds
  /-- The reader finds that the writer has ended. -/
  | finish
  /-- The server breaks the reader off. -/
  | abort
  deriving Repr, DecidableEq

namespace Connection

/-- A connection that was just accepted. -/
def fresh : Connection := ⟨.handshaking, none, false, none⟩

/-- Whether a reader still does something. -/
def isActive (connection : Connection) : Bool :=
  match connection.reader with
  | .done => false
  | .aborted => false
  | _ => true

def endsConnection : Frame → Bool
  | .close .. => true
  | .text _ => false

/-- The end of the handshake. -/
def handshake (succeeds : Bool) (connection : Connection)
    (registry : Registry) : Connection × Registry × List Event :=
  if succeeds then
    let (number, registry, events) := registry.connect
    ({ connection with
        reader := .reading
        client := some number
        writing := true },
      registry, events ++ [.notice (.clientConnected number registry.size)])
  else ({ connection with reader := .done }, registry, [])

/-- The reader removes its client. -/
def depart (connection : Connection) (number : Nat) (registry : Registry) :
    Connection × Registry × List Event :=
  let (_, registry, events) := registry.disconnect number
  ({ connection with reader := .draining }, registry, events)

/-- The writer ends, and with it the receiver of its queue. -/
def endWriter (connection : Connection) (number : Nat) (registry : Registry) :
    Connection × Registry :=
  ({ connection with writing := false, outgoing := none },
    (registry.dropReceiver number).2)

/-- The writer takes the next frame, if it has sent the one before. -/
def take (connection : Connection) (number : Nat) (registry : Registry) :
    Connection × Registry :=
  if connection.writing ∧ connection.outgoing = none then
    match registry.receive number with
    | (.frame frame, registry) =>
        ({ connection with outgoing := some frame }, registry)
    | _ => (connection, registry)
  else (connection, registry)

/-- The writer is done with the frame that it had taken. -/
def sent (succeeds : Bool) (connection : Connection) (number : Nat)
    (registry : Registry) : Connection × Registry :=
  match connection.outgoing with
  | some frame =>
      if succeeds ∧ ¬ endsConnection frame then
        ({ connection with outgoing := none }, registry)
      else connection.endWriter number registry
  | none => (connection, registry)

/-- Whether nothing is left in a queue and nobody can fill it. -/
def queueIsClosed (connection : Connection) (number : Nat)
    (registry : Registry) : Bool :=
  ! registry.isMember number &&
    (connection.reader == .draining || connection.reader == .aborted) &&
    (registry.client? number).all (·.queue.isEmpty)

def moveClient (move : ConnectionMove) (connection : Connection)
    (number : Nat) (registry : Registry) :
    Connection × Registry × List Event :=
  match connection.reader, move with
  | .reading, .text content =>
      (connection, (registry.offer number (.echo content)).2, [])
  | .reading, .leave => connection.depart number registry
  | .reading, .stop => ({ connection with reader := .closing }, registry, [])
  | .closing, .closeQueued =>
      match registry.offer number .goingAway with
      | (some .full, _) => (connection, registry, [])
      | (_, registry) => ({ connection with reader := .leaving }, registry, [])
  | .leaving, .depart => connection.depart number registry
  | .closing, .closeExpired => connection.depart number registry
  | .draining, .finish =>
      if connection.writing then (connection, registry, [])
      else ({ connection with reader := .done }, registry,
        [.notice (.clientDisconnected number)])
  | _, .take =>
      let (connection, registry) := connection.take number registry
      (connection, registry, [])
  | _, .sent succeeds =>
      let (connection, registry) := connection.sent succeeds number registry
      (connection, registry, [])
  | _, .writerEnds =>
      if connection.writing ∧ connection.outgoing = none ∧
          connection.queueIsClosed number registry then
        let (connection, registry) := connection.endWriter number registry
        (connection, registry, [])
      else (connection, registry, [])
  | _, .abort =>
      if connection.isActive then
        ({ connection with reader := .aborted }, registry, [])
      else (connection, registry, [])
  | _, _ => (connection, registry, [])

def move (move : ConnectionMove) (connection : Connection)
    (registry : Registry) : Connection × Registry × List Event :=
  match connection.client with
  | some number => connection.moveClient move number registry
  | none =>
      match connection.reader, move with
      | .handshaking, .handshake succeeds =>
          connection.handshake succeeds registry
      | .handshaking, .stop => ({ connection with reader := .done }, registry, [])
      | .handshaking, .abort =>
          ({ connection with reader := .aborted }, registry, [])
      | _, _ => (connection, registry, [])

end Connection

end PositionFeed
