import PositionFeed.Push.Connection
import PositionFeed.Stop.Token
import PositionFeed.Time.Span

namespace PositionFeed

/-!
# The push server

A push server accepts connections until its stop token is cancelled.  Then it
waits for its connections to end, but no longer than a grace period; those that
have not ended by then are broken off.  The stop token is a child of the stop
signal of the process, so either of the two stops the server.
-/

/-- Where the accepting half of a server is. -/
inductive AcceptPhase where
  /-- It accepts connections. -/
  | accepting
  /-- It waits for its connections to end. -/
  | draining
  /-- It is done. -/
  | stopped
  deriving Repr, DecidableEq

/-- A push server. -/
structure Server where
  /-- The name of its channel. -/
  name : String
  /-- The token that stops it. -/
  token : Token
  /-- Its clients. -/
  registry : Registry
  /-- Its connections, in the order in which they were accepted. -/
  connections : List Connection
  /-- Where its accepting half is. -/
  phase : AcceptPhase
  deriving Repr, DecidableEq

/-- What happens to a server. -/
inductive ServerMove where
  /-- A connection is accepted. -/
  | accept
  /-- Something happens to the connection at a position. -/
  | connection (position : Nat) (move : ConnectionMove)
  /-- The accepting half looks at the stop token. -/
  | lookAtToken
  /-- All connections have ended. -/
  | drained
  /-- The grace period for the connections is over. -/
  | drainExpired
  deriving Repr, DecidableEq

namespace Server

/-- How long connections are waited for when a server stops. -/
def grace : Span := .ofSeconds 2

/-- A server that listens, with a new child of the token of the stop signal. -/
def start (name : String) (parent : Token) (tokens : Tokens) :
    Server × Tokens × List Event :=
  let (token, tokens) := tokens.child parent
  ({ name := name
     token := token
     registry := .empty name
     connections := []
     phase := .accepting },
    tokens, [.notice .serverListening])

/-- Offers a frame to every client. -/
def broadcast (frame : Frame) (server : Server) :
    Broadcast × Server × List Event :=
  let (broadcast, registry, events) := server.registry.broadcast frame
  (broadcast, { server with registry := registry }, events)

/-- How many connections have not ended. -/
def remaining (server : Server) : Nat :=
  (server.connections.filter Connection.isActive).length

/-- The positions of the connections that have not ended. -/
def remainingPositions (server : Server) : List Nat :=
  (server.connections.zipIdx.filter (·.1.isActive)).map (·.2)

/-- Breaks off every connection that has not ended. -/
def abortAll (server : Server) : Server :=
  { server with
    connections := server.connections.map fun connection =>
      (connection.move .abort server.registry).1 }

/-- Whether a move of a connection is one that the stop token allows. -/
def allows (stopped : Bool) : ConnectionMove → Bool
  | .stop => stopped
  | .abort => false
  | _ => true

def moveConnection (server : Server) (stopped : Bool) (position : Nat)
    (move : ConnectionMove) : Server × List Event :=
  match server.connections[position]? with
  | none => (server, [])
  | some connection =>
      if allows stopped move then
        let (connection, registry, events) :=
          connection.move move server.registry
        ({ server with
            connections := server.connections.set position connection
            registry := registry }, events)
      else (server, [])

/-- What a move makes of a server, given whether its stop token is cancelled. -/
def move (server : Server) (stopped : Bool) :
    ServerMove → Server × List Event
  | .accept =>
      if server.phase = .accepting then
        ({ server with
            connections := server.connections ++ [Connection.fresh] }, [])
      else (server, [])
  | .connection position move => server.moveConnection stopped position move
  | .lookAtToken =>
      if server.phase = .accepting ∧ stopped then
        ({ server with phase := .draining }, [])
      else (server, [])
  | .drained =>
      if server.phase = .draining ∧ server.remaining = 0 then
        ({ server with phase := .stopped }, [.notice .serverStopped])
      else (server, [])
  | .drainExpired =>
      if server.phase = .draining ∧ server.remaining ≠ 0 then
        ({ server.abortAll with phase := .stopped },
          [.notice (.clientsLate server.remaining), .notice .serverStopped])
      else (server, [])

/-- Makes moves one after the other. -/
def moves (server : Server) (stopped : Bool) :
    List ServerMove → Server × List Event
  | [] => (server, [])
  | move :: rest =>
      let (server, events) := server.move stopped move
      let (server, later) := server.moves stopped rest
      (server, events ++ later)

/-- The moves with which a server stops that has no connections. -/
def quietStop : List ServerMove := [.lookAtToken, .drained]

/-- The moves that the connection at a position can make on its own, if it can
make them. -/
def ownMoves (position : Nat) : List ServerMove :=
  [.stop, .closeQueued, .depart, .writerEnds, .finish].map (.connection position)

/-- The moves that a server can make on its own, if it can make them. -/
def settling (server : Server) : List ServerMove :=
  .lookAtToken :: server.remainingPositions.flatMap ownMoves ++ [.drained]

/-- The moves with which a server gives its connections up. -/
def givingUp (server : Server) : List ServerMove :=
  server.remainingPositions.flatMap (fun position =>
    [.connection position .closeExpired, .connection position .finish]) ++
    [.drained, .drainExpired]

end Server

end PositionFeed
