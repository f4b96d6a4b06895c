import PositionFeed.Pipeline.Basic
import PositionFeed.Program.Sockets
import PositionFeed.Push.Conversation

/-!
# Push clients

A peer is the socket of one connection of a push server.  Attending to a peer
reads what it has sent and sends what its writer has taken; what either means
for the connection is decided by the pipeline.
-/

open Std.Internal.UV

namespace PositionFeed.Program

abbrev Receipt := Task (Option (Except IO.Error (Option ByteArray)))

/-- What will have been sent. -/
abbrev Dispatch := Task (Option (Except IO.Error Unit))

/-- The socket of a connection. -/
structure Peer where
  /-- The position of the channel. -/
  channel : Nat
  /-- The position of the connection. -/
  position : Nat
  socket : TCP.Socket
  /-- How far the client was understood. -/
  conversation : Conversation
  /-- What was asked for and has not been received. -/
  receipt : Option Receipt
  /-- What is being sent for the writer. -/
  dispatch : Option Dispatch

/-- How moves are made. -/
abbrev Perform := List PipelineMove → Pipeline → IO Pipeline

/-- How many bytes are received at once. -/
def receiveSize : UInt64 := 65536

/-- Asks for bytes. -/
def receive (socket : TCP.Socket) : IO (Option Receipt) := do
  try
    return some (← socket.recv? receiveSize).result?
  catch _ => return none

def send (socket : TCP.Socket) (bytes : List UInt8) : IO (Option Dispatch) := do
  try
    return some (← socket.send #[⟨bytes.toArray⟩]).result?
  catch _ => return none

def Peer.move (peer : Peer) (move : ConnectionMove) : PipelineMove :=
  .server peer.channel (.connection peer.position move)

/-- What a peer has said, if it has said something. -/
def Peer.heard (peer : Peer) : IO (Option Heard) := do
  match peer.receipt with
  | none => return none
  | some receipt =>
      if ! (← IO.hasFinished receipt) then return none
      match receipt.get with
      | some (.ok (some bytes)) =>
          return some (peer.conversation.hear bytes.toList)
      | _ => return some peer.conversation.hearEnd

/-- Reads what a peer has sent. -/
def Peer.listen (perform : Perform) (peer : Peer) (pipeline : Pipeline) :
    IO (Peer × Pipeline) := do
  let some heard ← peer.heard | return (peer, pipeline)
  if ¬ heard.answer.isEmpty then discard (send peer.socket heard.answer)
  let pipeline ← perform (heard.moves.map peer.move) pipeline
  let receipt ← match heard.conversation with
    | .over => pure none
    | _ => receive peer.socket
  return ({ peer with
    conversation := heard.conversation
    receipt := receipt }, pipeline)

/-- Sends what the writer of a peer has taken, and lets it take the next frame
when that is done. -/
def Peer.speak (perform : Perform) (peer : Peer) (pipeline : Pipeline) :
    IO (Peer × Pipeline) := do
  let pipeline ← match peer.dispatch with
    | none => pure pipeline
    | some dispatch =>
        if ! (← IO.hasFinished dispatch) then return (peer, pipeline)
        let succeeds := match dispatch.get with
          | some (.ok ()) => true
          | _ => false
        perform [peer.move (.sent succeeds)] pipeline
  let pipeline ← perform [peer.move .take] pipeline
  let connection := pipeline.connection? peer.channel peer.position
  match connection.bind (·.outgoing) with
  | none => return ({ peer with dispatch := none }, pipeline)
  | some frame =>
      match ← send peer.socket (Wire.bytes frame) with
      | some dispatch =>
          return ({ peer with dispatch := some dispatch }, pipeline)
      | none =>
          let pipeline ← perform [peer.move (.sent false)] pipeline
          return ({ peer with dispatch := none }, pipeline)

/-- Ends the socket of a connection that has ended. -/
def Peer.hangUp (peer : Peer) : IO Unit := do
  try
    if peer.receipt.isSome then peer.socket.cancelRecv
    discard peer.socket.shutdown
  catch _ => return

/-- Whether the connection of a peer has ended. -/
def Peer.hasEnded (peer : Peer) (pipeline : Pipeline) : Bool :=
  match pipeline.connection? peer.channel peer.position with
  | some connection => ! connection.isActive && ! connection.writing
  | none => true

/-- Attends to peers one after the other, and keeps those that are still
connected. -/
def attend (perform : Perform) :
    List Peer → Pipeline → IO (List Peer × Pipeline)
  | [], pipeline => return ([], pipeline)
  | peer :: rest, pipeline => do
      let (peer, pipeline) ← peer.listen perform pipeline
      let (peer, pipeline) ← peer.speak perform pipeline
      let (others, pipeline) ← attend perform rest pipeline
      if peer.hasEnded pipeline then
        peer.hangUp
        return (others, pipeline)
      else return (peer :: others, pipeline)

/-- Accepts at most one client for each channel. -/
def acceptPeers (perform : Perform) :
    List Listening → Pipeline → IO (List Peer × Pipeline)
  | [], pipeline => return ([], pipeline)
  | listening :: rest, pipeline => do
      let (others, pipeline) ← acceptPeers perform rest pipeline
      match ← listening.socket.tryAccept with
      | .ok (some socket) =>
          socket.noDelay
          let channel := listening.channel
          let position :=
            (pipeline.servers.lookup channel).elim 0 (·.connections.length)
          let pipeline ← perform [.server channel .accept] pipeline
          let receipt ← receive socket
          let peer : Peer := {
            channel := channel
            position := position
            socket := socket
            conversation := .fresh
            receipt := receipt
            dispatch := none }
          return (peer :: others, pipeline)
      | _ => return (others, pipeline)

end PositionFeed.Program
