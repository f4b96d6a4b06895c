import PositionFeed.Channel.Outlet
import PositionFeed.Blueprint.Basic
import Std.Internal.UV

/-!
# The sockets of the program

Sockets are opened before a pipeline is built, in the order of its channels and
with the source's last, and the building then learns what the operating system
said to each.
-/

open Std.Internal.UV

namespace PositionFeed.Program

def socketAddress : SocketAddress → Std.Net.SocketAddress
  | .four first second third fourth port =>
      .v4 ⟨.ofParts first second third fourth, port⟩
  | .eight groups _ port =>
      let group (position : Nat) := groups.getD position 0
      .v6 ⟨.ofParts (group 0) (group 1) (group 2) (group 3) (group 4)
        (group 5) (group 6) (group 7), port⟩

/-- What a refusal by the operating system is. -/
def systemFault : IO.Error → SystemFault
  | .resourceBusy .. => .addressInUse
  | .unsupportedOperation .. => .addressUnavailable
  | .noSuchThing .. => .unreachable
  | .permissionDenied .. => .other "Permission denied (os error 13)"
  | reason => .other reason.toString

/-- Makes an attempt and says whether it was refused. -/
def refusal (attempt : IO Unit) : IO (Option SystemFault) := do
  try
    attempt
    return none
  catch reason => return some (systemFault reason)

/-- What the operating system says of a socket that listens. -/
structure ListenAnswer where
  /-- Whether its address is refused. -/
  bind : Option SystemFault
  /-- Whether it does not say where it is. -/
  locate : Option SystemFault

/-- Nothing was asked, or nothing was refused. -/
def ListenAnswer.willing : ListenAnswer := ⟨none, none⟩

/-- A socket that listens for push clients. -/
structure Listening where
  /-- The position of its channel. -/
  channel : Nat
  socket : TCP.Socket

/-- The sockets of a program. -/
structure Sockets where
  /-- What sends on the bus, from either kind of address. -/
  four : UDP.Socket
  /-- The same for addresses of eight groups. -/
  eight : UDP.Socket
  /-- What receives from the bus. -/
  intake : Option UDP.Socket
  /-- What listens for push clients. -/
  listening : List Listening

def listen (address : SocketAddress) : IO TCP.Socket := do
  let socket ← TCP.Socket.new
  socket.bind (socketAddress address)
  socket.listen 128
  return socket

/-- Whether measures can be offered on a port. -/
def offer (port : Nat) : IO (Option TCP.Socket) := do
  try
    return some (← listen (.four 0 0 0 0 (UInt16.ofNat port)))
  catch _ => return none

/-- Sends a datagram and waits for the answer. -/
def sendDatagram (sockets : Sockets) (address : SocketAddress)
    (bytes : List UInt8) : IO (Option SystemFault) :=
  refusal do
    let socket := if address.isFour then sockets.four else sockets.eight
    let promise ← socket.send #[⟨bytes.toArray⟩] (some (socketAddress address))
    match ← IO.wait promise.result? with
    | some (.error reason) => throw reason
    | _ => return

def listenAddress? (plan : ChannelPlan) : Option SocketAddress :=
  if plan.kind = .websocket then
    (plan.parameters.get? "bind").bind SocketAddress.read?
  else none

/-- Listens for the clients of channels, the first of which has the given
position, and gives the answers of the operating system. -/
def listenAll (position : Nat) :
    List ChannelPlan → IO (List Listening × List ListenAnswer)
  | [] => return ([], [])
  | plan :: rest => do
      let (socket, answer) ← match listenAddress? plan with
        | none => pure (none, .willing)
        | some address => do
            try
              let socket ← listen address
              let silent ← refusal do discard socket.getSockName
              pure (some ⟨position, socket⟩, ⟨none, silent⟩)
            catch reason => pure (none, ⟨some (systemFault reason), none⟩)
      let (sockets, answers) ← listenAll (position + 1) rest
      return (socket.toList ++ sockets, answer :: answers)

/-- Opens what receives from the bus, if the role needs it. -/
def openIntake (blueprint : Blueprint) :
    IO (Option UDP.Socket × ListenAnswer) := do
  match blueprint.role, SocketAddress.read? blueprint.intake.listenAddress with
  | .subscriber, some address =>
      let socket ← UDP.Socket.new
      match ← refusal (socket.bind (socketAddress address)) with
      | none =>
          let silent ← refusal do discard socket.getSockName
          return (some socket, ⟨none, silent⟩)
      | some reason => return (none, ⟨some reason, none⟩)
  | _, _ => return (none, .willing)

/-- Opens the sockets of a blueprint.  The answers of the operating system are
given for each channel and for the source after them. -/
def openSockets (blueprint : Blueprint) : IO (Sockets × (Nat → Network)) := do
  let (listening, answers) ← listenAll 0 blueprint.effectiveChannels
  let (intake, answer) ← openIntake blueprint
  let sockets : Sockets := {
    four := ← UDP.Socket.new
    eight := ← UDP.Socket.new
    intake := intake
    listening := listening }
  return (sockets, fun position =>
    let said := (answers ++ [answer]).getD position .willing
    { bind := fun _ => said.bind
      locate := fun _ _ => said.locate
      send := fun _ => none })

end PositionFeed.Program
