import PositionFeed.Bus.Codec
import PositionFeed.Bus.Target
import PositionFeed.Push.Server
import PositionFeed.Stop.Signal

namespace PositionFeed

/-!
# Outlets

An outlet is where a channel hands its samples: the bus, the clients of a push
server, or the log.  What the operating system says to a socket comes from
outside, as a `Network`.
-/

/-- What the operating system says to sockets. -/
structure Network where
  /-- Whether an address can be listened on. -/
  bind : SocketAddress → Option SystemFault
  /-- Whether a socket that was bound to an address says where it is, by how
  often it was asked before. -/
  locate : Nat → SocketAddress → Option SystemFault
  /-- Whether a datagram gets out to an address. -/
  send : SocketAddress → Option SystemFault

/-- A network that refuses nothing. -/
def Network.willing : Network where
  bind _ := none
  locate _ _ := none
  send _ := none

/-- Why nothing listens on an address: it is refused, or the socket does not say
where it is. -/
def Network.listenFault? (network : Network) (address : SocketAddress) :
    Option SetupFault :=
  match network.bind address with
  | some reason => some (.bind address.text reason)
  | none => (network.locate 0 address).map .system

/-- The sending half of the bus. -/
structure BusOutlet where
  name : String
  /-- Where records go. -/
  target : BusTarget
  /-- Whether it can still send. -/
  isOpen : Bool
  deriving Repr, DecidableEq

/-- The clients of a push server. -/
structure PushOutlet where
  name : String
  server : Server
  deriving Repr, DecidableEq

/-- Where a channel hands its samples. -/
inductive Outlet where
  | bus (outlet : BusOutlet)
  /-- The clients of a push server. -/
  | push (outlet : PushOutlet)
  | log (name : String)
  deriving Repr, DecidableEq

namespace BusOutlet

def recordBytes (outlet : BusOutlet) (sample : Sample) : List UInt8 :=
  (Record.ofSample sample).encode outlet.target.format

/-- The bytes of a sample, unless there are too many of them. -/
def payload (outlet : BusOutlet) (sample : Sample) :
    Except Fault (List UInt8) × List Event :=
  let bytes := outlet.recordBytes sample
  let size := bytes.length
  if outlet.target.largestRecord < size then
    (.error (.transportSend outlet.name
        s!"record of {size} bytes exceeds max packet size"),
      [.notice (.recordTooLarge size outlet.target.largestRecord)])
  else (.ok bytes, [])

/-- Sends a sample, and returns the bytes that got out. -/
def send (outlet : BusOutlet) (network : Network) (sample : Sample) :
    Except Fault (List UInt8) × List Event :=
  match outlet.payload sample with
  | (.error fault, events) => (.error fault, events)
  | (.ok bytes, events) =>
      if ¬ outlet.isOpen then
        (.error (.transportSend outlet.name "socket closed"), events)
      else match network.send outlet.target.address with
        | some reason =>
            (.error (.transportSend outlet.name reason.message), events)
        | none => (.ok bytes, events)

def close (outlet : BusOutlet) : BusOutlet :=
  { outlet with isOpen := false }

/-- The address that datagrams are sent from: any, of the kind of the target. -/
def origin (target : BusTarget) : SocketAddress :=
  if target.address.isFour then .four 0 0 0 0 0
  else .eight [0, 0, 0, 0, 0, 0, 0, 0] 0 0

/-- The outlet that parameters describe. -/
def create (network : Network) (name : String) (parameters : Parameters) :
    Except Fault BusOutlet :=
  match BusTarget.ofParameters parameters with
  | .error defect => .error (.transportSetup name defect.message)
  | .ok target =>
      match network.bind (origin target) with
      | some reason => .error (.transportSetup name reason.message)
      | none => .ok ⟨name, target, true⟩

end BusOutlet

namespace PushOutlet

/-- Sends a sample to every client. -/
def send (outlet : PushOutlet) (sample : Sample) :
    PushOutlet × Except Fault Unit × List Event :=
  let (broadcast, server, events) :=
    outlet.server.broadcast (Frame.ofSample sample)
  ({ outlet with server := server },
    if broadcast.audience = 0 then
      .error (.transportSend outlet.name "no connected clients")
    else .ok (),
    events)

/-- Whether a client is registered. -/
def hasAudience (outlet : PushOutlet) : Bool :=
  ! outlet.server.registry.isEmpty

def addressOf (name : String) (parameters : Parameters) :
    Except SetupFault SocketAddress :=
  match parameters.get? "bind" with
  | none => .error (.creation name "missing 'bind' parameter")
  | some value =>
      match SocketAddress.read? value with
      | some address => .ok address
      | none =>
          .error (.creation name
            ("invalid address '" ++ value ++ "': " ++
              SocketAddress.syntaxMessage))

/-- The outlet that parameters describe. -/
def create (network : Network) (name : String) (parameters : Parameters)
    (parent : Token) (tokens : Tokens) :
    Except SetupFault (PushOutlet × Tokens × List Event) := do
  let address ← addressOf name parameters
  match network.listenFault? address with
  | some reason => .error reason
  | none =>
      let (server, tokens, events) := Server.start name parent tokens
      .ok (⟨name, server⟩, tokens, events)

/-- The outlet after it was stopped.  Connections that would have to end first
have done so before. -/
def close (outlet : PushOutlet) (tokens : Tokens) :
    PushOutlet × Tokens × List Event :=
  let tokens := tokens.cancel outlet.server.token
  let (server, events) := outlet.server.moves true Server.quietStop
  ({ outlet with server := server }, tokens, events)

end PushOutlet

namespace Outlet

def name : Outlet → String
  | .bus outlet => outlet.name
  | .push outlet => outlet.name
  | .log name => name

def kind : Outlet → ChannelKind
  | .bus _ => .bus
  | .push _ => .websocket
  | .log _ => .log

/-- Whether anybody listens.  Only a push server can tell. -/
def hasAudience : Outlet → Bool
  | .bus _ => true
  | .push outlet => outlet.hasAudience
  | .log _ => true

/-- Hands a sample over. -/
def send (network : Network) (sample : Sample) :
    Outlet → Outlet × Except Fault Unit × List Event
  | .bus outlet =>
      let (result, events) := outlet.send network sample
      (.bus outlet, result.map fun _ => (), events)
  | .push outlet =>
      let (outlet, result, events) := outlet.send sample
      (.push outlet, result, events)
  | .log name =>
      (.log name, .ok (), [.notice (.sampleShown sample.sequence)])

def close (tokens : Tokens) : Outlet → Outlet × Tokens × List Event
  | .bus outlet => (.bus outlet.close, tokens, [])
  | .push outlet =>
      let (outlet, tokens, events) := outlet.close tokens
      (.push outlet, tokens, events)
  | .log name => (.log name, tokens, [.notice .logClosed])

def create (network : Network) (plan : ChannelPlan) (parent : Token)
    (tokens : Tokens) : Except SetupFault (Outlet × Tokens × List Event) :=
  match plan.kind with
  | .log => .ok (.log plan.name, tokens, [])
  | .bus =>
      match BusOutlet.create network plan.name plan.parameters with
      | .ok outlet => .ok (.bus outlet, tokens, [])
      | .error fault => .error (.creation plan.name fault.message)
  | .websocket => do
      let (outlet, tokens, events) ←
        PushOutlet.create network plan.name plan.parameters parent tokens
      .ok (.push outlet, tokens, events)

end Outlet

end PositionFeed
