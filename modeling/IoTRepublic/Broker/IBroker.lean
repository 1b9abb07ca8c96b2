import IoTRepublic.IoT.ManagerSends
import IoTRepublic.IoT.Reassembly

/-!
# IoTRepublic.Broker.IBroker

`Broker/IBroker.cpp`: how a broker asks the manager for an address.

`askIoTIp` makes a connection of its own, sends one package, and receives until it has
an address and knows the manager's. `Network` is the manager with all its clients. Among
them are brokers that are asking, with the bytes that are on their way to the manager
and back; both ways they may be cut anywhere, and anything may happen on the other
connections meanwhile.

A connection can be given a slot in which an earlier one has left bytes behind. A broker
that is so unlucky is one of the other clients here.
-/

namespace IoTRepublic

open Cpp IoTUtility

namespace IBroker

/-- The field `protocolVersion` of `IBroker`, a copy of the constant in `IoTPackage`. -/
def protocolVersion : Text := lit "IUDP1.0"

/-- The package `askIoTIp` sends: from `0` to `0`, which is how a sender without an
address is told apart from every other. -/
def ipRequest : Except Fault IoTPackage :=
  IoTPackage.ofVector protocolVersion (lit "0") (lit "0") none

/-- The variables of `askIoTIp`, and the field of the broker it sets. -/
structure Asking where
  managerIoTIp : Text := []
  iotIp : Text := []
  recvBuffer : List Byte := []
  /-- The loop has been left. -/
  finished : Bool := false
  deriving DecidableEq, Repr

/-- `parseReceivedBuffer` takes one package off the buffer: the destination of an answer
is the new address. The address of the manager is kept if it was known before. -/
def parseReceivedBuffer (s : Asking) : Except Fault Asking := do
  let x ← getCompletedPackage s.recvBuffer
  match x.package with
  | none => return { s with recvBuffer := x.buffer }
  | some recvPackage =>
    return { s with
      iotIp := recvPackage.desIp
      managerIoTIp := if s.managerIoTIp.length = 0 then recvPackage.sorIp else s.managerIoTIp
      recvBuffer := x.buffer }

/-- A round of the loop in `askIoTIp`, in which `RecviveData` appends `chunk`. The loop is
left as soon as the broker has an address and knows the manager's. -/
def askRound (chunk : List Byte) (s : Asking) : Except Fault Asking := do
  let s := { s with recvBuffer := s.recvBuffer ++ chunk }
  if 0 < s.recvBuffer.length then
    let s ← parseReceivedBuffer s
    return { s with finished := 0 < s.iotIp.length && 0 < s.managerIoTIp.length }
  else
    return s

/-- A broker in `askIoTIp`, as the network sees it: the connection it has made, and the
bytes under way in both directions. -/
structure Asker where
  /-- Where the manager has the connection, and its descriptor there. -/
  socketIndex : Nat
  socket : Int
  connected : Bool := true
  /-- What is on its way to the manager. -/
  request : List Byte
  /-- What is on its way back. -/
  reply : List Byte := []
  /-- The field `managerIoTIp` before. -/
  known : Text
  asking : Asking
  deriving DecidableEq, Repr

/-- What the manager has sent since is on its way: the bytes for this descriptor are put
behind those still travelling. -/
def Asker.hear (J : Jansson) (tail : List Action) (asker : Asker) : Asker :=
  if asker.connected then { asker with reply := asker.reply ++ sentOn J asker.socket tail }
  else asker

end IBroker

open IBroker

/-- The manager and the brokers that ask it for addresses. The other clients have no state
of their own; they may send and leave as they please. -/
structure Network where
  server : ServerState ManagerState
  askers : List Asker := []
  deriving DecidableEq

/-- What can happen: a step of an asking broker, or an event of the manager's that belongs
to no asking broker. -/
inductive NetworkEvent
  /-- A broker connects, and sends its request. -/
  | asked (newSocket : Int) (managerIoTIp : Text)
  /-- Some bytes of a request reach the manager. -/
  | requested (k n : Nat)
  /-- Some bytes of a reply reach the broker; none when `recv` fails. -/
  | replied (k n : Nat)
  /-- The connection of a broker ends, whether the broker has its address or not. -/
  | left (k : Nat)
  /-- Something happens on another connection. -/
  | other (e : ServerEvent)
  | scanned

namespace Network

variable (J : Jansson)

/-- The manager has done something: every asker hears what was sent on its own
descriptor. -/
def serve (server : ServerState ManagerState) (net : Network) : Network where
  server := server
  askers := net.askers.map (·.hear J (server.sub.log.drop net.server.sub.log.length))

/-- A broker connects. One that finds no slot waits for ever; it is not listed. -/
def ask (newSocket : Int) (managerIoTIp : Text) (net : Network) : Except Fault Network := do
  let package ← ipRequest
  let server ← ServerEvent.step (ManagerState.events J) net.server (.accepted newSocket)
  let served := net.serve J server
  match net.server.server.nextSlot with
  | none => return served
  | some socketIndex =>
    return { served with
      askers := served.askers ++ [{
        socketIndex := socketIndex
        socket := newSocket
        request := package.dataVectorForSending
        known := managerIoTIp
        asking := { managerIoTIp := managerIoTIp } }] }

end Network

namespace NetworkEvent

variable (J : Jansson)

/-- What happens then. An event for a broker that is not there changes nothing, so that a
run need not keep count of them. -/
def step (net : Network) : NetworkEvent → Except Fault Network
  | asked newSocket managerIoTIp => net.ask J newSocket managerIoTIp
  | requested k n =>
    match net.askers[k]? with
    | none => .ok net
    | some asker => do
      let server ← ServerEvent.step (ManagerState.events J) net.server
        (.received asker.socketIndex (asker.request.take n))
      return { net with askers := net.askers.set k { asker with request := asker.request.drop n } }
        |>.serve J server
  | replied k n =>
    match net.askers[k]? with
    | none => .ok net
    | some asker => do
      let asking ← askRound (asker.reply.take n) asker.asking
      return { net with
        askers := net.askers.set k { asker with reply := asker.reply.drop n, asking := asking } }
  | left k =>
    match net.askers[k]? with
    | none => .ok net
    | some asker => do
      let server ← ServerEvent.step (ManagerState.events J) net.server
        (.disconnected asker.socketIndex)
      return { net with askers := net.askers.set k { asker with connected := false } }
        |>.serve J server
  | other e => do
    let server ← e.step (ManagerState.events J) net.server
    return net.serve J server
  | scanned => do
    let sub ← net.server.sub.scan J net.server.server
    return net.serve J { net.server with sub := sub }

/-- Can it happen? Bytes that are delivered must be under way, and a connection gets a
slot in which nothing has been left behind. -/
def Possible (net : Network) : NetworkEvent → Prop
  | asked newSocket _ =>
    0 < newSocket ∧ (ServerEvent.accepted newSocket).Possible net.server ∧
      FreshSlot net.server (.accepted newSocket)
  | requested k n =>
    (net.askers[k]?).any fun asker =>
      asker.connected && decide (0 < n ∧ n ≤ asker.request.length)
  | replied k n =>
    (net.askers[k]?).any fun asker =>
      !asker.asking.finished && decide (n ≤ asker.reply.length)
  | left k => (net.askers[k]?).any (·.connected)
  | other e =>
    e.Possible net.server ∧
      ∀ asker ∈ net.askers, asker.connected = true → e.slot? ≠ some asker.socketIndex
  | scanned => True

instance (net : Network) (e : NetworkEvent) : Decidable (e.Possible net) :=
  match e with
  | asked _ _ => inferInstanceAs (Decidable (_ ∧ _ ∧ _))
  | requested _ _ => inferInstanceAs (Decidable (_ = true))
  | replied _ _ => inferInstanceAs (Decidable (_ = true))
  | left _ => inferInstanceAs (Decidable (_ = true))
  | other _ => inferInstanceAs (Decidable (_ ∧ ∀ asker ∈ net.askers, _ → _))
  | scanned => inferInstanceAs (Decidable True)

end NetworkEvent

end IoTRepublic
