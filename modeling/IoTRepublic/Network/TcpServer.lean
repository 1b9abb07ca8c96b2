import IoTRepublic.Cpp.Basic
import Mathlib.Data.Finset.Insert

/-!
# IoTRepublic.Network.TcpServer

`Network/TcpServer.cpp`: the socket table and the `select` loop.

The server keeps one slot per client; a slot holds the client's descriptor, or
zero when it is free. `server_loop` accepts at most one connection a round and
then polls the slots. What the subclass does in its three event handlers is the
parameter `ServerEvents`; a handler sees the server and does not change it.

The platform is visible in three places. `opened` is the set of descriptors the
process has open, so that `accept` can be asked for one that is not. A `Poll` is
what the system calls of one round return. An `FdSet` is how much `FD_SET` can hold;
`FD_ISSET` and `FD_CLR` are only called on zero and on what `FD_SET` was called on.
-/

namespace IoTRepublic

open Cpp

/-- What an `fd_set` is on the platform, with the `FD_SETSIZE` it was compiled with. -/
inductive FdSet
  /-- POSIX: a bit for every descriptor below the size, which is 1024 in glibc. `FD_SET`
  does not check that there is one. -/
  | bits (size : Nat)
  /-- Winsock: an array of so many descriptors, 64 by default. `FD_SET` leaves a full
  array as it is. -/
  | array (size : Nat)
  deriving DecidableEq

/-- `FD_SET`: puts a descriptor into the set, as far as the platform has room for it. Past
the end of a POSIX set the bit is written behind the array; a full Winsock set stays as it
is, and nobody is told. -/
def FdSet.add (fdSet : FdSet) (fd : Int) (set : Finset Int) : Except Fault (Finset Int) :=
  match fdSet with
  | bits size => if 0 ≤ fd ∧ fd < size then .ok (insert fd set) else .error .undefinedBehaviour
  | array size => .ok (if set.card < size then insert fd set else set)

/-- `TcpServer`. The vector `clientSockets` has `maxClient` entries, of which the free
ones are zero; nothing ties an entry to `master` but the code that writes both. -/
structure TcpServer where
  /-- The type of `master`. -/
  fdSet : FdSet := .bits 1024
  listener : Int
  clientSockets : List Int
  /-- The descriptors watched by `select`. -/
  master : Finset Int
  deriving DecidableEq

namespace TcpServer

/-- The descriptor `SendDataToExistsConnection` hands `buffer` to, if it sends at all: a
free slot is passed over in silence. `&buffer->at(0)` raises on an empty buffer. -/
def sendDataToExistsConnection (server : TcpServer) (socketIndex : Nat) (buffer : List Byte) :
    Except Fault (Option Int) := do
  let socket ← vectorAt server.clientSockets socketIndex
  if 0 < socket then
    let _ ← vectorAt buffer 0
    return some socket
  else
    return none

end TcpServer

/-- The virtual methods a subclass overrides. They are called by the server's thread, in
the middle of a round, with the socket table as it is at that moment. -/
structure ServerEvents (σ : Type) where
  receivedData : TcpServer → Nat → List Byte → σ → Except Fault σ
  newConnection : TcpServer → Nat → σ → Except Fault σ
  connectionDenied : TcpServer → Nat → σ → Except Fault σ

/-- The handlers of `TcpServer` itself, which do nothing. -/
def TcpServer.events : ServerEvents Unit where
  receivedData := fun _ _ _ _ => .ok ()
  newConnection := fun _ _ _ => .ok ()
  connectionDenied := fun _ _ _ => .ok ()

/-- The server while `server_loop` runs, with what the kernel knows of its descriptors. -/
structure ServerState (σ : Type) where
  server : TcpServer
  /-- The local variable of `server_loop`: the bound `select` is called with, which is the
  descriptor accepted last. -/
  fdmax : Int
  /-- The descriptors the kernel has open for the process. -/
  opened : Finset Int
  /-- The subclass. -/
  sub : σ
  deriving DecidableEq

/-- What the system calls of one round return. Nothing is assumed of it here; that a poll
is one the kernel can give is stated where it is needed. -/
structure Poll where
  /-- The value of `select`. -/
  activity : Int := 1
  /-- What `select` leaves in `readfds`. -/
  readfds : Finset Int
  /-- The value of `accept`. -/
  newSocket : Int := 0
  /-- The bytes `recv` returns for a slot, none when it returns zero or less. -/
  received : Nat → List Byte := fun _ => []

namespace ServerState

variable {σ : Type} (events : ServerEvents σ)

/-- The part of a round that follows a successful `accept`: the connection goes
to the first free slot and into `master`. Without a free slot it stays open and
unwatched. -/
def acceptConnection (newSocket : Int) (s : ServerState σ) : Except Fault (ServerState σ) := do
  let opened := insert newSocket s.opened
  match s.server.clientSockets.findIdx? (· = 0) with
  | none => return { s with opened := opened }
  | some i =>
    let master ← s.server.fdSet.add newSocket s.server.master
    let server := { s.server with
      clientSockets := s.server.clientSockets.set i newSocket
      master := master }
    let sub ← events.newConnection server i s.sub
    return { server := server, fdmax := newSocket, opened := opened, sub := sub }

/-- `CutConnection` closes the descriptor of a slot, whichever it is by then, and frees
the slot before the subclass hears of it. -/
def cutConnection (socketIndex : Nat) (s : ServerState σ) : Except Fault (ServerState σ) := do
  let socket ← vectorAt s.server.clientSockets socketIndex
  let server := { s.server with
    clientSockets := s.server.clientSockets.set socketIndex 0
    master := s.server.master.erase socket }
  let sub ← events.connectionDenied server socketIndex s.sub
  return { s with server := server, opened := s.opened.erase socket, sub := sub }

/-- Data has arrived for a slot: the subclass is handed the bytes, and the table stays as
it is. -/
def receiveData (socketIndex : Nat) (buffer : List Byte) (s : ServerState σ) :
    Except Fault (ServerState σ) := do
  let sub ← events.receivedData s.server socketIndex buffer s.sub
  return { s with sub := sub }

/-- The body of the loop over the slots: a slot whose descriptor is readable is received
from, and cut when there is nothing to receive. The loop goes on with the table the
handlers have left. -/
def pollSlot (poll : Poll) (s : ServerState σ) (i : Nat) : Except Fault (ServerState σ) := do
  let socket ← vectorAt s.server.clientSockets i
  if socket ∈ poll.readfds then
    if poll.received i = [] then
      cutConnection events i s
    else
      receiveData events i (poll.received i) s
  else
    return s

/-- One round of `server_loop`; `none` when the loop ends, because `select` or `accept`
has failed. At most one connection is accepted, after which every slot is polled. -/
def serverLoop (poll : Poll) (s : ServerState σ) : Except Fault (Option (ServerState σ)) := do
  if poll.activity = -1 then
    return none
  if s.server.listener ∈ poll.readfds ∧ poll.newSocket < 0 then
    return none
  let s ← if s.server.listener ∈ poll.readfds then acceptConnection events poll.newSocket s
    else .ok s
  let s ← (List.range s.server.clientSockets.length).foldlM (pollSlot events poll) s
  return some s

/-- The server before its first round: `initServer`, and `server_loop` up to the
loop. The listener is among the first descriptors of the process, and `FD_SET` has
taken it. -/
def start (fdSet : FdSet) (listener : Int) (maxClient : Nat) (opened : Finset Int) (sub : σ) :
    ServerState σ :=
  { server := { fdSet := fdSet, listener := listener
                clientSockets := List.replicate maxClient 0, master := insert listener ∅ }
    fdmax := listener
    opened := insert listener opened
    sub := sub }

end ServerState

end IoTRepublic
