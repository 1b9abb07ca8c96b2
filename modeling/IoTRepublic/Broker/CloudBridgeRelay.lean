import IoTRepublic.Broker.CloudBridge
import IoTRepublic.IoT.Utility

/-!
# IoTRepublic.Broker.CloudBridgeRelay

`Broker/CloudBridge.cpp`: the bridge in both directions. `cloudLoop` passes the packages
of the cloud on to the manager. One of them is for the bridge: on `discon` it gives up its
connection to the manager and starts `managerLoop` in a new thread, which makes another
connection.

The old thread is to be ended by `Thread_kill`. On Windows that is what happens; elsewhere
`Thread_kill` does nothing, and the old loop goes on with the new connection. Which of the
two it is, is the parameter `kills`.

What a thread does up to its next `RecviveData` or lock is one step.
-/

namespace IoTRepublic

open Cpp IoTUtility

namespace CloudBridge

/-- A thread in `managerLoop`: where it stands, and what it has received and not sent
yet. -/
inductive ManagerThread
  /-- It has not run yet. -/
  | created
  /-- It has made its client. -/
  | opened
  /-- It has tried to connect, and is in the loop. -/
  | looping (recvBuffer : List Byte)
  deriving DecidableEq, Repr

/-- The local variable of `managerLoop`. It is empty where the loop receives, and full
where it waits for the lock. -/
def ManagerThread.recvBuffer : ManagerThread → List Byte
  | looping recvBuffer => recvBuffer
  | _ => []

/-- The client `socketToManager` points to. All threads share the one pointer, so a new
thread takes the client of an old one away from it. -/
inductive ManagerSocket
  | made
  | connected
  | disconnected
  deriving DecidableEq, Repr

/-- What becomes of the connection to the manager and of the packages for it, in the order
in which it happened. -/
inductive RelayAction
  | opened
  | connected
  /-- Sent. -/
  | relayed (package : IoTPackage)
  /-- Not sent: the client is not connected. -/
  | dropped (package : IoTPackage)
  /-- By `reconnectToManager`. -/
  | restarted (package : IoTPackage)
  deriving DecidableEq, Repr

/-- The bridge between two steps of its threads: the client to the manager, the threads
that forward, what `cloudLoop` has received, and the time line. -/
structure Relay where
  /-- `none` as long as the pointer is not set. -/
  socketToManager : Option ManagerSocket := none
  /-- The threads in `managerLoop` that live. `managerThread` is the last one. -/
  managerThreads : List ManagerThread := [.created]
  /-- The local variable of `cloudLoop`. -/
  packageBuffer : List Byte := []
  /-- `cloudLoop` is in its `do` loop. -/
  parsing : Bool := false
  sentToCloud : List CloudSend := []
  log : List RelayAction := []
  deriving DecidableEq, Repr

/-- `SendData` of `socketToManager`: it returns without sending when the client is not
connected, and nobody looks at what it returns. -/
def sendToManager (package : IoTPackage) (s : Relay) : Except Fault Relay :=
  match s.socketToManager with
  | none => .error .undefinedBehaviour
  | some socket =>
    if socket = .connected then
      .ok { s with log := s.log ++ [.relayed package] }
    else
      .ok { s with log := s.log ++ [.dropped package] }

/-- `Thread_stop` and `Thread_kill` on `managerThread`: the last thread is gone at once
where the call kills, and goes on where it does nothing. -/
def threadKill (kills : Bool) (managerThreads : List ManagerThread) : List ManagerThread :=
  if kills then managerThreads.dropLast else managerThreads

/-- `reconnectToManager`: a package whose payload is the word `discon` makes the bridge
drop its client and start `managerLoop` again. Every other package is left to the
caller. -/
def reconnectToManager (kills : Bool) (package : IoTPackage) (s : Relay) :
    Except Fault (Bool × Relay) :=
  if package.dataVector.length = 6 then
    if package.dataVector = lit "discon" then
      match s.socketToManager with
      | none => .error .undefinedBehaviour
      | some _ => .ok (true, { s with
          socketToManager := some .disconnected
          managerThreads := threadKill kills s.managerThreads ++ [.created]
          log := s.log ++ [.restarted package] })
    else
      .ok (false, s)
  else
    .ok (false, s)

/-- What `cloudLoop` does with a package: it is the bridge's own or goes to the
manager. -/
def relayPackage (kills : Bool) (package : IoTPackage) (s : Relay) : Except Fault Relay := do
  let (needReconnect, s) ← reconnectToManager kills package s
  if needReconnect then return s else sendToManager package s

/-- A round of the `do` loop in `cloudLoop`: one package off the front of the buffer,
until there is none. -/
def cloudRound (kills : Bool) (s : Relay) : Except Fault Relay := do
  let x ← getCompletedPackage s.packageBuffer
  match x.package with
  | none => return { s with packageBuffer := x.buffer, parsing := false }
  | some package => relayPackage kills package { s with packageBuffer := x.buffer }

end CloudBridge

open CloudBridge

/-- A step of a thread. The `k`-th thread in `managerLoop` is named by its place in
`managerThreads`. -/
inductive RelayEvent
  /-- `managerLoop` makes its client. -/
  | opened (k : Nat)
  /-- `Connect` returns. -/
  | connected (k : Nat) (success : Bool)
  /-- `RecviveData` in `managerLoop`; an empty chunk is a failed `recv`. -/
  | received (k : Nat) (chunk : List Byte)
  /-- The critical section of `managerLoop`. -/
  | forwarded (k : Nat)
  /-- The critical section of `keepAliveLoop`. -/
  | keptAlive
  /-- `RecviveData` in `cloudLoop`. -/
  | cloudReceived (chunk : List Byte)
  | cloudRound
  deriving DecidableEq, Repr

namespace RelayEvent

/-- Is the thread there, and at this point? A connection succeeds only while the client
that was made is still the one pointed to. -/
def Possible (s : Relay) : RelayEvent → Prop
  | opened k => s.managerThreads[k]? = some .created
  | connected k success =>
    s.managerThreads[k]? = some .opened ∧ (success = true → s.socketToManager = some .made)
  | received k _ => s.managerThreads[k]? = some (.looping [])
  | forwarded k => (s.managerThreads[k]?).any fun thread => 0 < thread.recvBuffer.length
  | keptAlive => True
  | cloudReceived _ => s.parsing = false
  | cloudRound => s.parsing = true

instance (s : Relay) (e : RelayEvent) : Decidable (e.Possible s) :=
  match e with
  | opened _ => inferInstanceAs (Decidable (_ = _))
  | connected _ _ => inferInstanceAs (Decidable (_ ∧ (_ → _)))
  | received _ _ => inferInstanceAs (Decidable (_ = _))
  | forwarded _ => inferInstanceAs (Decidable (_ = true))
  | keptAlive => inferInstanceAs (Decidable True)
  | cloudReceived _ => inferInstanceAs (Decidable (_ = _))
  | cloudRound => inferInstanceAs (Decidable (_ = _))

/-- What the thread does. -/
def step (kills : Bool) (s : Relay) : RelayEvent → Except Fault Relay
  | opened k => .ok { s with
      socketToManager := some .made
      managerThreads := s.managerThreads.set k .opened
      log := s.log ++ [.opened] }
  | connected k success =>
    let s := { s with managerThreads := s.managerThreads.set k (.looping []) }
    if success then
      .ok { s with socketToManager := some .connected, log := s.log ++ [.connected] }
    else
      .ok s
  | received k chunk =>
    .ok { s with managerThreads := s.managerThreads.set k (.looping chunk) }
  | forwarded k =>
    match s.managerThreads[k]? with
    | none => .ok s
    | some thread => .ok { s with
        managerThreads := s.managerThreads.set k (.looping [])
        sentToCloud := s.sentToCloud ++ [.forwarded thread.recvBuffer] }
  | keptAlive => .ok { s with sentToCloud := s.sentToCloud ++ [.keptAlive] }
  | cloudReceived chunk =>
    if 0 < chunk.length then
      .ok { s with packageBuffer := s.packageBuffer ++ chunk, parsing := true }
    else
      .ok s
  | cloudRound => CloudBridge.cloudRound kills s

end RelayEvent

end IoTRepublic
