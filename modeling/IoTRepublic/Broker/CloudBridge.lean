import IoTRepublic.Cpp.Basic

/-!
# IoTRepublic.Broker.CloudBridge

`Broker/CloudBridge.cpp`: the two threads that send to the cloud. `managerLoop`
passes on what it receives from the manager, chunk by chunk; `keepAliveLoop` sends a
byte of its own from time to time.

Both send under `mutexLock`, so a critical section is one step; what
`RecviveData` does before it is another.

That bytes reach the cloud in the order in which they came is a matter of the lock alone.
That packages stay in one piece is not: `keepAliveLoop` may get the lock between two
chunks of a package, and its byte then stands inside of it (`CloudBridgeSound`).
-/

namespace IoTRepublic

open Cpp

/-- The message of `keepAliveLoop`: the one byte ENQ, which belongs to no package. -/
def synData : List Byte := [0x05]

/-- One `SendData` to the cloud, with the thread that made it. -/
inductive CloudSend
  /-- By `managerLoop`. -/
  | forwarded (recvBuffer : List Byte)
  /-- By `keepAliveLoop`. -/
  | keptAlive
  deriving DecidableEq, Repr

namespace CloudSend

/-- What is sent. -/
def bytes : CloudSend → List Byte
  | forwarded recvBuffer => recvBuffer
  | keptAlive => synData

/-- What is sent, without the bytes of `keepAliveLoop`. -/
def packageBytes : CloudSend → List Byte
  | forwarded recvBuffer => recvBuffer
  | keptAlive => []

end CloudSend

/-- `CloudBridge`, between two steps of its threads: the buffer of the one that forwards,
and what has been sent. -/
structure CloudBridge where
  /-- The local variable of `managerLoop`. It is empty where the loop receives, and
  full where it waits for the lock. -/
  recvBuffer : List Byte := []
  sentToCloud : List CloudSend := []
  deriving DecidableEq, Repr

namespace CloudBridge

/-- The bytes sent to the cloud, as the other side reads them: one stream, without the
boundaries of the sends. -/
def cloudBytes (s : CloudBridge) : List Byte := s.sentToCloud.flatMap (·.bytes)

/-- The bytes sent, without those of `keepAliveLoop`. -/
def packageBytes (s : CloudBridge) : List Byte := s.sentToCloud.flatMap (·.packageBytes)

end CloudBridge

/-- A step of a thread: what it does between two points at which the other may run. -/
inductive BridgeEvent
  /-- `RecviveData` in `managerLoop`; an empty chunk is a failed `recv`. -/
  | received (chunk : List Byte)
  /-- The critical section of `managerLoop`. -/
  | forwarded
  /-- The critical section of `keepAliveLoop`. -/
  | keptAlive
  deriving DecidableEq, Repr

namespace BridgeEvent

/-- Is the thread there? `managerLoop` receives with an empty buffer and goes for the lock
with a full one; `keepAliveLoop` is always about to send. -/
def Possible (s : CloudBridge) : BridgeEvent → Prop
  | received _ => s.recvBuffer.length = 0
  | forwarded => 0 < s.recvBuffer.length
  | keptAlive => True

instance (s : CloudBridge) (e : BridgeEvent) : Decidable (e.Possible s) :=
  match e with
  | received _ => inferInstanceAs (Decidable (_ = _))
  | forwarded => inferInstanceAs (Decidable (_ < _))
  | keptAlive => inferInstanceAs (Decidable True)

/-- What the thread does. -/
def step (s : CloudBridge) : BridgeEvent → CloudBridge
  | received chunk => { s with recvBuffer := s.recvBuffer ++ chunk }
  | forwarded => { recvBuffer := [], sentToCloud := s.sentToCloud ++ [.forwarded s.recvBuffer] }
  | keptAlive => { s with sentToCloud := s.sentToCloud ++ [.keptAlive] }

/-- A step of the bridge: something a thread can do where it stands, and what becomes of
it. -/
def Step (s : CloudBridge) (e : BridgeEvent) (s' : CloudBridge) : Prop :=
  e.Possible s ∧ s' = e.step s

/-- The chunk an event receives, if it is one that receives; the stream from the manager
is these, put together. -/
def chunk? : BridgeEvent → Option (List Byte)
  | received chunk => some chunk
  | _ => none

end BridgeEvent

/-- The chunks received, in order. A cut of the stream is where one chunk ends and the
next begins. -/
def receivedChunks (es : List BridgeEvent) : List (List Byte) := es.filterMap (·.chunk?)

end IoTRepublic
