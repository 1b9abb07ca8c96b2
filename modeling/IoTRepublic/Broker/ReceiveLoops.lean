import IoTRepublic.IoT.PackageLoop

/-!
# IoTRepublic.Broker.ReceiveLoops

The five loops in which the brokers and the cloud bridge receive packages, one
round at a time: `LoRaBroker::serverLoop`, `XBeeBroker_ApiMode::serverLoop`,
`FakeBroker::loop`, `CloudUploader::loop` with `handleRecvData`, and
`CloudBridge::cloudLoop`.

A round receives a chunk and runs the package loop. The loops differ in where
they keep the bytes and in what a running scan does to them; what they do with a
package (`dispatch`) does not touch the buffer and is a parameter.
-/

namespace IoTRepublic

open Cpp IoTUtility

/-- What one round finds: the bytes that have arrived, and whether a scan is going on in
the other thread. -/
structure Received where
  /-- The bytes `RecviveData` appends; none when `recv` returned zero or less. -/
  chunk : List Byte
  /-- `nowScanning`, which the scanning thread sets. -/
  nowScanning : Bool := false

universe u

/-- The local variables of a loop between two rounds, with the packages it has passed on
as its history. -/
structure ReceiveState (σ : Type u) where
  /-- What `dispatch` works on. -/
  handler : σ
  /-- The bytes received and not consumed. -/
  buffer : List Byte := []
  /-- What `GetCompletedPackage` reported last. -/
  error : GetPackageError := .unknownError
  /-- The packages dispatched so far, in order. -/
  dispatched : List IoTPackage := []

variable {σ : Type u} (dispatch : IoTPackage → σ → Except Fault σ)

/-- `do … while (error == GetPackageError_NoError)` on the loop's buffer. -/
def dispatchPackages (s : ReceiveState σ) : Except Fault (ReceiveState σ) := do
  let ((handler, dispatched), error, buffer) ←
    packageLoop
      (fun package (state : σ × List IoTPackage) => do
        return (← dispatch package state.1, state.2 ++ [package]))
      (s.handler, s.dispatched) s.buffer
  return { handler := handler, buffer := buffer, error := error, dispatched := dispatched }

/-- A round of a loop that parses the buffer it receives into. With `dropping` the buffer
is dropped while a scan runs; nothing else clears it, whatever the error was. -/
def inPlaceRound (dropping : Bool) (r : Received) (s : ReceiveState σ) :
    Except Fault (ReceiveState σ) :=
  let recvBuffer := s.buffer ++ r.chunk
  if 0 < recvBuffer.length ∧ (dropping && r.nowScanning) then
    .ok { s with buffer := [] }
  else if 0 < recvBuffer.length then
    dispatchPackages dispatch { s with buffer := recvBuffer }
  else
    .ok { s with buffer := recvBuffer }

/-- A round of a loop that moves what it received to a package buffer and parses that one.
Neither is cleared. -/
def packageBufferRound (r : Received) (s : ReceiveState σ) : Except Fault (ReceiveState σ) :=
  if 0 < r.chunk.length then
    dispatchPackages dispatch { s with buffer := s.buffer ++ r.chunk }
  else
    .ok s

/-- `LoRaBroker::serverLoop`. -/
def LoRaBroker.serverLoop : Received → ReceiveState σ → Except Fault (ReceiveState σ) :=
  inPlaceRound dispatch true

/-- `XBeeBroker_ApiMode::serverLoop`. -/
def XBeeBrokerApiMode.serverLoop : Received → ReceiveState σ → Except Fault (ReceiveState σ) :=
  inPlaceRound dispatch true

/-- `FakeBroker::loop`, which never scans. -/
def FakeBroker.loop : Received → ReceiveState σ → Except Fault (ReceiveState σ) :=
  inPlaceRound dispatch false

/-- `CloudUploader::loop`, calling `handleRecvData`. -/
def CloudUploader.loop : Received → ReceiveState σ → Except Fault (ReceiveState σ) :=
  packageBufferRound dispatch

/-- `CloudBridge::cloudLoop`. -/
def CloudBridge.cloudLoop : Received → ReceiveState σ → Except Fault (ReceiveState σ) :=
  packageBufferRound dispatch

/-- The five loops that receive packages; the manager's own is a sixth, and clears its
buffers (`IoTManager`). -/
inductive ReceiveLoop
  | loRaBroker
  | xBeeBroker
  | fakeBroker
  | cloudUploader
  | cloudBridge
  deriving DecidableEq, Repr

namespace ReceiveLoop

/-- One round of a loop. -/
def round : ReceiveLoop → Received → ReceiveState σ → Except Fault (ReceiveState σ)
  | loRaBroker => LoRaBroker.serverLoop dispatch
  | xBeeBroker => XBeeBrokerApiMode.serverLoop dispatch
  | fakeBroker => FakeBroker.loop dispatch
  | cloudUploader => CloudUploader.loop dispatch
  | cloudBridge => CloudBridge.cloudLoop dispatch

/-- Does the loop drop what it has while a scan runs? -/
def dropping : ReceiveLoop → Bool
  | loRaBroker | xBeeBroker => true
  | fakeBroker | cloudUploader | cloudBridge => false

/-- The state after the rounds of `history`, when all of them return. -/
def runRounds (loop : ReceiveLoop) (handler : σ) (history : List Received) :
    Except Fault (ReceiveState σ) :=
  history.foldlM (fun s r => loop.round dispatch r s) { handler := handler }

end ReceiveLoop

end IoTRepublic
