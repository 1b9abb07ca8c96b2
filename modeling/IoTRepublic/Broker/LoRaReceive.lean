import IoTRepublic.Broker.LoRaBroker
import IoTRepublic.Broker.XBeeBroker
import IoTRepublic.Utility.Base64

/-!
# IoTRepublic.Broker.LoRaReceive

`Broker/LoRaBroker.cpp`: what the broker exchanges with a node over the serial port,
`sendData`, `recvData` and `getResponse`, the check that calls them, and the package
made of an answer.

What arrives at the port, and when the time limit is over, is an input: one
`SerialRead` for each round of the loop that reads. A loop whose reads have run out
has not come to its end, which is what the result `none` says.

A payload is framed between two codes, encoded as Base64 and closed with a carriage
return. On the way back the length of what is read is decided by the capacity of the
caller's vector, and the end of what is decoded by the first character that is no Base64;
neither of them is the carriage return.
-/

namespace IoTRepublic

open Cpp

namespace LoRaBroker

/-- `RecvResult`: how a call that receives has ended. -/
inductive RecvResult
  | succeed
  | timeout
  | failed
  deriving DecidableEq, Repr

/-- What a round of the loop of `recvData` meets. -/
inductive SerialRead
  /-- The time limit is over. -/
  | expired
  /-- What has arrived when the port is polled, and what arrives while the thread
  sleeps in front of the second poll. -/
  | poll (arrived later : List Byte)
  deriving DecidableEq, Repr

def startCode : Byte := 0x02

def endCode : Byte := 0x03

/-- The command of the LoRa module that sends data to a node. -/
def cmdSendData : Text := lit "LoraNodeData"

/-- What ends a command on the serial line: a carriage return. -/
def cmdEndSymbol : Text := [0x0D]

/-- The size of the array a command is encoded into. -/
def maxRecvBufferSize : Nat := 2000

/-- The size of the array `tempBuffer`, into which the port is polled and the answer
decoded. -/
def tempBufSize : Nat := 2000

/-! ### Sending -/

/-- `sendData`: the bytes written to the serial port. The array the data is encoded into
has a fixed size, and nothing compares it with the length of the data. -/
def sendData (address : Text) (data : List Byte) : Except Fault (List Byte) := do
  let sendCmd := cmdSendData ++ lit " " ++ address ++ lit " "
  let sendBuffer := startCode :: data ++ [endCode]
  let (encodedBuffer, encodedSize) ← base64encode sendBuffer (toInt sendBuffer.length)
  if maxRecvBufferSize < encodedBuffer.length then
    .error .undefinedBehaviour
  else
    return sendCmd ++ encodedBuffer.take encodedSize.toNat ++ cmdEndSymbol

/-! ### Receiving -/

/-- `RS232_PollComport` into `tempBuffer`: what it delivers, and what is left at the port
for the next poll. -/
def pollComport (size : Nat) (pending : List Byte) : Except Fault (List Byte × List Byte) :=
  if tempBufSize < (pending.take size).length then
    .error .undefinedBehaviour
  else
    .ok (pending.take size, pending.drop size)

/-- The loop of `recvData`: `res` and `recvBuffer` behind it. A poll asks for as many
bytes as the vector of the caller has reserved. -/
def recvLoop (capacity : Nat) : List Byte → List SerialRead →
    Except Fault (Option (RecvResult × List Byte))
  | _, [] => .ok none
  | _, .expired :: _ => .ok (some (.timeout, []))
  | pending, .poll arrived later :: reads => do
    let (first, pending) ← pollComport capacity (pending ++ arrived)
    if first = [] then
      recvLoop capacity pending reads
    else
      let (second, _) ← pollComport capacity (pending ++ later)
      return some (.succeed, first ++ second)

/-- `recvData`, into a vector that has reserved `capacity` bytes. Nothing terminates
`recvBuffer`: the decoder may go on to what lies `behind` it in memory. -/
def recvData (capacity : Nat) (data behind : List Byte) (reads : List SerialRead) :
    Except Fault (Option (RecvResult × List Byte)) := do
  match ← recvLoop capacity [] reads with
  | none => return none
  | some (.succeed, recvBuffer) =>
    let (decoded, n) ← base64decode (recvBuffer ++ behind)
    if tempBufSize < decoded.length then
      .error .undefinedBehaviour
    else
      let tempBuffer := decoded ++ List.replicate (tempBufSize - decoded.length) 0
      reserve n
      return some (.succeed, data ++ tempBuffer.take n.toNat)
  | some (res, _) => return some (res, data)

/-- `findStartCodeIndex`. -/
def findStartCodeIndex (buffer : List Byte) : Int :=
  XBeeBrokerApiMode.findCodeIndex startCode buffer

/-- `findEndCodeIndex`. -/
def findEndCodeIndex (buffer : List Byte) : Int :=
  XBeeBrokerApiMode.findCodeIndex endCode buffer

/-- `v.erase(v.begin() + i)`, which is undefined off the ends of the vector. -/
def eraseAt (v : List Byte) (i : Int) : Except Fault (List Byte) :=
  if 0 ≤ i ∧ i < v.length then .ok (v.eraseIdx i.toNat) else .error .undefinedBehaviour

/-- What `getResponse` does behind `recvData`: both codes are looked up, and erased one
after the other. The second index is taken one lower, as if the start code had always
stood in front of the end code. -/
def removeMarkers (result : RecvResult) (recvBuffer : List Byte) :
    Except Fault (RecvResult × List Byte) := do
  if result = .succeed then
    let indexOfStartCode := findStartCodeIndex recvBuffer
    let indexOfEndCode := findEndCodeIndex recvBuffer
    if indexOfStartCode = -1 ∨ indexOfEndCode = -1 then
      return (.failed, [])
    else
      let recvBuffer ← eraseAt recvBuffer indexOfStartCode
      let recvBuffer ← eraseAt recvBuffer (indexOfEndCode - 1)
      return (result, recvBuffer)
  else
    return (result, recvBuffer)

/-- `getResponse`: the answer of a node without its two codes, or a failure if one of them
is missing. -/
def getResponse (capacity : Nat) (recvBuffer behind : List Byte) (reads : List SerialRead) :
    Except Fault (Option (RecvResult × List Byte)) := do
  match ← recvData capacity recvBuffer behind reads with
  | none => return none
  | some (result, recvBuffer) => return some (← removeMarkers result recvBuffer)

/-! ### The alive check -/

/-- What `recvData` meets in one attempt of the check. -/
structure AliveReads where
  /-- What the shared buffer has reserved by then. -/
  capacity : Nat
  behind : List Byte
  reads : List SerialRead
  deriving DecidableEq, Repr

/-- The attempts of `checkAlive`, with their calls of `recvData`. An attempt that has run
out of time leaves the buffer to the next one. -/
def checkAliveOn (heap : Nat → Byte) : List AliveReads → List Byte → Except Fault (Option Bool)
  | [], _ => .ok (some false)
  | attempt :: attempts, recvBuffer => do
    match ← recvData attempt.capacity recvBuffer attempt.behind attempt.reads with
    | none => return none
    | some (.succeed, recvBuffer) =>
      let _ ← vectorAt recvBuffer 0
      if isAck heap recvBuffer then
        return some true
      else
        checkAliveOn heap attempts recvBuffer
    | some (_, recvBuffer) => checkAliveOn heap attempts recvBuffer

/-! ### Forwarding -/

/-- `findDeviceIndex`: the first node with the address among those an `int` counts, or
-1. -/
def findDeviceIndex (loRaDevices : List DeviceInfo) (addr : Text) : Int :=
  match (visible loRaDevices).findIdx? (·.iotIp = addr) with
  | some i => i
  | none => -1

/-- What `handleForwardingPackage` reserves for an answer. -/
def responseCapacity : Nat := 20

/-- The second half of `handleForwardingPackage`: the packages sent to the manager, which
is one if there is an answer. It has the ID of the command and goes back where that came
from. -/
def forwardResponse (J : Jansson) (package : IoTPackage) (cmdFromManager : IoTCommand)
    (res : RecvResult) (bufferFromEndDevice : List Byte) : Except Fault (List IoTPackage) := do
  if res = .succeed ∧ 0 < bufferFromEndDevice.length then
    let cmdToManager ← IoTCommand.ofValues J .readResponse cmdFromManager.id bufferFromEndDevice
    let responsePackage ← IoTPackage.ofVector package.ver package.desIp package.sorIp
      (some cmdToManager.sendedData)
    return [responsePackage]
  else
    return []

/-- `handleForwardingPackage`: the packages sent to the manager. -/
def handleForwardingPackage (J : Jansson) (loRaDevices : List DeviceInfo) (package : IoTPackage)
    (behind : List Byte) (reads : List SerialRead) : Except Fault (Option (List IoTPackage)) := do
  let cmdFromManager ← IoTCommand.ofContent J package.dataVector
  let targetXbeeDeviceIndex := findDeviceIndex loRaDevices package.desIp
  if 0 ≤ targetXbeeDeviceIndex then
    let device ← vectorAt loRaDevices targetXbeeDeviceIndex
    let _ ← sendData device.loRaAddress cmdFromManager.id
    match ← getResponse responseCapacity [] behind reads with
    | none => return none
    | some (res, bufferFromEndDevice) =>
      return some (← forwardResponse J package cmdFromManager res bufferFromEndDevice)
  else
    return some (← forwardResponse J package cmdFromManager .failed [])

end LoRaBroker

end IoTRepublic
