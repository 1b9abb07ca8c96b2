import IoTRepublic.Broker.ReceiveLoops
import IoTRepublic.Broker.XBeeApi
import IoTRepublic.IoT.Command

/-!
# IoTRepublic.Broker.XBeeBroker

`Broker/XBeeBroker_ApiMode.cpp`: what the broker exchanges with end devices over the
XBee module.

What the module delivers, and when a time limit is over, is an input: one
`XBeeRead` for each round of a loop that reads. A loop whose reads have run out has
not come to its end, which is what the result `none` says.

An exchange is a request frame, the module's own status for it, and the reply of the
device in a frame that the module passes on. `getResponse` counts frames, `recvData` waits
for the two codes a reply is framed with, and `askDeviceDescription` retries a whole
exchange until the checksum at the end of a description is right. Each has its own idea of
when it is done, and most of what goes wrong here lies in the difference.
-/

namespace IoTRepublic

open Cpp

namespace XBeeBrokerApiMode

/-- `XBeeResponseType`: what a caller of `recvResponse` expects to receive. -/
inductive XBeeResponseType
  | unknown
  | atCommand
  | txStatus
  | rxStatus
  deriving DecidableEq, Repr

/-- `RecvResult`: how a call that receives has ended. -/
inductive RecvResult
  | succeed
  | timeout
  | failed
  deriving DecidableEq, Repr

/-- `DeviceInfo`: an end device, by its address in the system and by that of its radio. -/
structure DeviceInfo where
  ioTIp : Text
  address : XBeeAddress64
  deriving DecidableEq, Repr

/-- What a round of a loop meets. The clock is looked at first, then the port. -/
inductive XBeeRead
  /-- The time limit of the loop is over. -/
  | expired
  /-- `readPacket`; `none` where it returns `false`. -/
  | readPacket (response : Option XBeeResponse)
  deriving DecidableEq

def startCode : Byte := 0x02

def endCode : Byte := 0x03

/-! ### Sending -/

/-- `sendData`: the bytes written to the serial port, with the data framed between the two
codes. The length of a payload is a byte, so the count of longer data wraps around. -/
def sendData (xbeeMacAddr : XBeeAddress64) (data : List Byte) : Except Fault (List Byte) := do
  let sendBufLen := toInt (data.length + 2)
  reserve sendBufLen
  let sendBuff := startCode :: data ++ [endCode]
  XBee.send { addr64 := xbeeMacAddr, payload := sendBuff, payloadLength := UInt8.ofInt sendBufLen }

/-! ### Receiving -/

/-- `recvResponse`: a response of the expected type is read behind what the buffer holds;
a status is only looked at. A response that has been read is available. -/
def recvResponse (expectType : XBeeResponseType) (response : Option XBeeResponse)
    (recvBuffer : List Byte) : Except Fault (RecvResult × List Byte) := do
  match response with
  | none => return (.timeout, recvBuffer)
  | some r =>
    if expectType = .atCommand ∧ r.apiId = XBeeResponse.atCommandId then
      if r.isOk then
        return (.succeed, recvBuffer ++ (← r.readValue))
      else
        return (.failed, recvBuffer)
    else if expectType = .rxStatus ∧ r.apiId = XBeeResponse.rxResponseId then
      return (.succeed, recvBuffer ++ (← r.readData))
    else if expectType = .txStatus ∧ r.apiId = XBeeResponse.txStatusId then
      if r.getStatus = XBee.success then
        return (.succeed, recvBuffer)
      else
        return (.failed, recvBuffer)
    else
      return (.failed, recvBuffer)

/-- The loop of `getResponse`, with its variables `result`, `responseCount` and
`recvBuffer`. -/
def getResponseFrom : RecvResult → Nat → List Byte → List XBeeRead →
    Except Fault (Option (RecvResult × List Byte))
  | _, _, _, [] => .ok none
  | _, _, recvBuffer, .expired :: _ => .ok (some (.timeout, recvBuffer))
  | result, responseCount, recvBuffer, .readPacket response :: reads => do
    let (result, responseCount, recvBuffer) ←
      match response with
      | none => pure (result, responseCount, recvBuffer)
      | some r =>
        if r.apiId = XBeeResponse.rxResponseId then do
          pure (.succeed, responseCount + 1, recvBuffer ++ (← r.readData))
        else if r.apiId = XBeeResponse.txStatusId then
          pure (if r.getStatus = XBee.success then .succeed else result, responseCount + 1,
            recvBuffer)
        else
          pure (result, responseCount, recvBuffer)
    if responseCount = 2 then
      return some (result, recvBuffer)
    else
      getResponseFrom result responseCount recvBuffer reads

/-- `getResponse` waits for two frames, and succeeds if one of them says that something
went well. Which two they are is not looked at. -/
def getResponse (recvBuffer : List Byte) (reads : List XBeeRead) :
    Except Fault (Option (RecvResult × List Byte)) :=
  getResponseFrom .failed 0 recvBuffer reads

/-- The index of the first `code` an `int` loop finds, or -1. -/
def findCodeIndex (code : Byte) (buffer : List Byte) : Int :=
  match (visible buffer).findIdx? (· = code) with
  | some i => i
  | none => -1

/-- `findStartCodeIndex`: where the reply of a device begins, or -1. -/
def findStartCodeIndex (buffer : List Byte) : Int := findCodeIndex startCode buffer

/-- `findEndCodeIndex`: where it ends, or -1. -/
def findEndCodeIndex (buffer : List Byte) : Int := findCodeIndex endCode buffer

/-- The loop of `recvData`: `res`, `isStartRecv`, `isEndRecv` and `dataBuffer` behind it.
It goes on until both codes are in the buffer, in either order, but the end code not at
its front. -/
def recvLoop : List Byte → List XBeeRead →
    Except Fault (Option (RecvResult × Bool × Bool × List Byte))
  | _, [] => .ok none
  | dataBuffer, .expired :: _ => .ok (some (.timeout, false, false, dataBuffer))
  | dataBuffer, .readPacket response :: reads => do
    let (res, dataBuffer) ← recvResponse .rxStatus response dataBuffer
    if res = .succeed ∧ 0 ≤ findStartCodeIndex dataBuffer ∧ 0 < findEndCodeIndex dataBuffer then
      return some (res, true, true, dataBuffer)
    else
      recvLoop dataBuffer reads

/-- `v.erase(v.begin())`, which is undefined on an empty vector. -/
def eraseBegin : List Byte → Except Fault (List Byte)
  | [] => .error .undefinedBehaviour
  | _ :: v => .ok v

/-- `v.erase(v.end() - 1)`, which is undefined on an empty vector. -/
def eraseLast : List Byte → Except Fault (List Byte)
  | [] => .error .undefinedBehaviour
  | b :: v => .ok (b :: v).dropLast

/-- `recvData`: the reply without its first and its last byte. They are taken off after a
time-out too, as the two flags are then equal. -/
def recvData (dataBuffer : List Byte) (reads : List XBeeRead) :
    Except Fault (Option (RecvResult × List Byte)) := do
  match ← recvLoop dataBuffer reads with
  | none => return none
  | some (res, isStartRecv, isEndRecv, dataBuffer) =>
    -- `isStartRecv == isEndRecv == 1` compares the outcome of the first test with one.
    if (isStartRecv == isEndRecv) == true then
      let dataBuffer ← eraseBegin dataBuffer
      let dataBuffer ← eraseLast dataBuffer
      return some (res, dataBuffer)
    else
      return some (res, dataBuffer)

/-! ### The description of a device -/

/-- `getCheckSum`: the sum of the bytes, as the sender of a description writes it in two
bytes behind it. -/
def getCheckSum (buffer : List Byte) : BitVec 32 :=
  (visible buffer).foldl (fun sum b => sum + unsignedCharBits b) 0

def maxReTryTimes : Nat := 3

/-- What comes of sending the request once, as far as `askDeviceDescription` looks at
it. -/
inductive Attempt
  /-- The request was not delivered. -/
  | txFailed
  /-- `recvData` does not succeed. -/
  | rxFailed
  /-- `recvData` succeeds and leaves this in the buffer. -/
  | reply (devPackBuf : List Byte)
  deriving DecidableEq, Repr

/-- The variables of `askDeviceDescription` that live through its loop: the retries, and
the sum read off the last reply. The buffer is empty whenever the request is sent. -/
structure Handshake where
  tryTimes : Nat := 0
  sum : BitVec 32 := 0
  deriving DecidableEq, Repr

/-- What an attempt leads to: an end of the loop with a description or without one, or
another attempt. -/
inductive Verdict
  /-- `break`, with what is returned. -/
  | done (devPackBuf : List Byte)
  | again (handshake : Handshake)
  deriving DecidableEq

/-- The body of the loop of `askDeviceDescription`: an undelivered request ends it, a
missing reply is tried again for free, and a reply whose checksum is wrong costs a retry.
The sum is read into what the last reply has left in it. -/
def handleAttempt (handshake : Handshake) : Attempt → Except Fault Verdict
  | .txFailed => .ok (.done [])
  | .rxFailed => .ok (.again handshake)
  | .reply devPackBuf => do
    let high ← vectorAt devPackBuf ((devPackBuf.length : Int) - 2)
    let sum := (handshake.sum ||| unsignedCharBits high) <<< 8
    let low ← vectorAt devPackBuf ((devPackBuf.length : Int) - 1)
    let sum := sum ||| unsignedCharBits low
    let devPackBuf := devPackBuf.take (devPackBuf.length - 2)
    if sum = getCheckSum devPackBuf then
      return .done devPackBuf
    else
      return .again { tryTimes := handshake.tryTimes + 1, sum := sum }

/-- The loop of `askDeviceDescription`; one attempt sends the request once. -/
def askFrom : Handshake → List Attempt → Except Fault (Option (List Byte))
  | _, [] => .ok none
  | handshake, attempt :: attempts => do
    match ← handleAttempt handshake attempt with
    | .done devPackBuf => return some devPackBuf
    | .again handshake =>
      if handshake.tryTimes < maxReTryTimes then askFrom handshake attempts else return some []

/-- `askDeviceDescription`, by what its calls return: the description of a device, or
nothing. -/
def askDeviceDescription (attempts : List Attempt) : Except Fault (Option (List Byte)) :=
  askFrom {} attempts

/-- What the calls of one attempt read: the status of the request, and the rounds of
`recvData`. -/
structure AttemptReads where
  txStatus : Option XBeeResponse
  rxData : List XBeeRead
  deriving DecidableEq

/-- The calls of one attempt: the status of the request, and only if it was delivered the
reply. -/
def attempt (reads : AttemptReads) : Except Fault (Option Attempt) := do
  let (resultTx, devPackBuf) ← recvResponse .txStatus reads.txStatus []
  if resultTx = .succeed then
    match ← recvData devPackBuf reads.rxData with
    | none => return none
    | some (resultRx, devPackBuf) =>
      return some (if resultRx = .succeed then .reply devPackBuf else .rxFailed)
  else
    return some .txFailed

/-! ### Forwarding -/

/-- `findDeviceIndex(string iotIp)`. -/
def findDeviceIndex (xbeeDevices : List DeviceInfo) (iotIp : Text) : Int :=
  match (visible xbeeDevices).findIdx? (·.ioTIp = iotIp) with
  | some i => i
  | none => -1

/-- The second half of `handleForwardingPackage`: the packages sent to the manager. -/
def forwardResponse (J : Jansson) (package : IoTPackage) (cmdFromManager : IoTCommand)
    (res : RecvResult) (bufferFromEndDevice : List Byte) : Except Fault (List IoTPackage) := do
  if res = .succeed ∧ 0 < bufferFromEndDevice.length then
    -- `string value(begin() + 1, end() - 1)`
    if bufferFromEndDevice.length < 2 then
      .error .undefinedBehaviour
    else
      let value := (bufferFromEndDevice.drop 1).dropLast
      let cmdToManager ← IoTCommand.ofValues J .readResponse cmdFromManager.id value
      let responsePackage ← IoTPackage.ofVector package.ver package.desIp package.sorIp
        (some cmdToManager.sendedData)
      return [responsePackage]
  else
    return []

/-- `handleForwardingPackage`: the packages sent to the manager. Without a device the
buffer stays empty, whatever `res` is. -/
def handleForwardingPackage (J : Jansson) (xbeeDevices : List DeviceInfo) (package : IoTPackage)
    (reads : List XBeeRead) : Except Fault (Option (List IoTPackage)) := do
  let cmdFromManager ← IoTCommand.ofContent J package.dataVector
  let targetXbeeDeviceIndex := findDeviceIndex xbeeDevices package.desIp
  if 0 ≤ targetXbeeDeviceIndex then
    let device ← vectorAt xbeeDevices targetXbeeDeviceIndex
    let _ ← sendData device.address cmdFromManager.id
    match ← getResponse [] reads with
    | none => return none
    | some (res, bufferFromEndDevice) =>
      return some (← forwardResponse J package cmdFromManager res bufferFromEndDevice)
  else
    return some []

end XBeeBrokerApiMode

end IoTRepublic
