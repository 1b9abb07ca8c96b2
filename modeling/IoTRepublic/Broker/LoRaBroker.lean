import IoTRepublic.IoT.Package

/-!
# IoTRepublic.Broker.LoRaBroker

`Broker/LoRaBroker.cpp`: the scan for LoRa nodes, `ScanAllDevice`.

What the LoRa module and the nodes answer comes with the scan, visit by visit
(`NodeReplies`), and so do the addresses the manager hands out. The bytes written to
the serial port are left out: nothing reads them back.

A scan reads the configuration file behind the entries of the last scan, visits every
entry, erases those that do not answer, and registers the rest. As the entries of the last
scan are never dropped, a node that answers is entered again with every scan; the index of
the first loop is unsigned and steps back through zero when the first entry is erased.
-/

namespace IoTRepublic

open Cpp

/-- `LoRaBroker::DeviceInfo`: a node, with the address the manager gave it and its two
fields in the configuration. -/
structure LoRaBroker.DeviceInfo where
  iotIp : Text := []
  loRaAddress : Text
  deviceDescription : Text
  deriving DecidableEq, Repr

/-- `LoRaBroker`, between two scans. -/
structure LoRaBroker where
  loRaDevices : List LoRaBroker.DeviceInfo := []
  deriving DecidableEq, Repr

/-- What is answered while the scan visits one entry. -/
structure NodeReplies where
  /-- What `recvAtResponse` receives in each attempt of `addNode`. -/
  joinResponse : Nat → Text
  /-- What `recvData` decodes in each attempt of `checkAlive`, unless it times out. -/
  aliveResponse : Nat → Option (List Byte)
  /-- What is in the memory reserved for the buffer of `checkAlive`. -/
  heap : Nat → Byte

namespace LoRaBroker

/-- The at sign, which stands between any two fields of the configuration file. The line
ends are skipped like any white space, and separate nothing. -/
def configFileSplitSymbol : Byte := 0x40

def msgAck : List Byte := lit "ACK"

def maxRetryTimes : Nat := 3

/-! ### The configuration -/

/-- The characters an `istream_iterator<char>` skips. -/
def isSpace (b : Byte) : Bool := b = 0x20 || (0x09 ≤ b && b ≤ 0x0d)

/-- `ReadTextFileToVector`; a file that cannot be opened reads like an empty one. The
size of the file is an `int`. -/
def readTextFileToVector (file : List Byte) : Except Fault (List Byte) := do
  reserve (toInt file.length)
  return file.filter (!isSpace ·)

/-- The loop over the split configuration, two fields at a time. An odd number of them
makes `at` throw at the last. -/
def readDevices : List Text → Except Fault (List DeviceInfo)
  | [] => .ok []
  | [_] => .error .outOfRange
  | loRaAddress :: deviceDescription :: columns => do
    let devices ← readDevices columns
    return { loRaAddress := loRaAddress, deviceDescription := deviceDescription } :: devices

/-- The devices of a configuration file, in the order of their fields. -/
def configDevices (file : List Byte) : Except Fault (List DeviceInfo) := do
  readDevices ((← readTextFileToVector file).splitOn configFileSplitSymbol)

/-- `loadLoRaConfigFile` puts the devices of the file behind those there are. A vector
holds no more elements than a `size_t` can count. -/
def loadLoRaConfigFile (file : List Byte) (loRaDevices : List DeviceInfo) :
    Except Fault (List DeviceInfo) := do
  let devices := loRaDevices ++ (← configDevices file)
  if devices.length < 2 ^ 64 then
    return devices
  else
    .error .lengthError

/-! ### One node -/

/-- The attempts of `addNode` from the `i`-th on. -/
def addNodeFrom (replies : NodeReplies) : Nat → Nat → Bool
  | 0, _ => false
  | attempts + 1, i =>
    if replies.joinResponse i = lit "JoinOK" then true else addNodeFrom replies attempts (i + 1)

/-- `addNode` asks the LoRa module to join the node, three times at most. -/
def addNode (replies : NodeReplies) : Bool := addNodeFrom replies maxRetryTimes 0

/-- `memcmp("ACK", &recvBuffer.at(0), 3) == 0`. Of a shorter buffer the comparison goes on
into the memory reserved for it. -/
def isAck (heap : Nat → Byte) (recvBuffer : List Byte) : Bool :=
  (List.range 3).all fun k => recvBuffer.getD k (heap k) = msgAck.getD k 0

/-- The attempts of `checkAlive` from the `i`-th on. What a failed attempt has
received stays in the buffer. -/
def checkAliveFrom (replies : NodeReplies) : Nat → Nat → List Byte → Except Fault Bool
  | 0, _, _ => .ok false
  | attempts + 1, i, recvBuffer =>
    match replies.aliveResponse i with
    | none => checkAliveFrom replies attempts (i + 1) recvBuffer
    | some data => do
      let recvBuffer := recvBuffer ++ data
      let _ ← vectorAt recvBuffer 0
      if isAck replies.heap recvBuffer then
        return true
      else
        checkAliveFrom replies attempts (i + 1) recvBuffer

/-- `checkAlive` asks the node for an acknowledgement, three times at most, with one
buffer for all attempts. -/
def checkAlive (replies : NodeReplies) : Except Fault Bool :=
  checkAliveFrom replies maxRetryTimes 0 []

/-! ### The scan -/

/-- The first loop of `ScanAllDevice`, for one entry: a dead one is erased, and the index
steps back so that the next entry is not left out. -/
def visitDevice (replies : NodeReplies) (i : UInt64) (loRaDevices : List DeviceInfo) :
    Except Fault (UInt64 × List DeviceInfo) := do
  let _ ← vectorAt loRaDevices i.toNat
  if addNode replies then
    let targetAlive ← checkAlive replies
    if targetAlive then
      return (i, loRaDevices)
    else
      return (i - 1, loRaDevices.eraseIdx i.toNat)
  else
    return (i - 1, loRaDevices.eraseIdx i.toNat)

/-- The first loop of `ScanAllDevice`. The index is a `size_t`: stepping back from
zero it wraps, and `i++` brings it back. -/
def visitDevices : List NodeReplies → UInt64 → List DeviceInfo →
    Except Fault (UInt64 × List DeviceInfo)
  | [], i, loRaDevices => .ok (i, loRaDevices)
  | replies :: later, i, loRaDevices =>
    if i.toNat < loRaDevices.length then do
      let (i, loRaDevices) ← visitDevice replies i loRaDevices
      visitDevices later (i + 1) loRaDevices
    else
      .ok (i, loRaDevices)

/-- The second loop of `ScanAllDevice`. Every entry asks for an address
(`askIoTIp`), and its registration goes to the manager. -/
def registerDevices (managerIoTIp : Text) (askIoTIp : Nat → Text) :
    Nat → List DeviceInfo → Except Fault (List DeviceInfo × List IoTPackage)
  | _, [] => .ok ([], [])
  | i, device :: loRaDevices => do
    let device := { device with iotIp := askIoTIp i }
    let package ← IoTPackage.ofString IoTPackage.protocolVersion device.iotIp managerIoTIp
      device.deviceDescription
    let (loRaDevices, packages) ← registerDevices managerIoTIp askIoTIp (i + 1) loRaDevices
    return (device :: loRaDevices, package :: packages)

/-- What the outside contributes to one scan. -/
structure Scan where
  /-- One for each entry the scan visits. -/
  replies : List NodeReplies
  managerIoTIp : Text
  askIoTIp : Nat → Text

/-- `ScanAllDevice`, with the packages it sends to the manager. -/
def scanAllDevice (file : List Byte) (scan : Scan) (s : LoRaBroker) :
    Except Fault (LoRaBroker × List IoTPackage) := do
  let loRaDevices ← loadLoRaConfigFile file s.loRaDevices
  let (_, loRaDevices) ← visitDevices scan.replies 0 loRaDevices
  let (loRaDevices, packages) ←
    registerDevices scan.managerIoTIp scan.askIoTIp 0 loRaDevices
  return ({ loRaDevices := loRaDevices }, packages)

/-- A scan that comes to its end: every entry has been visited, those of earlier scans
included. -/
def CompletedScan (file : List Byte) (s : LoRaBroker) (scan : Scan)
    (result : LoRaBroker × List IoTPackage) : Prop :=
  ∃ loaded, loadLoRaConfigFile file s.loRaDevices = .ok loaded ∧
    scan.replies.length = loaded.length ∧ scanAllDevice file scan s = .ok result

end LoRaBroker

end IoTRepublic
