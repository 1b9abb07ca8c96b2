import IoTRepublic.Broker.XBeeBroker

/-!
# IoTRepublic.Broker.XBeeScan

`ScanAllDevice` of `Broker/XBeeBroker_ApiMode.cpp`, and the device table it keeps.

The scan first collects the radio addresses that answer the discovery command, round
by round, and then asks every module for an acknowledgement and its description.
Where the rounds given are too few for a call to come to an end, the result `none`
says so.

Both loops keep the receive buffer across modules: a reply that is not the acknowledgement
expected is not cleared, so that the next module's reply is read behind it. What a device
table looks like after any sequence of registrations is the subject of `XBeeTableSound`,
what a scan makes of the replies that of `XBeeScanSound`.
-/

namespace IoTRepublic

open Cpp

/-- `XBeeAddress64::isEqual`: both words agree. -/
def XBeeAddress64.isEqual (address addr1 : XBeeAddress64) : Bool :=
  addr1.lsb = address.lsb && addr1.msb = address.msb

namespace XBeeBrokerApiMode

/-- What a module is asked with whether it is one of the system's devices. -/
def msgSyn : List Byte := lit "SYN"

/-- What a device of the system answers to that. -/
def msgAck : List Byte := lit "ACK"

/-! ### Discovery -/

def maxFailTimes : Nat := 6

def maxAddressLength : Nat := 8

/-- The two loops that assemble an address: `dh` takes the indices from 0 to 3, `dl` those
from 4 to 7, both behind the two bytes of the sender's short address. There is no shift
behind the last byte. -/
def assembleWord (recvBuffer : List Byte) (start stop : Nat) : Except Fault (BitVec 32) :=
  (List.range' start (stop - start)).foldlM (fun (word : BitVec 32) (i : Nat) => do
    let word := word ||| unsignedCharBits (← vectorAt recvBuffer (i + 2 : Nat))
    return if i < stop - 1 then word <<< 8 else word) 0

/-- The variables that live through the loop of the discovery. -/
structure Discovery where
  failTimes : Nat := 0
  recvBuffer : List Byte := []
  xbeeAddresses : List XBeeAddress64 := []
  deriving DecidableEq, Repr

/-- The body of that loop: an answer to the discovery command brings the address of a
module. Anything else counts as a failure, and keeps what has been received. -/
def discoverRound (s : Discovery) (response : Option XBeeResponse) : Except Fault Discovery := do
  let (recvResult, recvBuffer) ← recvResponse .atCommand response s.recvBuffer
  if recvResult = .succeed then
    let dh ← assembleWord recvBuffer 0 (maxAddressLength / 2)
    let dl ← assembleWord recvBuffer (maxAddressLength / 2) maxAddressLength
    let address : XBeeAddress64 := ⟨.ofBitVec dh, .ofBitVec dl⟩
    return { s with recvBuffer := [], xbeeAddresses := s.xbeeAddresses ++ [address] }
  else
    return { s with recvBuffer := recvBuffer, failTimes := s.failTimes + 1 }

/-- The loop, as far as it has come with these responses. It ends with the sixth failure,
not with the sixth in a row. -/
def discoverFrom : Discovery → List (Option XBeeResponse) → Except Fault Discovery
  | s, [] => .ok s
  | s, response :: responses => do
    let s ← discoverRound s response
    if maxFailTimes ≤ s.failTimes then return s else discoverFrom s responses

/-- The discovery. -/
def discover (responses : List (Option XBeeResponse)) : Except Fault Discovery :=
  discoverFrom {} responses

/-! ### The device table -/

/-- `findDeviceIndex(XBeeAddress64 addr)`: the first device at the address among those an
`int` counts, or -1. -/
def findDeviceIndexOfAddress (xbeeDevices : List DeviceInfo) (addr : XBeeAddress64) : Int :=
  match (visible xbeeDevices).findIdx? (·.address.isEqual addr) with
  | some i => i
  | none => -1

/-- `addNewDevice`: a device takes the place of the one at its address, and comes last if
there is none. -/
def addNewDevice (xbeeDevices : List DeviceInfo) (addr : XBeeAddress64) (ioTIp : Text) :
    Except Fault (List DeviceInfo) := do
  let device : DeviceInfo := { address := addr, ioTIp := ioTIp }
  let index := findDeviceIndexOfAddress xbeeDevices addr
  if 0 ≤ index then
    let _ ← vectorAt xbeeDevices index
    return xbeeDevices.set index.toNat device
  else
    return xbeeDevices ++ [device]

/-- `registerDevice`, with the description and the address its two calls return; and
the package sent to the manager. -/
def registerDevice (managerIoTIp : Text) (xbeeDevices : List DeviceInfo) (addr : XBeeAddress64)
    (deviceDescription : List Byte) (ioTIp : Text) :
    Except Fault (List DeviceInfo × List IoTPackage) := do
  if 0 < deviceDescription.length ∧ 0 < ioTIp.length then
    let xbeeDevices ← addNewDevice xbeeDevices addr ioTIp
    let package ← IoTPackage.ofVector IoTPackage.protocolVersion ioTIp managerIoTIp
      (some deviceDescription)
    return (xbeeDevices, [package])
  else
    return (xbeeDevices, [])

/-! ### The modules one by one -/

/-- What is answered while the scan is at one module. -/
structure ModuleReplies where
  /-- The rounds of `getResponse`. -/
  response : List XBeeRead
  /-- The attempts of `askDeviceDescription`. -/
  attempts : List Attempt
  /-- What `askIoTIp` returns. -/
  ioTIp : Text
  deriving DecidableEq

/-- The body of the second loop of `ScanAllDevice`: the receive buffer, the devices
and the packages sent. A reply that is not the acknowledgement stays in the buffer. -/
def probeModule (managerIoTIp : Text) (addr : XBeeAddress64) (replies : ModuleReplies)
    (recvBuffer : List Byte) (xbeeDevices : List DeviceInfo) :
    Except Fault (Option (List Byte × List DeviceInfo × List IoTPackage)) := do
  let _ ← sendData addr msgSyn
  match ← getResponse recvBuffer replies.response with
  | none => return none
  | some (res, recvBuffer) =>
    if res ≠ .succeed then
      return some ([], xbeeDevices, [])
    else if recvBuffer = msgAck then
      match ← askDeviceDescription replies.attempts with
      | none => return none
      | some deviceDescription =>
        let (xbeeDevices, packages) ←
          registerDevice managerIoTIp xbeeDevices addr deviceDescription replies.ioTIp
        return some ([], xbeeDevices, packages)
    else
      return some (recvBuffer, xbeeDevices, [])

/-- The second loop of `ScanAllDevice`: the modules the discovery has found, one after the
other, with the buffer and the table handed on. -/
def probeModules (managerIoTIp : Text) : List (XBeeAddress64 × ModuleReplies) → List Byte →
    List DeviceInfo → Except Fault (Option (List DeviceInfo × List IoTPackage))
  | [], _, xbeeDevices => .ok (some (xbeeDevices, []))
  | (addr, replies) :: modules, recvBuffer, xbeeDevices => do
    match ← probeModule managerIoTIp addr replies recvBuffer xbeeDevices with
    | none => return none
    | some (recvBuffer, xbeeDevices, packages) =>
      match ← probeModules managerIoTIp modules recvBuffer xbeeDevices with
      | none => return none
      | some (xbeeDevices, later) => return some (xbeeDevices, packages ++ later)

/-- What is answered during a scan, by the XBee module, by the modules it finds and by the
manager. -/
structure ModuleScan where
  discovery : List (Option XBeeResponse)
  /-- One for each module the discovery has found. -/
  replies : List ModuleReplies
  managerIoTIp : Text

/-- `ScanAllDevice`: the discovery, and then every module it has found. The table of the
last scan is kept and added to. -/
def scanAllDevice (scan : ModuleScan) (xbeeDevices : List DeviceInfo) :
    Except Fault (Option (List DeviceInfo × List IoTPackage)) := do
  let found ← discover scan.discovery
  if found.failTimes < maxFailTimes ∨ scan.replies.length < found.xbeeAddresses.length then
    return none
  else
    probeModules scan.managerIoTIp ((visible found.xbeeAddresses).zip scan.replies) [] xbeeDevices

end XBeeBrokerApiMode

end IoTRepublic
