import IoTRepublic.IoT.PackageLoop
import IoTRepublic.IoT.Ruler
import IoTRepublic.Network.TcpServer

/-!
# IoTRepublic.IoT.Manager

`IoT/IoTManager.cpp`: the manager, which is a `Ruler` and a `TcpServer`.

A handler sees the server's socket table and changes the manager. Besides the new
manager it returns its `Effect`s: what it sent and which rules it ran, in order.
They are not part of the program; `Action`s put them, together with the events
that caused them, on one time line.

Routing rests on two tables. The server's `clientSockets` has a descriptor for each slot,
and the list of registered devices has, for each device, the slot its registration came in
on. A package for an address is looked up in the second and sent on the socket the first
then has; nothing but a closed connection takes a device off the list, and the rules whose
devices are gone are then removed with it.
-/

namespace IoTRepublic

open Cpp JsonUtility IoTUtility

/-- `IoTManager::IoTDeviceInfo`: a registered device, with the address it registered from,
what its message says of it, and the slot of its connection. -/
structure IoTDeviceInfo where
  iotIp : Text
  functionGroup : Text
  deviceID : Text
  deviceDescription : Text
  socketIndex : Nat
  deriving DecidableEq, Repr

/-- `IoTManager`, without the fields of `TcpServer`: the ruler, the device list, the
number of the next address, and the receive buffers. -/
structure IoTManager where
  ipCount : Int := 0
  registedDevices : List IoTDeviceInfo := []
  /-- One buffer for each slot of the server. -/
  packageBuffer : List (List Byte)
  ruler : Ruler
  deriving DecidableEq

/-- What a handler does besides changing the manager. A descriptor is the one
`send` was called on, if it was; with it comes the device it belongs to, where the
handler has looked one up. -/
inductive Effect
  /-- An answer to the client in the slot. -/
  | answered (socketIndex : Nat) (socket : Option Int) (buffer : List Byte)
  /-- The device was put on the list. -/
  | registered (device : IoTDeviceInfo)
  /-- A package was passed on to a registered device. -/
  | forwarded (device : IoTDeviceInfo) (socket : Option Int) (buffer : List Byte)
  /-- `excuteReadRule` asked the device the rule reads from. -/
  | readRequested (ruleInstance : RuleInstance) (target : Option (IoTDeviceInfo × Int))
  /-- `excuteWriteRule` was called. -/
  | ruleWritten (ruleInstance : RuleInstance) (writeValue : Text)
      (target : Option (IoTDeviceInfo × Int))
  deriving DecidableEq, Repr

namespace IoTManager

/-- The address of the manager itself. What is sent to it is for its own handlers; what is
sent elsewhere is passed on. -/
def serverIoTIP : Text := lit "Master"

/-- The prefix of the addresses handed out. -/
def addressPrefix : Text := lit "DEV."

variable (J : Jansson) (server : TcpServer)

/-! ### The device list -/

/-- `findDeviceIndexByDeviceId`; `none` is the index -1. As in every function below,
`int deviceSize` is the wrapped size of the list, and only the devices it counts are
looked at. -/
def findDeviceIndexByDeviceId (id : Text) (devices : List IoTDeviceInfo) : Option Nat :=
  (visible devices).findIdx? (·.deviceID = id)

/-- `findDeviceIndexByIoTIp`, on which all routing rests: packages, reads and writes of
rules go to the first device with the address. -/
def findDeviceIndexByIoTIp (iotIp : Text) (devices : List IoTDeviceInfo) : Option Nat :=
  (visible devices).findIdx? (·.iotIp = iotIp)

/-- `isSocketIndexExistsAnyDevice`: has the slot a device at all? -/
def isSocketIndexExistsAnyDevice (socketIndex : Nat) (devices : List IoTDeviceInfo) : Bool :=
  (visible devices).any (·.socketIndex = socketIndex)

/-- The loop of `removeDeviceBySocketIndex`, with `remaining` devices to look at: it
erases in place and steps back. -/
def removeDevices (socketIndex : Nat) : Nat → List IoTDeviceInfo → List IoTDeviceInfo
  | _, [] => []
  | 0, devices => devices
  | remaining + 1, device :: devices =>
    if device.socketIndex = socketIndex then removeDevices socketIndex remaining devices
    else device :: removeDevices socketIndex remaining devices

/-- `removeDeviceBySocketIndex`: the devices of a slot leave the list, in one pass. -/
def removeDeviceBySocketIndex (socketIndex : Nat) (devices : List IoTDeviceInfo) :
    List IoTDeviceInfo :=
  removeDevices socketIndex (toInt devices.length).toNat devices

/-- `encodeAllRegistedDevices`: address and description of every device, each closed by
a NUL. 500 bytes are reserved for a device, and the product is an `int`. -/
def encodeAllRegistedDevices (devices : List IoTDeviceInfo) : Except Fault (List Byte) := do
  let deviceCount := toInt devices.length
  if ¬ InInt (500 * deviceCount) then
    .error .signedOverflow
  reserve (500 * deviceCount)
  return (visible devices).flatMap fun devInfo =>
    visible devInfo.iotIp ++ [IoTPackage.segmentSymbol]
      ++ visible devInfo.deviceDescription ++ [IoTPackage.segmentSymbol]

/-- Is a device with this address on the list? The empty address is never looked
for. -/
def addressKnown (iotIp : Text) (devices : List IoTDeviceInfo) : Bool :=
  0 < iotIp.length && (findDeviceIndexByIoTIp iotIp devices).isSome

/-- The loop of `noticeReloadDeviceList`, with `remaining` rules to look at from
the index `i` on. -/
def noticeReloadDeviceList (devices : List IoTDeviceInfo) :
    Nat → Nat → List RuleInstance → Except Fault (List RuleInstance)
  | 0, _, rules => .ok rules
  | remaining + 1, i, rules => do
    let ruleInstance ← vectorAt rules i
    if addressKnown ruleInstance.rule.readFrom devices
        && addressKnown ruleInstance.rule.writeTo devices then
      noticeReloadDeviceList devices remaining (i + 1) rules
    else
      noticeReloadDeviceList devices remaining i (Ruler.removeRule ruleInstance.ruleID rules)

/-- The rules one of whose ends is not on the list are removed. -/
def reloadRules (m : IoTManager) : Except Fault IoTManager := do
  let rules ← noticeReloadDeviceList m.registedDevices m.ruler.rules.length 0 m.ruler.rules
  return { m with ruler := { m.ruler with rules := rules } }

/-- `addNewDevice`: the device comes last on the list, and takes the place of the entry
with its device ID. Addresses are not compared. -/
def addNewDevice (iotip : Text) (root : JsonRoot) (socketIndex : Nat) (m : IoTManager) :
    Except Fault (IoTManager × List Effect) := do
  let deviceID ← getValueInFirstObject (some root) (lit "DeviceID")
  let functionGroup ← getValueInFirstObject (some root) (lit "FunctionGroup")
  let deviceDescription ← exportJsonContent J root
  let newDevice : IoTDeviceInfo :=
    { iotIp := iotip, functionGroup := functionGroup, deviceID := deviceID
      deviceDescription := deviceDescription, socketIndex := socketIndex }
  let devices := match findDeviceIndexByDeviceId deviceID m.registedDevices with
    | some deviceIndex => m.registedDevices.eraseIdx deviceIndex
    | none => m.registedDevices
  let m ← reloadRules { m with registedDevices := devices ++ [newDevice] }
  return (m, [.registered newDevice])

/-- `getNewIoTIP` hands out `DEV.0`, `DEV.1` and so on, none of them twice. -/
def getNewIoTIP (m : IoTManager) : Except Fault (Text × IoTManager) := do
  let ipCount ← addInt m.ipCount 1
  return (addressPrefix ++ showInt m.ipCount, { m with ipCount := ipCount })

/-! ### Rules -/

/-- A package goes to the device with the address, if it is on the list and its slot is
connected. Nothing is kept for a device that is not there: the package is lost. -/
def sendToDevice (iotIp : Text) (buffer : List Byte) (m : IoTManager) :
    Except Fault (Option (IoTDeviceInfo × Int)) :=
  match findDeviceIndexByIoTIp iotIp m.registedDevices with
  | none => .ok none
  | some targetIndex => do
    let device ← vectorAt m.registedDevices targetIndex
    let socket ← server.sendDataToExistsConnection device.socketIndex buffer
    return socket.map (device, ·)

/-- `excuteReadRule` asks the device the rule reads from for a value. A rule that will be
written waits from then on, whether or not the request could be sent. -/
def excuteReadRule (m : IoTManager) (ruleInstance : RuleInstance) :
    Except Fault (RuleInstance × List Effect) := do
  if 0 < ruleInstance.rule.readFrom.length then
    let ruleInstance := if 0 < ruleInstance.rule.writeTo.length then
        { ruleInstance with isWaitingResponse := true }
      else
        ruleInstance
    let cmd ← IoTCommand.ofValues J .readRequest ruleInstance.rule.readID
      ruleInstance.rule.readValue
    let package ← IoTPackage.ofString IoTPackage.protocolVersion serverIoTIP
      ruleInstance.rule.readFrom cmd.sendedData
    let target ← sendToDevice server ruleInstance.rule.readFrom package.dataVectorForSending m
    return (ruleInstance, [.readRequested ruleInstance target])
  else
    return (ruleInstance, [])

/-- `excuteWriteRule` sends the value to the device the rule writes, as if the device it
reads from had sent it. -/
def excuteWriteRule (m : IoTManager) (ruleInstance : RuleInstance) (writeValue : Text) :
    Except Fault (List Effect) := do
  if 0 < ruleInstance.rule.writeTo.length then
    let cmd ← IoTCommand.ofValues J .readResponse ruleInstance.rule.writeID writeValue
    let package ← IoTPackage.ofString IoTPackage.protocolVersion ruleInstance.rule.readFrom
      ruleInstance.rule.writeTo cmd.sendedData
    let target ← sendToDevice server ruleInstance.rule.writeTo package.dataVectorForSending m
    return [.ruleWritten ruleInstance writeValue target]
  else
    return [.ruleWritten ruleInstance writeValue none]

/-- `Ruler::scanRules`, on the manager's rules: `excuteReadRule` is the virtual method the
ruler calls. -/
def scanRules (m : IoTManager) : Except Fault (IoTManager × List Effect) := do
  let (rules, done) ←
    Ruler.scanRules (excuteReadRule J server m) m.ruler.actionFrequency m.ruler.rules
  return ({ m with ruler := { m.ruler with rules := rules } }, done)

/-- `Ruler::handleRulePackage`, on the manager's rules: `excuteWriteRule` is the virtual
method the ruler calls. -/
def handleRulePackage (package : IoTPackage) (m : IoTManager) :
    Except Fault (IoTManager × List Effect) := do
  let (ruler, done) ← Ruler.handleRulePackage J (excuteWriteRule J server m) package m.ruler
  return ({ m with ruler := ruler }, done)

/-! ### Packages -/

/-- `commandHandler`: two commands ask for the device list, every other one is for the
ruler. -/
def commandHandler (socketIndex : Nat) (cmd : IoTCommand) (package : IoTPackage) (m : IoTManager) :
    Except Fault (IoTManager × List Effect) := do
  if cmd.id = lit "Dis_All" ∨ cmd.id = lit "Dis_NPx" then
    let buffer ← encodeAllRegistedDevices m.registedDevices
    let sendPackage ← IoTPackage.ofVector IoTPackage.protocolVersion serverIoTIP package.sorIp
      (some buffer)
    let socket ← server.sendDataToExistsConnection socketIndex sendPackage.dataVectorForSending
    return (m, [.answered socketIndex socket sendPackage.dataVectorForSending])
  else
    handleRulePackage J server package m

/-- `handleManagerPackage` tells a device, a command and a rule apart by the name of the
payload's first member; anything else is ignored. -/
def handleManagerPackage (socketIndex : Nat) (package : IoTPackage) (m : IoTManager) :
    Except Fault (IoTManager × List Effect) := do
  match loadJsonData J package.dataVector with
  | none => return (m, [])
  | some root =>
    let rootName ← getFirstKeyName (some root)
    if rootName = lit "IOTDEV" then
      addNewDevice J package.sorIp root socketIndex m
    else if rootName = lit "IOTCMD" then
      let cmd ← IoTCommand.ofContent J package.dataVector
      commandHandler J server socketIndex cmd package m
    else if rootName = lit "IOTRUL" then
      handleRulePackage J server package m
    else
      return (m, [])

/-- A package from `0` to `0` asks for an address: the answer goes back on the socket it
came from, and carries the new address as its destination. -/
def answerIpRequest (socketIndex : Nat) (m : IoTManager) :
    Except Fault (IoTManager × List Effect) := do
  let (newIp, m) ← getNewIoTIP m
  let responsePackage ← IoTPackage.ofVector IoTPackage.protocolVersion serverIoTIP newIp none
  let socket ← server.sendDataToExistsConnection socketIndex responsePackage.dataVectorForSending
  return (m, [.answered socketIndex socket responsePackage.dataVectorForSending])

/-- A package for some device: it is passed on as it came, on the socket of the device
registered under its destination address, or dropped if there is none. -/
def forwardPackage (package : IoTPackage) (m : IoTManager) :
    Except Fault (IoTManager × List Effect) :=
  match findDeviceIndexByIoTIp package.desIp m.registedDevices with
  | none => .ok (m, [])
  | some targetIndex => do
    let device ← vectorAt m.registedDevices targetIndex
    let socket ← server.sendDataToExistsConnection device.socketIndex package.dataVectorForSending
    return (m, [.forwarded device socket package.dataVectorForSending])

/-- What `handlePackage` does with a package: a request for an address, a message for the
manager, or something to be passed on, told apart by the two addresses alone. -/
def dispatch (socketIndex : Nat) (package : IoTPackage) (m : IoTManager) :
    Except Fault (IoTManager × List Effect) :=
  if package.sorIp = lit "0" ∧ package.desIp = lit "0" then
    answerIpRequest server socketIndex m
  else if package.desIp = serverIoTIP then
    handleManagerPackage J server socketIndex package m
  else
    forwardPackage server package m

end IoTManager

/-- The time line of the manager: the calls the server makes, and in between what they
did. Properties of whole runs are stated on it, as the manager itself keeps no history. -/
inductive Action
  | newConnection (socketIndex : Nat) (socket : Int)
  | receivedData (socketIndex : Nat) (buffer : List Byte)
  | connectionDenied (socketIndex : Nat)
  | scanned
  /-- `handlePackage` extracted a package for the slot. -/
  | extracted (socketIndex : Nat) (package : IoTPackage)
  /-- `handlePackage` cleared the buffer of the slot. -/
  | parseError (socketIndex : Nat) (error : GetPackageError)
  | effect (effect : Effect)
  deriving DecidableEq, Repr

/-- The manager and its time line, which starts out empty and only grows. -/
structure ManagerState where
  manager : IoTManager
  log : List Action := []
  deriving DecidableEq

namespace ManagerState

variable (J : Jansson) (server : TcpServer)

/-- `handlePackage` dispatches one package. The time line has the package first and its
effects after it. -/
def dispatchPackage (socketIndex : Nat) (package : IoTPackage) (s : ManagerState) :
    Except Fault ManagerState := do
  let (manager, done) ← IoTManager.dispatch J server socketIndex package s.manager
  return ⟨manager, s.log ++ .extracted socketIndex package :: done.map .effect⟩

/-- `handlePackage`. The loop runs on the slot's buffer; in the round that finds no
package a corrupt buffer is cleared. -/
def handlePackage (socketIndex : Nat) (s : ManagerState) : Except Fault ManagerState := do
  let buffer ← vectorAt s.manager.packageBuffer socketIndex
  let (s, error, buffer) ← packageLoop (dispatchPackage J server socketIndex) s buffer
  let corrupt := error = .startWordError ∨ error = .checksumError
  let packageBuffer := s.manager.packageBuffer.set socketIndex (if corrupt then [] else buffer)
  return { manager := { s.manager with packageBuffer := packageBuffer }
           log := if corrupt then s.log ++ [.parseError socketIndex error] else s.log }

/-- `Event_ReceivedData`: the bytes go behind what the slot's buffer holds already. -/
def eventReceivedData (socketIndex : Nat) (buffer : List Byte) (s : ManagerState) :
    Except Fault ManagerState := do
  let old ← vectorAt s.manager.packageBuffer socketIndex
  let packageBuffer := s.manager.packageBuffer.set socketIndex (old ++ buffer)
  handlePackage J server socketIndex
    { manager := { s.manager with packageBuffer := packageBuffer }
      log := s.log ++ [.receivedData socketIndex buffer] }

/-- `Event_NewConnection` is not overridden: nothing but the time line changes. -/
def eventNewConnection (socketIndex : Nat) (s : ManagerState) : Except Fault ManagerState := do
  let socket ← vectorAt server.clientSockets socketIndex
  return { s with log := s.log ++ [.newConnection socketIndex socket] }

/-- `Event_ConnectionDenied`: the devices of the slot leave the list, and their rules with
them. The slot's buffer stays as it is. -/
def eventConnectionDenied (socketIndex : Nat) (s : ManagerState) : Except Fault ManagerState := do
  let log := s.log ++ [.connectionDenied socketIndex]
  if IoTManager.isSocketIndexExistsAnyDevice socketIndex s.manager.registedDevices then
    let devices :=
      IoTManager.removeDeviceBySocketIndex socketIndex s.manager.registedDevices
    let manager ← IoTManager.reloadRules { s.manager with registedDevices := devices }
    return ⟨manager, log⟩
  else
    return { s with log := log }

/-- One scan of the ruler's thread. In a run it stands between two events of the server's
thread, in any order. -/
def scan (s : ManagerState) : Except Fault ManagerState := do
  let (manager, done) ← IoTManager.scanRules J server s.manager
  return ⟨manager, s.log ++ .scanned :: done.map .effect⟩

/-- The manager as a subclass of the server: the three virtual methods the server's loop
calls. -/
def events : ServerEvents ManagerState where
  receivedData := fun server socketIndex buffer s => eventReceivedData J server socketIndex buffer s
  newConnection := fun server socketIndex s => eventNewConnection server socketIndex s
  connectionDenied := fun _ socketIndex s => eventConnectionDenied socketIndex s

/-- `IoTManager::IoTManager`: no devices, no rules, and an empty buffer for every slot. -/
def initial (maxClient : Nat) (actionFrequency : Int) : ManagerState :=
  { manager := { packageBuffer := List.replicate maxClient []
                 ruler := { actionFrequency := actionFrequency } } }

end ManagerState

end IoTRepublic
