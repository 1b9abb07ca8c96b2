import IoTRepublic.Broker.CloudUploader
import IoTRepublic.Broker.IBroker
import IoTRepublic.Broker.ReceiveLoops
import IoTRepublic.IoT.Command

/-!
# IoTRepublic.Broker.CloudUpload

`Broker/CloudUploader.cpp`: what the uploader asks the manager for, and what it does
with the values that come back.

For every subscription whose component is on the device list it sends the manager a
rule. From then on the manager writes it the component's values, and the uploader
posts each of them to the web server. The name it posts one under is not in the
package: the device is looked up by the address the package comes from.
-/

namespace IoTRepublic

open Cpp

/-- `CloudUploader::SubscriptObj`: a component of a device whose values are to be
uploaded, the two named by their ids, and how often it is to be read. -/
structure SubscriptObj where
  devId : Text
  comId : Text
  readFrequency : Int
  deriving DecidableEq, Repr

namespace CloudUploader

/-- What the constructor puts into `subscriptObjs`; no other code changes it. One
component is in it twice, with two frequencies. -/
def subscriptObjs : List SubscriptObj :=
  [⟨lit "arduino.grove.mois01", lit "mois", 10 * 60 * 1000⟩,
    ⟨lit "arduino.grove.dl01", lit "lux", 10 * 60 * 1000⟩,
    ⟨lit "arduino.grove.pro.ths01", lit "humi", 60 * 60 * 1000⟩,
    ⟨lit "arduino.grove.pro.ths01", lit "tempe", 60 * 60 * 1000⟩,
    ⟨lit "arduino.grove.dl01", lit "lux", 60 * 1000⟩]

/-- The fields the uploader gets from its caller and from the manager: who it uploads as,
and the two addresses its packages carry. -/
structure Identity where
  loginId : Text
  loginPw : Text
  selfIoTIp : Text
  managerIoTIp : Text
  deriving DecidableEq, Repr

/-! ### Subscribing -/

/-- `findComponentIndex`, with the device at the index; `none` is -1. Only the first
device of the name is searched, so a component of a second one is never found. -/
def findComponentIndex (uploader : CloudUploader) (devId comId : Text) :
    Option (Nat × IoTDevice) := do
  let deviceIndex ← (visible uploader.allDevices).findIdx? (·.deviceID = devId)
  let device ← uploader.allDevices[deviceIndex]?
  if (visible device.component).any (·.id = comId) then
    return (deviceIndex, device)
  else
    none

/-- The rule for a subscription, before `Packet`: it reads the component at the device and
writes its value to the uploader itself, under the same id. -/
def subscriptRule (identity : Identity) (device : IoTDevice) (sub : SubscriptObj) : IoTRule where
  type := lit "Sub"
  name := lit "Subscription"
  readFrom := device.iotIP
  readID := sub.comId
  readValue := []
  writeTo := identity.selfIoTIp
  writeID := sub.comId
  writeValue := []
  actionFrequency := sub.readFrequency

/-- The body of the loop in `sendSubscriptRule`, with the rules and packages sent so far.
Nothing is sent for a component that is not on the list. -/
def sendSubscription (J : Jansson) (identity : Identity) (uploader : CloudUploader)
    (sent : List (IoTRule × IoTPackage)) (sub : SubscriptObj) :
    Except Fault (List (IoTRule × IoTPackage)) :=
  match findComponentIndex uploader sub.devId sub.comId with
  | none => .ok sent
  | some (_, device) => do
    let rule ← (subscriptRule identity device sub).packet J
    let package ← IoTPackage.ofString IBroker.protocolVersion identity.selfIoTIp
      identity.managerIoTIp rule.jsonData
    return sent ++ [(rule, package)]

/-- `sendSubscriptRule`: one rule for each subscription, in the order of
`subscriptObjs`. -/
def sendSubscriptRule (J : Jansson) (identity : Identity) (uploader : CloudUploader) :
    Except Fault (List (IoTRule × IoTPackage)) :=
  subscriptObjs.foldlM (sendSubscription J identity uploader) []

/-! ### Uploading -/

/-- `getUploadDeviceId`: the name a value is posted under, put together from the id of the
first device with the address and the component's, and empty if there is no such
device. -/
def getUploadDeviceId (uploader : CloudUploader) (iotIp comId : Text) : Text :=
  match (visible uploader.allDevices).find? (·.iotIP = iotIp) with
  | some device => device.deviceID ++ lit "." ++ comId
  | none => []

/-- `uploadData`: what is posted, which the web library reads up to the first NUL. The
values stand in it as they are, without the escapes a form would need. -/
def uploadData (identity : Identity) (deviceId value : Text) : Text :=
  cStr (lit "deviceId=" ++ deviceId ++ lit "&value=" ++ value
    ++ lit "&loginId=" ++ identity.loginId ++ lit "&password=" ++ identity.loginPw)

/-- The body of the loop in `handleRecvData`, with the requests posted so far. The type of
the command is not looked at: whatever comes in is posted. -/
def handleRecvPackage (J : Jansson) (identity : Identity) (uploader : CloudUploader)
    (package : IoTPackage) (posted : List Text) : Except Fault (List Text) := do
  let cmd ← IoTCommand.ofContent J package.dataVector
  let devId := getUploadDeviceId uploader package.sorIp cmd.id
  return posted ++ [uploadData identity devId cmd.value]

/-- `handleRecvData` in the rounds of `loop`, one for each chunk that arrives. -/
def listen (J : Jansson) (identity : Identity) (uploader : CloudUploader) (rounds : List Received) :
    Except Fault (ReceiveState (List Text)) :=
  ReceiveLoop.cloudUploader.runRounds (handleRecvPackage J identity uploader) [] rounds

end CloudUploader

end IoTRepublic
