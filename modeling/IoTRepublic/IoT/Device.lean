import IoTRepublic.Utility.Json

/-!
# IoTRepublic.IoT.Device

`IoT/IoTDevice.h` and `IoT/IoTComponent.h`: a device as the cloud uploader keeps it,
read from the description the manager has stored.

The reading is strict where a member is missing (a null pointer becomes a `std::string`,
which is undefined) and lenient where its value is odd: a component type nobody knows is
`Unknown`, and only the components of type `Content` have a frequency to read. Which
descriptions are read through is the subject of `DeviceSound`.
-/

namespace IoTRepublic

open Cpp JsonUtility

/-- `IoTComponent::ComType`: what a component is for the user interface. Only a `Content`
is polled for values. -/
inductive ComType
  | unknown
  | content
  | button
  deriving DecidableEq, Repr

/-- `IoTComponent`: one value of a device that can be shown or one button that can be
pressed, as the `Component` array of the description lists it. -/
structure IoTComponent where
  id : Text
  group : Text
  name : Text
  comType : ComType
  /-- `none` when nothing has set it. -/
  readFrequency : Option Int
  deriving DecidableEq, Repr

/-- `IoTDevice`: the address the manager knows the device by, and what its description
says of it. -/
structure IoTDevice where
  iotIP : Text := []
  deviceID : Text := []
  deviceName : Text := []
  functionGroup : Text := []
  component : List IoTComponent := []
  deriving DecidableEq, Repr

namespace IoTDevice

/-- How a component type is read; every text but the two known ones is `Unknown`. -/
def readComType (type : Text) : ComType :=
  if type = lit "Button" then .button
  else if type = lit "Content" then .content
  else .unknown

/-- The body of the loop in `SetJSDescription`: four texts of the `i`-th element, and for
a `Content` the number in a fifth, for which `std::stoi` throws if it is none. -/
def readComponent (jsObj : Option JsonRoot) (i : Nat) : Except Fault IoTComponent := do
  let id ← getArrayValueInFirstObject jsObj (lit "Component") i (lit "ID")
  let name ← getArrayValueInFirstObject jsObj (lit "Component") i (lit "Name")
  let group ← getArrayValueInFirstObject jsObj (lit "Component") i (lit "Group")
  let type ← getArrayValueInFirstObject jsObj (lit "Component") i (lit "Type")
  let comType := readComType type
  if comType = .content then
    let strRdFrequency ←
      getArrayValueInFirstObject jsObj (lit "Component") i (lit "ReadFrequency")
    let readFrequency ← stoi strRdFrequency
    return ⟨id, group, name, comType, some readFrequency⟩
  else
    return ⟨id, group, name, comType, none⟩

/-- The components from the `i`-th on, as many as are left to read. -/
def readComponents (jsObj : Option JsonRoot) : Nat → Nat → Except Fault (List IoTComponent)
  | 0, _ => .ok []
  | comCount + 1, i => do
    let com ← readComponent jsObj i
    let component ← readComponents jsObj comCount (i + 1)
    return com :: component

/-- `SetJSDescription` fills in a device from a description: three texts of the first
object, and the components of its array. They go behind those the device has, so that a
second description would add to the first. -/
def setJSDescription (J : Jansson) (desc : Text) (device : IoTDevice) : Except Fault IoTDevice := do
  let jsObj := loadJsonData J desc
  let deviceID ← getValueInFirstObject jsObj (lit "DeviceID")
  let deviceName ← getValueInFirstObject jsObj (lit "DeviceName")
  let functionGroup ← getValueInFirstObject jsObj (lit "FunctionGroup")
  let comCount ← getArrayLengthInFirstObject jsObj (lit "Component")
  let component ← readComponents jsObj comCount.toNat 0
  return { device with
    deviceID := deviceID
    deviceName := deviceName
    functionGroup := functionGroup
    component := device.component ++ component }

end IoTDevice

end IoTRepublic
