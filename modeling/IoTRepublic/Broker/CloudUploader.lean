import IoTRepublic.IoT.Device
import IoTRepublic.IoT.Utility

/-!
# IoTRepublic.Broker.CloudUploader

`Broker/CloudUploader.cpp`: how the uploader waits for what the manager sends, and
how it reads the device list.

The list has no count. The texts in it are closed by a NUL each, and are addresses
and descriptions in turn; which one a text is, the uploader tells by counting.
-/

namespace IoTRepublic

open Cpp

/-- `CloudUploader`, with what it knows of the devices: the list the manager sent last. -/
structure CloudUploader where
  allDevices : List IoTDevice := []
  deriving DecidableEq, Repr

namespace CloudUploader

variable (J : Jansson)

/-- The local variables of `saveAllDeviceDescription` and the list it fills: the count of
texts so far, and the device whose address has come without its description. -/
structure SaveState where
  allDevices : List IoTDevice := []
  objCount : Nat := 0
  dInfo : IoTDevice := {}
  deriving DecidableEq, Repr

/-- A text has ended: the even ones are addresses, the odd ones descriptions. -/
def saveObject (s : SaveState) (text : Text) : Except Fault SaveState :=
  if s.objCount % 2 = 0 then
    return { s with dInfo := { s.dInfo with iotIP := text }, objCount := s.objCount + 1 }
  else do
    let dInfo ← s.dInfo.setJSDescription J text
    return { allDevices := s.allDevices ++ [dInfo], objCount := s.objCount + 1, dInfo := {} }

/-- The body of the loop in `saveAllDeviceDescription`; the text read so far is
`strBuilder`. -/
def saveChar (s : SaveState × Text) (c : Byte) : Except Fault (SaveState × Text) :=
  let (s, strBuilder) := s
  if c = 0 then do
    let s ← saveObject J s strBuilder
    return (s, [])
  else
    return (s, strBuilder ++ [c])

/-- `saveAllDeviceDescription`. The list kept so far is dropped first; a text that is not
closed by a NUL is dropped at the end. -/
def saveAllDeviceDescription (package : IoTPackage) (uploader : CloudUploader) :
    Except Fault CloudUploader := do
  let (s, _) ← (visible package.dataVector).foldlM (saveChar J) ({}, [])
  return { uploader with allDevices := s.allDevices }

/-! ### Waiting for a reply -/

/-- What a round of `waitIoTPackage` meets: the clock is looked at first, then the
socket. -/
inductive WaitEvent
  /-- The clock is past `waitTime`. -/
  | timeOut
  /-- `RecviveData` appends these bytes; none when `recv` returned zero or less. -/
  | received (chunk : List Byte)
  deriving DecidableEq, Repr

/-- How the wait ends: with a package or NULL, and the error of the round that ended
it. -/
structure WaitEnd where
  /-- What is returned; `none` is NULL. -/
  package : Option IoTPackage
  /-- What `GetCompletedPackage` reported in the last round; `none` on a time-out. -/
  error : Option GetPackageError
  deriving DecidableEq

/-- The loop of `waitIoTPackage`, with its variables `package` and `recvBuffer`. The
result is `none` as long as it goes on. -/
def waitFrom : Option IoTPackage → List Byte → List WaitEvent → Except Fault (Option WaitEnd)
  | _, _, [] => .ok none
  | package, _, .timeOut :: _ => .ok (some ⟨package, none⟩)
  | _, recvBuffer, .received chunk :: events => do
    let x ← IoTUtility.getCompletedPackage (recvBuffer ++ chunk)
    if x.error = .packageNotCompleted then
      waitFrom x.package x.buffer events
    else
      return some ⟨x.package, some x.error⟩

/-- `waitIoTPackage`, from an empty buffer. It goes on only while a package is under way
whose header is complete. -/
def waitIoTPackage (events : List WaitEvent) : Except Fault (Option WaitEnd) :=
  waitFrom none [] events

end CloudUploader

end IoTRepublic
