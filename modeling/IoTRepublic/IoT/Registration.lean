import IoTRepublic.IoT.RuleTable
import IoTRepublic.Utility.JsonSpec

/-!
# IoTRepublic.IoT.Registration

How devices come onto the list and leave it.

The only way onto the list is a package with an `IOTDEV` message for the manager.
Its entry is made of nothing but the package, the message and the slot
(`Registers`), and takes the place of the entry with its device ID
(`dispatchPackage_devices`).

Three lemmas are what the later modules take from here: which packages register
(`deviceRoot`), what becomes of the list (`dispatchPackage_devices`), and that a property
of the entries is kept if new entries have it (`dispatchPackage_forall_devices`). Scans
and packages of any other kind leave the list as it is.
-/

namespace IoTRepublic

open Cpp JsonUtility IoTUtility Transition

/-- The message of a package that registers a device: an `IOTDEV` object in a package for
the manager. -/
def deviceRoot (J : Jansson) (package : IoTPackage) : Option JsonRoot :=
  if package.desIp = IoTManager.serverIoTIP
      ∧ getFirstKeyName (loadJsonData J package.dataVector) = .ok (lit "IOTDEV") then
    loadJsonData J package.dataVector
  else none

/-- The entry made for a message. -/
structure Registers (J : Jansson) (root : JsonRoot) (iotIp : Text) (socketIndex : Nat)
    (device : IoTDeviceInfo) : Prop where
  address : device.iotIp = iotIp
  slot : device.socketIndex = socketIndex
  deviceID : getValueInFirstObject (some root) (lit "DeviceID") = .ok device.deviceID
  functionGroup : getValueInFirstObject (some root) (lit "FunctionGroup") = .ok device.functionGroup
  description : J.dumps root.value = some device.deviceDescription

namespace IoTManager

variable {J : Jansson} {server : TcpServer} {socketIndex : Nat} {package : IoTPackage}
  {m m' : IoTManager} {done : List Effect}

theorem addNewDevice_registers {iotip : Text} {root : JsonRoot}
    (h : addNewDevice J iotip root socketIndex m = .ok (m', done)) :
    ∃ device, Registers J root iotip socketIndex device ∧ done = [.registered device] := by
  obtain ⟨deviceID, hid, h⟩ := bind_ok_iff.mp h
  obtain ⟨functionGroup, hgroup, h⟩ := bind_ok_iff.mp h
  obtain ⟨deviceDescription, hdescription, h⟩ := bind_ok_iff.mp h
  dsimp only at h
  obtain ⟨m₁, -, h⟩ := bind_ok_iff.mp h
  obtain ⟨rfl, rfl⟩ := Prod.mk.inj (Except.ok.inj h)
  exact ⟨_, ⟨rfl, rfl, hid, hgroup, exportJsonContent_ok_iff.mp hdescription⟩, rfl⟩

theorem handleRulePackage_done (h : handleRulePackage J server package m = .ok (m', done)) :
    ∀ e ∈ done, ∃ r writeValue sent, e = .ruleWritten r writeValue sent := by
  obtain ⟨⟨ruler, done'⟩, hruler, h⟩ := bind_ok_iff.mp h
  obtain ⟨rfl, rfl⟩ := Prod.mk.inj (Except.ok.inj h)
  cases Ruler.handleRulePackage_cases hruler with
  | ignored hsame hdone => simp [hdone]
  | added rule hadd hdone => simp [hdone]
  | command cmd rules hroot hcmd hrules hrest => exact handleRulerCommand_done hrules

theorem deviceRoot_eq_some_iff {root : JsonRoot} :
    deviceRoot J package = some root ↔ package.desIp = serverIoTIP ∧
      loadJsonData J package.dataVector = some root ∧
      getFirstKeyName (some root) = .ok (lit "IOTDEV") := by
  unfold deviceRoot
  split
  · rename_i h
    refine ⟨fun hroot => ⟨h.1, hroot, hroot ▸ h.2⟩, fun hroot => hroot.2.1⟩
  · rename_i h
    constructor
    · intro hroot
      cases hroot
    · rintro ⟨hdes, hload, hname⟩
      exact absurd ⟨hdes, by rw [hload, hname]⟩ h

/-- A device that is registered is one the package describes. -/
theorem registers_of_dispatch {device : IoTDeviceInfo}
    (h : dispatch J server socketIndex package m = .ok (m', done))
    (hmem : .registered device ∈ done) :
    ∃ root, deviceRoot J package = some root ∧
      Registers J root package.sorIp socketIndex device := by
  cases dispatch_routed h with
  | ignored hm hdone => simp [hdone] at hmem
  | answered ipCount socket buffer hm hdone => simp [hdone] at hmem
  | device root hdes hload hname h =>
      obtain ⟨device', hregisters, rfl⟩ := addNewDevice_registers h
      obtain rfl : device = device' := by simpa using hmem
      exact ⟨root, deviceRoot_eq_some_iff.mpr ⟨hdes, hload, hname⟩, hregisters⟩
  | rule hdes hown h =>
      obtain ⟨r, writeValue, sent, heq⟩ := handleRulePackage_done h _ hmem
      cases heq
  | forwarded device' socket hm hlisted hsent hdone => simp [hdone] at hmem

/-- A package with a device's message registers it. -/
theorem registers_of_deviceRoot {root : JsonRoot} (hroot : deviceRoot J package = some root)
    (h : dispatch J server socketIndex package m = .ok (m', done)) :
    ∃ device, Registers J root package.sorIp socketIndex device ∧ done = [.registered device] := by
  obtain ⟨hdes, hload, hname⟩ := deviceRoot_eq_some_iff.mp hroot
  have hrequest : ¬ (package.sorIp = lit "0" ∧ package.desIp = lit "0") := by
    rw [hdes]
    exact fun h => absurd h.2 (by decide)
  rw [dispatch, if_neg hrequest, if_pos hdes, handleManagerPackage, hload] at h
  simp only [hname, ok_bind, if_true] at h
  exact addNewDevice_registers h

end IoTManager

/-! ### What happens to the list -/

/-- The device an action registers. -/
def Action.registered? : Action → Option IoTDeviceInfo
  | .effect (.registered device) => some device
  | _ => none

section Steps

variable {J : Jansson} {s s' : ManagerState}

/-- A package with a device's message puts the device on the list; any other leaves
the list alone. -/
theorem dispatchPackage_devices {server : TcpServer} {socketIndex : Nat} {package : IoTPackage}
    (h : s.dispatchPackage J server socketIndex package = .ok s') :
    (deviceRoot J package = none ∧ s'.manager.registedDevices = s.manager.registedDevices ∧
        ∃ tail, s'.log = s.log ++ tail ∧ ∀ a ∈ tail, a.registered? = none) ∨
      ∃ root device, deviceRoot J package = some root ∧
        Registers J root package.sorIp socketIndex device ∧
        s'.manager.registedDevices
          = IoTManager.withoutDevice device.deviceID s.manager.registedDevices ++ [device] ∧
        s'.log = s.log ++ [.extracted socketIndex package, .effect (.registered device)] := by
  obtain ⟨⟨manager, done⟩, hdispatch, h⟩ := bind_ok_iff.mp h
  obtain rfl := Except.ok.inj h
  cases hroot : deviceRoot J package with
  | some root =>
      obtain ⟨device, hregisters, rfl⟩ := IoTManager.registers_of_deviceRoot hroot hdispatch
      refine .inr ⟨root, device, rfl, hregisters, ?_, rfl⟩
      cases IoTManager.dispatch_cases hdispatch with
      | registered device' rules hslot hrules hm hdone =>
          obtain rfl : device = device' := by simpa using hdone
          rw [hm]
      | commanded cmd rules hcmd hrules hm =>
          obtain ⟨r, writeValue, sent, heq⟩ :=
            IoTManager.handleRulerCommand_done hrules _ (List.mem_singleton_self _)
          cases heq
      | ignored hm hdone => cases hdone
      | answered ipCount socket buffer hm hdone => cases hdone
      | forwarded device' socket hm hmem hsent hdone => cases hdone
      | ruleAdded rule ruler hadd hm hdone => cases hdone
  | none =>
      have hdone : ∀ e ∈ done, ∀ device, e ≠ .registered device := by
        rintro e he device rfl
        obtain ⟨root, hroot', -⟩ := IoTManager.registers_of_dispatch hdispatch he
        rw [hroot] at hroot'
        cases hroot'
      have hquiet : ∀ a ∈ Action.extracted socketIndex package :: done.map .effect,
          a.registered? = none := by
        refine forall_mem_cons_effects rfl fun e he => ?_
        cases e with
        | registered device => exact absurd rfl (hdone _ he device)
        | _ => rfl
      refine .inl ⟨rfl, ?_, _, rfl, hquiet⟩
      cases IoTManager.dispatch_cases hdispatch with
      | registered device rules hslot hrules hm hdone' =>
          exact absurd rfl (hdone _ (hdone' ▸ List.mem_singleton_self _) device)
      | ignored hm _ => rw [hm]
      | answered _ _ _ hm _ => rw [hm]
      | forwarded _ _ hm _ _ _ => rw [hm]
      | ruleAdded _ _ _ hm _ => rw [hm]
      | commanded _ _ _ _ hm => rw [hm]

/-- What holds of the entries so far and of the new one holds of all. -/
theorem dispatchPackage_forall_devices {server : TcpServer} {socketIndex : Nat}
    {package : IoTPackage} {P : IoTDeviceInfo → Prop}
    (h : s.dispatchPackage J server socketIndex package = .ok s')
    (hs : ∀ device ∈ s.manager.registedDevices, P device)
    (hnew : ∀ root device, deviceRoot J package = some root →
      Registers J root package.sorIp socketIndex device → P device) :
    ∀ device ∈ s'.manager.registedDevices, P device := by
  rcases dispatchPackage_devices h with
    ⟨-, hsame, -⟩ | ⟨root, device, hroot, hregisters, hdevices, -⟩
  · rw [hsame]
    exact hs
  · rw [hdevices]
    intro device' hdevice'
    rcases List.mem_append.mp hdevice' with hmem | hmem
    · exact hs device' ((IoTManager.withoutDevice_sublist _ _).subset hmem)
    · obtain rfl := List.mem_singleton.mp hmem
      exact hnew root device' hroot hregisters

/-- A scan reads the list only. -/
theorem scan_devices {server : TcpServer} (h : s.scan J server = .ok s') :
    s'.manager.registedDevices = s.manager.registedDevices ∧
      ∃ tail, s'.log = s.log ++ tail ∧ ∀ a ∈ tail, a.registered? = none := by
  obtain ⟨⟨manager, done⟩, hscan, h⟩ := bind_ok_iff.mp h
  obtain rfl := Except.ok.inj h
  obtain ⟨rfl, rfl⟩ := IoTManager.scanRules_eq hscan
  refine ⟨rfl, _, rfl, forall_mem_cons_effects rfl fun e he => ?_⟩
  obtain ⟨r, -, -, rfl⟩ := IoTManager.mem_requests_iff.mp he
  rfl

end Steps

end IoTRepublic
