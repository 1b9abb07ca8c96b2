import IoTRepublic.Broker.CloudUploader
import IoTRepublic.IoT.AcceptedPackage
import IoTRepublic.IoT.DeviceSound
import IoTRepublic.IoT.ManagerTotal
import IoTRepublic.IoT.StreamSound

/-!
# IoTRepublic.Broker.CloudUploaderSound

The uploader reads the device list the manager has written.

The list is a row of texts that are closed by a NUL (`flatMap_deviceBytes`), so the
uploader stays in step as long as no text has a NUL in it and the list is as long as
an `int` can tell. The addresses have none because they are columns of a header that
was cut at NULs (`storable_run`).

That the descriptions have no NUL inside is a property of the printer of the JSON library,
and a hypothesis here. The sizes matter twice: the manager multiplies the number of
devices by 500 before it writes anything, and the uploader walks over the payload with an
`int`.
-/

namespace IoTRepublic

open Cpp JsonUtility IoTUtility IoTManager Columns Transition

/-! ### The list -/

/-- The texts of a device in the list. -/
def listed (d : IoTDeviceInfo) : List Text := [d.iotIp, d.deviceDescription]

/-- The bytes the list takes: of every device the address and the description, each with
its NUL. -/
def listLength (devices : List IoTDeviceInfo) : Nat :=
  (devices.map fun d => d.iotIp.length + d.deviceDescription.length + 2).sum

theorem length_le_listLength {devices : List IoTDeviceInfo} {d : IoTDeviceInfo} (hd : d ∈ devices) :
    d.iotIp.length + d.deviceDescription.length + 2 ≤ listLength devices :=
  List.single_le_sum (fun _ _ => Nat.zero_le _) _
    (List.mem_map_of_mem (f := fun d => d.iotIp.length + d.deviceDescription.length + 2) hd)

/-- The list is its texts, one after the other. -/
theorem flatMap_deviceBytes {devices : List IoTDeviceInfo} (h : listLength devices < 2 ^ 31) :
    devices.flatMap deviceBytes
      = joinColumns IoTPackage.segmentSymbol (devices.flatMap listed) := by
  have hbytes : ∀ d ∈ devices, deviceBytes d = joinColumns IoTPackage.segmentSymbol (listed d) := by
    intro d hd
    have hle := length_le_listLength hd
    rw [deviceBytes, visible_of_lt (by omega), visible_of_lt (by omega), listed]
    simp
  rw [joinColumns, List.flatMap_assoc]
  exact List.flatMap_congr hbytes

theorem length_flatMap_listed (devices : List IoTDeviceInfo) :
    (joinColumns IoTPackage.segmentSymbol (devices.flatMap listed)).length
      = listLength devices := by
  induction devices with
  | nil => rfl
  | cons d devices ih =>
      rw [joinColumns_length] at ih
      rw [joinColumns_length, List.flatMap_cons, List.map_append, List.sum_append, ih, listLength,
        listLength, List.map_cons, List.sum_cons, listed]
      simp
      omega

namespace CloudUploader

variable {J : Jansson}

/-! ### Reading it -/

theorem saveChar_eq : saveChar J = scanStep IoTPackage.segmentSymbol (saveObject J) := by
  funext s c
  rfl

/-- The entry is loaded as this device. -/
def Loads (J : Jansson) (d : IoTDeviceInfo) (device : IoTDevice) : Prop :=
  device.iotIP = d.iotIp ∧
    ({ iotIP := d.iotIp } : IoTDevice).setJSDescription J d.deviceDescription = .ok device

/-- Two texts are one device, and the count is even again. -/
theorem saveObject_listed {s : SaveState} {d : IoTDeviceInfo} {device : IoTDevice}
    (heven : s.objCount % 2 = 0) (hnew : s.dInfo = {})
    (hload : ({ iotIP := d.iotIp } : IoTDevice).setJSDescription J d.deviceDescription
      = .ok device) :
    (listed d).foldlM (saveObject J) s
      = .ok { allDevices := s.allDevices ++ [device], objCount := s.objCount + 2 } := by
  have hodd : ¬ (s.objCount + 1) % 2 = 0 := by omega
  rw [listed, List.foldlM_cons, saveObject, if_pos heven, pure_eq_ok, ok_bind, List.foldlM_cons,
    saveObject, if_neg hodd, hnew, hload, ok_bind, pure_eq_ok, ok_bind]
  rfl

/-- The list is read device by device. -/
theorem foldlM_saveObject_listed {devices : List IoTDeviceInfo}
    (hset : ∀ d ∈ devices,
      Returns (({ iotIP := d.iotIp } : IoTDevice).setJSDescription J d.deviceDescription))
    {s : SaveState} (heven : s.objCount % 2 = 0) (hnew : s.dInfo = {}) :
    ∃ loaded, List.Forall₂ (Loads J) devices loaded ∧
      (devices.flatMap listed).foldlM (saveObject J) s
        = .ok { allDevices := s.allDevices ++ loaded
                objCount := s.objCount + 2 * devices.length } := by
  induction devices generalizing s with
  | nil =>
      refine ⟨[], .nil, ?_⟩
      cases s
      subst hnew
      simp
  | cons d devices ih =>
      obtain ⟨hd, hset⟩ := List.forall_mem_cons.mp hset
      obtain ⟨device, hdevice⟩ := hd
      obtain ⟨loaded, hall, hrest⟩ := ih hset
        (s := { allDevices := s.allDevices ++ [device], objCount := s.objCount + 2 })
        (by dsimp only; omega) rfl
      refine ⟨device :: loaded,
        .cons ⟨(IoTDevice.setJSDescription_described hdevice).iotIP, hdevice⟩ hall, ?_⟩
      rw [List.flatMap_cons, List.foldlM_append, saveObject_listed heven hnew hdevice, ok_bind,
        hrest, List.length_cons]
      simp only [List.append_assoc, List.singleton_append, Except.ok.injEq, SaveState.mk.injEq,
        true_and, and_true]
      omega

/-- **The uploader reads what the manager writes**, as long as the texts have no NUL
in them and the list fits an `int`. -/
theorem saveAllDeviceDescription_list {devices : List IoTDeviceInfo}
    (hsize : listLength devices < 2 ^ 31)
    (htexts : ∀ d ∈ devices, ∀ text ∈ listed d, IoTPackage.segmentSymbol ∉ text)
    (hset : ∀ d ∈ devices,
      Returns (({ iotIP := d.iotIp } : IoTDevice).setJSDescription J d.deviceDescription))
    {package : IoTPackage} (hdata : package.dataVector = devices.flatMap deviceBytes)
    (uploader : CloudUploader) :
    ∃ loaded, List.Forall₂ (Loads J) devices loaded ∧
      saveAllDeviceDescription J package uploader = .ok { uploader with allDevices := loaded } := by
  obtain ⟨loaded, hall, hfold⟩ := foldlM_saveObject_listed hset (s := {}) rfl rfl
  refine ⟨loaded, hall, ?_⟩
  have hcolumns : ∀ text ∈ devices.flatMap listed, IoTPackage.segmentSymbol ∉ text := by
    intro text htext
    obtain ⟨d, hd, htext⟩ := List.mem_flatMap.mp htext
    exact htexts d hd text htext
  rw [saveAllDeviceDescription, hdata, flatMap_deviceBytes hsize,
    visible_of_lt (by rwa [length_flatMap_listed]), saveChar_eq,
    foldlM_scanStep_joinColumns _ hcolumns, hfold]
  rfl

end CloudUploader

/-! ### What is on the list -/

/-- The address comes from a header, and the description is a message printed. -/
structure Storable (J : Jansson) (d : IoTDeviceInfo) : Prop where
  address : IoTPackage.segmentSymbol ∉ d.iotIp
  description : ∃ text root,
    J.loads text = some root ∧ J.dumps root.value = some d.deviceDescription

section Runs

variable {J : Jansson}

/-- An address read from a header has no NUL in it. -/
theorem storable_of_registers {buffer rest : List Byte} {error : GetPackageError}
    {package : IoTPackage} {root : JsonRoot} {socketIndex : Nat} {device : IoTDeviceInfo}
    (hget : getCompletedPackage buffer = .ok ⟨some package, error, rest⟩)
    (hroot : deviceRoot J package = some root)
    (h : Registers J root package.sorIp socketIndex device) : Storable J device := by
  obtain ⟨-, headerText, dataText, haccepted⟩ := accepted_of_some hget
  obtain ⟨-, hload, -⟩ := deviceRoot_eq_some_iff.mp hroot
  refine ⟨?_, _, root, hload, h.description⟩
  rw [h.address]
  exact haccepted.notMem _ (by simp)

theorem storable_receivedData {server : TcpServer} {socketIndex : Nat} {chunk : List Byte}
    {s s' : ManagerState} (hs : ∀ d ∈ s.manager.registedDevices, Storable J d)
    (h : ManagerState.eventReceivedData J server socketIndex chunk s = .ok s') :
    ∀ d ∈ s'.manager.registedDevices, Storable J d := by
  obtain ⟨old, hold, -⟩ := bind_ok_iff.mp h
  rw [ManagerState.eventReceivedData_eq (vectorAt_nat_ok_iff.mp hold)] at h
  obtain ⟨⟨s₁, error, rest⟩, hloop, h⟩ := bind_ok_iff.mp h
  obtain rfl := Except.ok.inj h
  obtain ⟨-, hs₁, -⟩ := packageLoop_induction
    (I := fun s _ => ∀ d ∈ s.manager.registedDevices, Storable J d)
    (fun _ _ _ _ _ _ ht hget hstep => dispatchPackage_forall_devices hstep ht
      fun _ _ hroot hregisters => storable_of_registers hget hroot hregisters)
    (show ∀ d ∈ (s.buffered socketIndex old chunk).manager.registedDevices, Storable J d from hs)
    hloop
  exact hs₁

/-- Nothing on the list has a NUL in its address. -/
theorem storable_run {fdSet : FdSet} {listener : Int} {opened : Finset Int} {maxClient : Nat}
    {actionFrequency : Int} {es : List ServerEvent} {s : ServerState ManagerState}
    (h : Run (fun s e s' => e.Step (ManagerState.events J) s s')
      (.start fdSet listener maxClient opened (.initial maxClient actionFrequency)) es s) :
    ∀ d ∈ s.sub.manager.registedDevices, Storable J d := by
  refine h.invariant (I := fun s => ∀ d ∈ s.sub.manager.registedDevices, Storable J d)
    (by simp [ServerState.start, ManagerState.initial]) ?_
  rintro s e s' hs ⟨-, hstep⟩
  cases e with
  | accepted newSocket =>
      rcases acceptConnection_cases hstep with ⟨-, rfl⟩ | ⟨i, sub, -, hsub, rfl⟩
      · exact hs
      · obtain ⟨socket, -, hsub⟩ := bind_ok_iff.mp hsub
        obtain rfl := Except.ok.inj hsub
        exact hs
  | received socketIndex buffer =>
      obtain ⟨sub, hsub, rfl⟩ := receiveData_cases hstep
      exact storable_receivedData hs hsub
  | disconnected socketIndex =>
      obtain ⟨fd, sub, -, hsub, rfl⟩ := cutConnection_cases hstep
      obtain ⟨rules, -, rfl⟩ := ManagerState.eventConnectionDenied_cases hsub
      exact fun d hd => hs d ((removeDeviceBySocketIndex_sublist _ _).subset hd)

/-- **The device list arrives whole**, from every state of every run: one device for
each on the list, in the same order, with its address and loaded from its
description. The size of the list has to be one the program's `int`s can count. -/
theorem deviceList_run (hdumps : ∀ text root desc, J.loads text = some root →
      J.dumps root.value = some desc → IoTPackage.segmentSymbol ∉ desc)
    {fdSet : FdSet} {listener : Int} {opened : Finset Int} {maxClient : Nat} {actionFrequency : Int}
    {es : List ServerEvent} {s : ServerState ManagerState}
    (h : Run (fun s e s' => e.Step (ManagerState.events J) s s')
      (.start fdSet listener maxClient opened (.initial maxClient actionFrequency)) es s)
    (hcount : InInt (500 * s.sub.manager.registedDevices.length))
    (hsize : listLength s.sub.manager.registedDevices < 2 ^ 31)
    (hset : ∀ d ∈ s.sub.manager.registedDevices,
      Returns (({ iotIP := d.iotIp } : IoTDevice).setJSDescription J d.deviceDescription)) :
    ∃ buffer, encodeAllRegistedDevices s.sub.manager.registedDevices = .ok buffer ∧
      ∀ (package : IoTPackage) (uploader : CloudUploader), package.dataVector = buffer →
        ∃ loaded, List.Forall₂ (CloudUploader.Loads J) s.sub.manager.registedDevices loaded ∧
          uploader.saveAllDeviceDescription J package
            = .ok { uploader with allDevices := loaded } := by
  have hfits : s.sub.manager.registedDevices.length < 2 ^ 31 := by
    have := hcount.2
    omega
  refine ⟨_, encodeAllRegistedDevices_ok_iff.mpr ⟨reservable_of_inInt hcount, rfl⟩,
    fun package uploader hdata => ?_⟩
  rw [visible_of_lt hfits] at hdata
  refine CloudUploader.saveAllDeviceDescription_list hsize (fun d hd text htext => ?_) hset hdata
    uploader
  obtain ⟨haddress, message, root, hload, hprinted⟩ := storable_run h d hd
  rw [listed, List.mem_cons, List.mem_singleton] at htext
  rcases htext with rfl | rfl
  · exact haddress
  · exact hdumps message root _ hload hprinted

end Runs

/-! ### Two lamps, one without an address -/

/-- A second lamp. -/
def deskMessage : JsonRoot :=
  .object [(lit "IOTDEV",
    .object [(lit "DeviceID", .string (lit "D")), (lit "DeviceName", .string (lit "Desk")),
      (lit "FunctionGroup", .string (lit "UI"))])]

def lampsJansson : Jansson := jansson [lampMessage, deskMessage]

def twoLamps : List ServerEvent :=
  [.accepted 4, .received 0 (carrying (lit "DEV.0") serverIoTIP lampMessage).dataVectorForSending,
    .received 0 (carrying [] serverIoTIP deskMessage).dataVectorForSending]

theorem deviceList_run_twoLamps : ∃ (s : ServerState ManagerState) (loaded : List IoTDevice),
    s.sub.manager.registedDevices.map (·.iotIp) = [lit "DEV.0", []] ∧
      List.Forall₂ (CloudUploader.Loads lampsJansson) s.sub.manager.registedDevices loaded := by
  obtain ⟨s, hs, hq⟩ := Option.map_eq_some_iff.mp
    (show (execute ServerEvent.Possible (fun s e => e.step (ManagerState.events lampsJansson) s)
        (.start (.bits 1024) 3 1 {0, 1, 2} (.initial 1 1000)) twoLamps).map
          (fun s => (s.sub.manager.registedDevices.map (·.iotIp),
            decide (InInt (500 * s.sub.manager.registedDevices.length)),
            decide (listLength s.sub.manager.registedDevices < 2 ^ 31),
            decide (∀ d ∈ s.sub.manager.registedDevices, Returns
              (({ iotIP := d.iotIp } : IoTDevice).setJSDescription lampsJansson
                d.deviceDescription))))
      = some ([lit "DEV.0", []], true, true, true) by decide +kernel)
  obtain ⟨haddresses, hq⟩ := Prod.mk.inj hq
  obtain ⟨hcount, hq⟩ := Prod.mk.inj hq
  obtain ⟨hsize, hset⟩ := Prod.mk.inj hq
  obtain ⟨buffer, -, hread⟩ := deviceList_run
    (fun text root desc hload hdesc => by
      have hmem := List.mem_of_find?_eq_some hload
      simp only [List.mem_cons, List.not_mem_nil, or_false] at hmem
      rcases hmem with rfl | rfl
      · obtain rfl := Option.some.inj hdesc
        decide +kernel
      · obtain rfl := Option.some.inj hdesc
        decide +kernel)
    (run_of_execute hs) (of_decide_eq_true hcount) (of_decide_eq_true hsize)
    (of_decide_eq_true hset)
  obtain ⟨loaded, hloaded, -⟩ := hread { dataVector := buffer } {} rfl
  exact ⟨s, loaded, haddresses, hloaded⟩

/-! ### More devices than the list can hold -/

/-- With 4294968 devices the size reserved for the list is no `int` any more. -/
theorem not_encoded_many : ∃ (es : List ServerEvent) (s : ServerState ManagerState),
    Run (fun s e s' => e.Step (ManagerState.events (numberedJansson [] 4294968)) s s')
      (.start (.bits 1024) 3 1 {0, 1, 2} (.initial 1 1000)) es s ∧
    s.sub.manager.registedDevices.length = 4294968 ∧
    encodeAllRegistedDevices s.sub.manager.registedDevices = .error .signedOverflow := by
  obtain ⟨es, s, hrun, hs⟩ :=
    numberedServer_run 1000 (by decide : 4294968 ≤ 2 ^ 31) (le_refl 4294968)
  have hlength : s.sub.manager.registedDevices.length = 4294968 := by
    rw [hs.devices, length_numberedDevices]
  have hoverflow : ¬ InInt (500 * toInt s.sub.manager.registedDevices.length) := by
    rw [hlength]
    decide
  refine ⟨es, s, hrun, hlength, ?_⟩
  rw [encodeAllRegistedDevices]
  dsimp only
  rw [if_pos hoverflow, error_bind]

end IoTRepublic
