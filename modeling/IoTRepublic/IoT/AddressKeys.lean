import IoTRepublic.IoT.ManagerSends
import IoTRepublic.IoT.RulerSound

/-!
# IoTRepublic.IoT.AddressKeys

The addresses of the device list as keys.

A package is passed on, and a rule read and written, by the address of a device,
but a registration replaces the entry with its device *ID*. The two agree in the
runs in which nobody registers under an address another device has, and in which an
`int` can tell the number of devices (`addressKeys_run`); `not_addressKeys_taken` is a
run in which somebody does.

`Designated` is what an address should mean: the device registered there last, and its
connection. Forwarding is held to it in both directions: what is sent goes there, and
where there is such a device the package is sent.

Two things must go together (`Addressed`): the addresses on the list are distinct, and
looking one up finds the entry of its latest registration, which takes a list that an
`int` counts, since a search looks at none of it otherwise. An event keeps both exactly
where it meets the condition, and delivery is read off them, for packages and for the
packages of rules.
-/

namespace IoTRepublic

open Cpp JsonUtility IoTUtility Transition

/-- The device most recently registered under the address. -/
def latestUnder (address : Text) (log : List Action) : Option IoTDeviceInfo :=
  (log.filterMap Action.registered?).reverse.find? (·.iotIp = address)

/-- Every entry is what was last registered under its address. -/
structure AddressKeys (devices : List IoTDeviceInfo) (log : List Action) : Prop where
  deviceIDs : (devices.map (·.deviceID)).Nodup
  addresses : (devices.map (·.iotIp)).Nodup
  latest : ∀ device ∈ devices, latestUnder device.iotIp log = some device

/-- Looking an address up finds the device registered there last, if it is still on the
list. -/
def LookupsLatest (devices : List IoTDeviceInfo) (log : List Action) : Prop :=
  ∀ address, (IoTManager.findDeviceIndexByIoTIp address devices).bind (devices[·]?)
    = (latestUnder address log).filter (· ∈ devices)

/-- The device registered under the address last, which is still on the list, and the
descriptor of its slot, which has a connection. -/
def Designated (server : TcpServer) (devices : List IoTDeviceInfo) (log : List Action)
    (address : Text) (device : IoTDeviceInfo) (fd : Int) : Prop :=
  (latestUnder address log = some device ∧ device ∈ devices) ∧
    server.clientSockets[device.socketIndex]? = some fd ∧ 0 < fd

/-- What is sent to the address, if anything, goes to the device it designates. -/
def Reaches (server : TcpServer) (devices : List IoTDeviceInfo) (log : List Action)
    (address : Text) (sent : Option (IoTDeviceInfo × Int)) : Prop :=
  ∀ device fd, sent = some (device, fd) ↔ Designated server devices log address device fd

/-! ### The latest registration -/

section Latest

variable {address : Text} {log tail : List Action}

theorem latestUnder_append_quiet (h : ∀ a ∈ tail, a.registered? = none) :
    latestUnder address (log ++ tail) = latestUnder address log := by
  rw [latestUnder, List.filterMap_append, List.filterMap_eq_nil_iff.mpr h, List.append_nil,
    latestUnder]

theorem latestUnder_registered (socketIndex : Nat) (package : IoTPackage)
    (device : IoTDeviceInfo) :
    latestUnder address (log ++ [.extracted socketIndex package, .effect (.registered device)])
      = if device.iotIp = address then some device else latestUnder address log := by
  have htail : [Action.extracted socketIndex package, .effect (.registered device)].filterMap
      Action.registered? = [device] := rfl
  rw [latestUnder, List.filterMap_append, htail, List.reverse_append, List.reverse_singleton,
    List.singleton_append, List.find?_cons]
  by_cases h : device.iotIp = address
  · simp [h]
  · simp [h, latestUnder]

theorem iotIp_of_latestUnder {device : IoTDeviceInfo} (h : latestUnder address log = some device) :
    device.iotIp = address := by simpa using List.find?_some h

end Latest

namespace AddressKeys

variable {devices : List IoTDeviceInfo} {log tail : List Action} (h : AddressKeys devices log)

include h

theorem append_quiet (hquiet : ∀ a ∈ tail, a.registered? = none) :
    AddressKeys devices (log ++ tail) where
  deviceIDs := h.deviceIDs
  addresses := h.addresses
  latest := fun device hdevice =>
    (latestUnder_append_quiet hquiet).trans (h.latest device hdevice)

/-- Devices leave the list, and what is known of the others stays true. -/
theorem of_sublist {devices' : List IoTDeviceInfo} (hsub : devices'.Sublist devices) :
    AddressKeys devices' log where
  deviceIDs := (hsub.map _).nodup h.deviceIDs
  addresses := (hsub.map _).nodup h.addresses
  latest := fun device hdevice => h.latest device (hsub.subset hdevice)

/-- A registration keeps the addresses apart if, and only if, no other device has its
address. -/
theorem nodup_register_iff {device : IoTDeviceInfo} :
    ((devices.eraseP (·.deviceID = device.deviceID) ++ [device]).map (·.iotIp)).Nodup ↔
      ∀ device' ∈ devices, device'.iotIp = device.iotIp → device'.deviceID = device.deviceID := by
  rw [eraseP_eq_filter h.deviceIDs, nodup_map_concat_iff]
  constructor
  · intro hnodup device' hmem haddress
    by_contra hid
    have hstays : device' ∈ devices.filter (·.deviceID ≠ device.deviceID) :=
      List.mem_filter.mpr ⟨hmem, decide_eq_true hid⟩
    exact hnodup.2 device' hstays haddress
  · intro hfree
    refine ⟨(List.filter_sublist.map _).nodup h.addresses, fun device' hdevice' heq => ?_⟩
    obtain ⟨hmem, hne⟩ := List.mem_filter.mp hdevice'
    exact of_decide_eq_true hne (hfree device' hmem heq)

/-- A device registers under an address no other device has. -/
theorem register {device : IoTDeviceInfo}
    (hfree : ∀ device' ∈ devices, device'.iotIp = device.iotIp → device'.deviceID = device.deviceID)
    (socketIndex : Nat) (package : IoTPackage) :
    AddressKeys (devices.eraseP (·.deviceID = device.deviceID) ++ [device])
      (log ++ [.extracted socketIndex package, .effect (.registered device)]) := by
  refine
    { deviceIDs := nodup_map_replace h.deviceIDs device
      addresses := h.nodup_register_iff.mpr hfree
      latest := ?_ }
  intro device' hdevice'
  rw [latestUnder_registered]
  rcases List.mem_append.mp hdevice' with hold | hnew
  · rw [eraseP_eq_filter h.deviceIDs] at hold
    obtain ⟨hmem, hne⟩ := List.mem_filter.mp hold
    -- An entry that stays has another ID, and so another address.
    rw [if_neg fun heq => of_decide_eq_true hne (hfree device' hmem heq.symm)]
    exact h.latest device' hmem
  · obtain rfl := List.mem_singleton.mp hnew
    rw [if_pos rfl]

/-- The device with an address is the one registered there last. -/
theorem find?_eq (address : Text) :
    devices.find? (·.iotIp = address)
      = (latestUnder address log).filter (· ∈ devices) := by
  cases hfind : devices.find? (·.iotIp = address) with
  | some device =>
      have hmem := List.mem_of_find?_eq_some hfind
      have haddress : device.iotIp = address := by simpa using List.find?_some hfind
      rw [← haddress, h.latest device hmem, Option.filter_some, if_pos (decide_eq_true hmem)]
  | none =>
      refine (Option.filter_eq_none_iff.mpr fun device hlatest hmem => ?_).symm
      have hne := List.find?_eq_none.mp hfind device (of_decide_eq_true hmem)
      exact hne (decide_eq_true (iotIp_of_latestUnder hlatest))

/-- As long as the size is an `int`, the device is found by its address. -/
theorem lookupsLatest (hsize : devices.length < 2 ^ 31) : LookupsLatest devices log := by
  intro address
  rw [IoTManager.bind_findDeviceIndexByIoTIp hsize, h.find?_eq]

end AddressKeys

/-! ### Where packages go -/

namespace IoTManager

variable {J : Jansson} {server : TcpServer} {m : IoTManager}

/-- The address is looked up, and the slot of what is found. -/
theorem target_eq_find? (hsize : m.registedDevices.length < 2 ^ 31) (address : Text) :
    target server address m = (m.registedDevices.find? (·.iotIp = address)).bind fun device =>
      (server.clientSockets[device.socketIndex]?).bind fun socket =>
        if 0 < socket then some (device, socket) else none := by
  rw [← bind_findDeviceIndexByIoTIp hsize, Option.bind_assoc]
  rfl

theorem reaches_target {log : List Action} (h : AddressKeys m.registedDevices log)
    (hsize : m.registedDevices.length < 2 ^ 31) (address : Text) :
    Reaches server m.registedDevices log address (target server address m) := by
  intro device fd
  rw [target_eq_find? hsize, h.find?_eq, Option.bind_eq_some_iff]
  constructor
  · rintro ⟨device', hfound, hsent⟩
    obtain ⟨socket, hsocket, hsent⟩ := Option.bind_eq_some_iff.mp hsent
    obtain ⟨hlatest, hmem⟩ := Option.filter_eq_some_iff.mp hfound
    split at hsent
    · rename_i hpos
      obtain ⟨rfl, rfl⟩ := Prod.mk.inj (Option.some.inj hsent)
      exact ⟨⟨hlatest, of_decide_eq_true hmem⟩, hsocket, hpos⟩
    · cases hsent
  · rintro ⟨⟨hlatest, hmem⟩, hsocket, hpos⟩
    refine ⟨device, Option.filter_eq_some_iff.mpr ⟨hlatest, decide_eq_true hmem⟩, ?_⟩
    rw [hsocket, Option.bind_some, if_pos hpos]

/-- A package passed on goes where anything for its address goes. -/
theorem forwardPackage_target {package : IoTPackage} {m' : IoTManager} {done : List Effect}
    (h : forwardPackage server package m = .ok (m', done)) {device : IoTDeviceInfo}
    {socket : Option Int} {buffer : List Byte} (hmem : .forwarded device socket buffer ∈ done) :
    target server package.desIp m = socket.map (device, ·) ∧
      buffer = package.dataVectorForSending := by
  suffices hsent : sendToDevice server package.desIp package.dataVectorForSending m
      = .ok (socket.map (device, ·)) ∧ buffer = package.dataVectorForSending from
    ⟨(sendToDevice_eq_target hsent.1).symm, hsent.2⟩
  unfold forwardPackage at h
  unfold sendToDevice
  cases hfind : findDeviceIndexByIoTIp package.desIp m.registedDevices with
  | none =>
      rw [hfind] at h
      obtain ⟨-, rfl⟩ := Prod.mk.inj (Except.ok.inj h)
      simp at hmem
  | some targetIndex =>
      rw [hfind] at h
      obtain ⟨device', hdevice, h⟩ := bind_ok_iff.mp h
      obtain ⟨socket', hsocket, h⟩ := bind_ok_iff.mp h
      obtain ⟨-, rfl⟩ := Prod.mk.inj (Except.ok.inj h)
      obtain ⟨rfl, rfl, rfl⟩ : device = device' ∧ socket = socket' ∧ _ := by simpa using hmem
      simp only [hdevice, hsocket, ok_bind, pure_eq_ok, and_self]

/-- Where the address has a device with a connection, the package is passed on. -/
theorem forwardPackage_of_target {package : IoTPackage} {device : IoTDeviceInfo} {fd : Int}
    (htarget : target server package.desIp m = some (device, fd))
    (hne : package.dataVectorForSending ≠ []) :
    forwardPackage server package m
      = .ok (m, [.forwarded device (some fd) package.dataVectorForSending]) := by
  obtain ⟨targetIndex, hfind, htarget⟩ := Option.bind_eq_some_iff.mp htarget
  obtain ⟨device', hdevice, htarget⟩ := Option.bind_eq_some_iff.mp htarget
  obtain ⟨socket, hsocket, htarget⟩ := Option.bind_eq_some_iff.mp htarget
  split at htarget
  · rename_i hpos
    obtain ⟨rfl, rfl⟩ := Prod.mk.inj (Option.some.inj htarget)
    obtain ⟨b, hb⟩ := returns_vectorAt_iff.mpr (List.length_pos_iff.mpr hne)
    have hsent : server.sendDataToExistsConnection device'.socketIndex package.dataVectorForSending
        = .ok (some socket) := by
      rw [TcpServer.sendDataToExistsConnection, vectorAt_nat_ok_iff.mpr hsocket, ok_bind,
        if_pos hpos]
      exact bind_ok_iff.mpr ⟨b, hb, rfl⟩
    rw [forwardPackage, hfind]
    dsimp only
    rw [vectorAt_nat_ok_iff.mpr hdevice, ok_bind, hsent, ok_bind]
    rfl
  · cases htarget

end IoTManager

/-! ### Runs -/

open IoTManager

/-- The device ID a package registers, if it is a registration with one. -/
def registeredID (J : Jansson) (package : IoTPackage) : Option Text :=
  (deviceRoot J package).bind fun root =>
    (getValueInFirstObject (some root) (lit "DeviceID")).toOption

/-- If the event registers a device, then under an address that no other device on
the list has. -/
def ManagerEvent.AddressFree (J : Jansson) (s : ManagerState) : ManagerEvent → Prop
  | arrived _ _ package =>
    ∀ id ∈ registeredID J package, ∀ device ∈ s.manager.registedDevices,
      device.iotIp = package.sorIp → device.deviceID = id
  | _ => True

/-- If the event registers a device, an `int` can tell how many there are with it. -/
def ManagerEvent.CountFits (J : Jansson) (s : ManagerState) : ManagerEvent → Prop
  | arrived _ _ package =>
    ∀ id ∈ registeredID J package,
      (s.manager.registedDevices.filter (·.deviceID ≠ id)).length + 1 < 2 ^ 31
  | _ => True

instance (J : Jansson) (s : ManagerState) (e : ManagerEvent) : Decidable (e.AddressFree J s) :=
  match e with
  | .scanned _ => inferInstanceAs (Decidable True)
  | .arrived _ _ _ => inferInstanceAs (Decidable (∀ id ∈ _, ∀ device ∈ _, _ → _))
  | .denied _ => inferInstanceAs (Decidable True)

instance (J : Jansson) (s : ManagerState) (e : ManagerEvent) : Decidable (e.CountFits J s) :=
  match e with
  | .scanned _ => inferInstanceAs (Decidable True)
  | .arrived _ _ _ => inferInstanceAs (Decidable (∀ id ∈ _, _))
  | .denied _ => inferInstanceAs (Decidable True)

section Runs

variable {J : Jansson}

theorem Registers.registeredID_eq {package : IoTPackage} {root : JsonRoot} {iotIp : Text}
    {socketIndex : Nat} {device : IoTDeviceInfo} (h : Registers J root iotIp socketIndex device)
    (hroot : deviceRoot J package = some root) :
    registeredID J package = some device.deviceID := by
  rw [registeredID, hroot, Option.bind_some, h.deviceID]
  rfl

/-- A registration that finds its address free keeps the addresses apart. -/
theorem addressKeys_step {s s' : ManagerState} {e : ManagerEvent}
    (hs : AddressKeys s.manager.registedDevices s.log) (hfits : s.DevicesFit)
    (hfree : e.AddressFree J s) (h : e.step J s = .ok s') :
    AddressKeys s'.manager.registedDevices s'.log := by
  cases e with
  | scanned server =>
      obtain ⟨hdevices, tail, hlog, hquiet⟩ := scan_devices h
      rw [hlog, hdevices]
      exact hs.append_quiet hquiet
  | arrived server socketIndex package =>
      rcases dispatchPackage_devices h with
        ⟨hroot, hdevices, tail, hlog, hquiet⟩ | ⟨root, device, hroot, hregisters, hdevices, hlog⟩
      · rw [hlog, hdevices]
        exact hs.append_quiet hquiet
      · rw [hlog, hdevices, withoutDevice_eq hfits]
        refine hs.register (fun device' hmem haddress => ?_) socketIndex package
        exact hfree _ (hregisters.registeredID_eq hroot) device' hmem
          (haddress.trans hregisters.address)
  | denied socketIndex =>
      obtain ⟨rules, -, rfl⟩ := ManagerState.eventConnectionDenied_cases h
      exact (hs.of_sublist (removeDeviceBySocketIndex_sublist _ _)).append_quiet
        (by simp [Action.registered?])

/-- Only such a registration does: an event that leaves the addresses distinct has met the
condition. -/
theorem addressFree_of_nodup {s s' : ManagerState} {e : ManagerEvent}
    (hs : AddressKeys s.manager.registedDevices s.log) (hfits : s.DevicesFit)
    (h : e.step J s = .ok s') (hnodup : (s'.manager.registedDevices.map (·.iotIp)).Nodup) :
    e.AddressFree J s := by
  cases e with
  | scanned server => trivial
  | denied socketIndex => trivial
  | arrived server socketIndex package =>
      rcases dispatchPackage_devices h with
        ⟨hroot, -⟩ | ⟨root, device, hroot, hregisters, hdevices, -⟩
      · rw [ManagerEvent.AddressFree, registeredID, hroot]
        exact fun id hid => absurd hid (Option.not_mem_none id)
      · rw [hdevices, withoutDevice_eq hfits] at hnodup
        rw [ManagerEvent.AddressFree, hregisters.registeredID_eq hroot]
        intro id hid device' hmem haddress
        obtain rfl := Option.some.inj hid
        exact hs.nodup_register_iff.mp hnodup device' hmem
          (haddress.trans hregisters.address.symm)

/-- The list gets longer by one device at most, and fits if the new device does. -/
theorem devicesFit_step {s s' : ManagerState} {e : ManagerEvent}
    (hs : AddressKeys s.manager.registedDevices s.log) (hfits : s.DevicesFit)
    (h : e.step J s = .ok s') :
    s'.manager.registedDevices.length ≤ 2 ^ 31 ∧ (e.CountFits J s ↔ s'.DevicesFit) := by
  have hsize : s.manager.registedDevices.length < 2 ^ 31 := hfits
  cases e with
  | scanned server =>
      rw [ManagerState.DevicesFit, (scan_devices h).1]
      exact ⟨hsize.le, iff_of_true trivial hsize⟩
  | arrived server socketIndex package =>
      rcases dispatchPackage_devices h with
        ⟨hroot, hdevices, -⟩ | ⟨root, device, hroot, hregisters, hdevices, -⟩
      · rw [ManagerState.DevicesFit, hdevices, ManagerEvent.CountFits, registeredID, hroot]
        exact ⟨hsize.le, iff_of_true (fun id hid => absurd hid (Option.not_mem_none id)) hsize⟩
      · have hfilter := List.length_filter_le
          (fun d : IoTDeviceInfo => d.deviceID ≠ device.deviceID) s.manager.registedDevices
        rw [ManagerState.DevicesFit, hdevices, withoutDevice_eq hfits,
          eraseP_eq_filter hs.deviceIDs, List.length_append, List.length_singleton,
          ManagerEvent.CountFits, hregisters.registeredID_eq hroot]
        refine ⟨by omega, ?_⟩
        simp
  | denied socketIndex =>
      obtain ⟨rules, -, rfl⟩ := ManagerState.eventConnectionDenied_cases h
      have hle := (removeDeviceBySocketIndex_sublist socketIndex
        s.manager.registedDevices).length_le
      exact ⟨hle.trans hsize.le, iff_of_true trivial (hle.trans_lt hsize)⟩

/-- With a device more than an `int` can tell, nothing is found any more. -/
theorem AddressKeys.not_lookupsLatest {devices : List IoTDeviceInfo} {log : List Action}
    (h : AddressKeys devices log) (hsize : devices.length = 2 ^ 31) :
    ¬ LookupsLatest devices log := by
  obtain ⟨device, hdevice⟩ := List.exists_mem_of_length_pos (by omega : 0 < devices.length)
  intro hlookups
  have hfound := hlookups device.iotIp
  rw [findDeviceIndexByIoTIp, visible_eq_nil hsize.ge (by omega), h.latest device hdevice,
    Option.filter_some, if_pos (decide_eq_true hdevice)] at hfound
  cases hfound

/-- The addresses are distinct, and looking one up finds the device registered there
last. -/
def ManagerState.Addressed (s : ManagerState) : Prop :=
  (s.manager.registedDevices.map (·.iotIp)).Nodup ∧
    LookupsLatest s.manager.registedDevices s.log

/-- One more event keeps the addresses keys if, and only if, it meets both conditions. -/
theorem addressed_step_iff {s s' : ManagerState} {e : ManagerEvent}
    (hs : AddressKeys s.manager.registedDevices s.log) (hfits : s.DevicesFit)
    (h : e.step J s = .ok s') :
    s'.Addressed ↔ e.AddressFree J s ∧ e.CountFits J s := by
  obtain ⟨hle, hcount⟩ := devicesFit_step hs hfits h
  constructor
  · rintro ⟨hnodup, hlookups⟩
    have hfree := addressFree_of_nodup hs hfits h hnodup
    refine ⟨hfree, hcount.mpr ?_⟩
    by_contra hmany
    have hsize : s'.manager.registedDevices.length = 2 ^ 31 := Nat.le_antisymm hle (by
      simpa [ManagerState.DevicesFit] using hmany)
    exact (addressKeys_step hs hfits hfree h).not_lookupsLatest hsize hlookups
  · rintro ⟨hfree, hfit⟩
    have hkeys := addressKeys_step hs hfits hfree h
    exact ⟨hkeys.addresses, hkeys.lookupsLatest (hcount.mp hfit)⟩

/-- **Addresses are keys**, in every run in which every registration finds its
address free and an `int` can tell the number of devices: no two devices share an
address, looking it up finds the device registered there last, and packages passed on,
reads and writes of rules go out on that device's slot. -/
theorem addressKeys_run {maxClient : Nat} {actionFrequency : Int} {es : List ManagerEvent}
    {s : ManagerState}
    (h : Run (fun s e s' => (ManagerEvent.AddressFree J s e ∧ e.CountFits J s) ∧
      e.step J s = .ok s') (.initial maxClient actionFrequency) es s) :
    s.Addressed ∧
      (∀ server socketIndex package,
        ¬ (package.sorIp = lit "0" ∧ package.desIp = lit "0") → package.desIp ≠ serverIoTIP →
        (∀ device fd,
          Designated server s.manager.registedDevices s.log package.desIp device fd →
          package.dataVectorForSending ≠ [] →
          dispatch J server socketIndex package s.manager
            = .ok (s.manager, [.forwarded device (some fd) package.dataVectorForSending])) ∧
        ∀ m' done, dispatch J server socketIndex package s.manager = .ok (m', done) →
          ∀ device fd buffer, .forwarded device (some fd) buffer ∈ done →
            Designated server s.manager.registedDevices s.log package.desIp device fd ∧
              buffer = package.dataVectorForSending) ∧
      (∀ server r r' done, excuteReadRule J server s.manager r = .ok (r', done) →
        0 < r.rule.readFrom.length → ∃ package sent, readPackage J r.rule = .ok package ∧
          sendToDevice server r.rule.readFrom package.dataVectorForSending s.manager = .ok sent ∧
          done = [.readRequested r' sent] ∧
          Reaches server s.manager.registedDevices s.log r.rule.readFrom sent) ∧
      (∀ server r writeValue done, excuteWriteRule J server s.manager r writeValue = .ok done →
        0 < r.rule.writeTo.length → ∃ package sent,
          writePackage J r.rule writeValue = .ok package ∧
          sendToDevice server r.rule.writeTo package.dataVectorForSending s.manager = .ok sent ∧
          done = [.ruleWritten r writeValue sent] ∧
          Reaches server s.manager.registedDevices s.log r.rule.writeTo sent) ∧
      ∀ (e : ManagerEvent) s', e.step J s = .ok s' →
        (s'.Addressed ↔ e.AddressFree J s ∧ e.CountFits J s) := by
  have h₀ : AddressKeys (ManagerState.initial maxClient actionFrequency).manager.registedDevices
      [] := ⟨List.nodup_nil, List.nodup_nil, by simp [ManagerState.initial]⟩
  obtain ⟨hs, hfits⟩ : AddressKeys s.manager.registedDevices s.log ∧ s.DevicesFit :=
    h.invariant (I := fun s => AddressKeys s.manager.registedDevices s.log ∧ s.DevicesFit)
      ⟨h₀, ManagerState.devicesFit_initial maxClient actionFrequency⟩
      fun _ _ _ hs hlast =>
        ⟨addressKeys_step hs.1 hs.2 hlast.1.1 hlast.2,
          (devicesFit_step hs.1 hs.2 hlast.2).2.mp hlast.1.2⟩
  refine ⟨⟨hs.addresses, hs.lookupsLatest hfits⟩, ?_, ?_, ?_,
    fun e s' hstep => addressed_step_iff hs hfits hstep⟩
  · intro server socketIndex package hnew hdes
    have hforward : dispatch J server socketIndex package s.manager
        = forwardPackage server package s.manager := by
      rw [dispatch, if_neg hnew, if_neg hdes]
    have hreaches : Reaches server s.manager.registedDevices s.log package.desIp
        (target server package.desIp s.manager) := reaches_target hs hfits package.desIp
    rw [hforward]
    refine ⟨fun device fd hdesignated hne => ?_, fun m' done hsent device fd buffer hmem => ?_⟩
    · exact forwardPackage_of_target ((hreaches device fd).mpr hdesignated) hne
    · obtain ⟨htarget, hbuffer⟩ := forwardPackage_target hsent hmem
      exact ⟨(hreaches device fd).mp htarget, hbuffer⟩
  · intro server r r' done hread hfrom
    obtain ⟨package, sent, hpackage, hsent, hdone⟩ := excuteReadRule_sends hread hfrom
    refine ⟨package, sent, hpackage, hsent, hdone, ?_⟩
    rw [sendToDevice_eq_target hsent]
    exact reaches_target hs hfits r.rule.readFrom
  · intro server r writeValue done hwrite hto
    obtain ⟨package, sent, hpackage, hsent, hdone⟩ := excuteWriteRule_sends hwrite hto
    refine ⟨package, sent, hpackage, hsent, hdone, ?_⟩
    rw [sendToDevice_eq_target hsent]
    exact reaches_target hs hfits r.rule.writeTo

end Runs

/-! ### One address, two devices -/

/-- Two devices register, the second one under the given address. -/
def twoRegistrations (address : Text) : List ManagerEvent :=
  [.arrived threeSockets 0 (registration (lit "DEV.0") (lit "A")),
    .arrived threeSockets 1 (registration address (lit "B"))]

/-- The entry of the first device. -/
def deviceA : IoTDeviceInfo :=
  ⟨lit "DEV.0", lit "UI", lit "A", (dumpStrings (deviceMessage (lit "A")).value).getD [], 0⟩

/-- The entry of the second. -/
def deviceB (address : Text) : IoTDeviceInfo :=
  ⟨address, lit "UI", lit "B", (dumpStrings (deviceMessage (lit "B")).value).getD [], 1⟩

theorem addressKeys_run_twoRegistrations : ∃ s : ManagerState,
    s.manager.registedDevices = [deviceA, deviceB (lit "DEV.1")] ∧ s.Addressed := by
  obtain ⟨s, hs, hdevices⟩ := Option.map_eq_some_iff.mp
    (show (execute (fun s e => ManagerEvent.AddressFree heatJansson s e ∧
          ManagerEvent.CountFits heatJansson s e)
        (fun s e => ManagerEvent.step heatJansson s e) (.initial 3 1000)
        (twoRegistrations (lit "DEV.1"))).map (fun s => s.manager.registedDevices)
      = some [deviceA, deviceB (lit "DEV.1")] by decide +kernel)
  exact ⟨s, hdevices, (addressKeys_run (run_of_execute hs)).1⟩

/-- The second device takes the address of the first, and what is sent to it still
goes to the first. -/
theorem not_addressKeys_taken : ∃ s : ManagerState,
    Run (fun s e s' => ManagerEvent.step heatJansson s e = .ok s') (.initial 3 1000)
      (twoRegistrations (lit "DEV.0")) s ∧
    ¬ (s.manager.registedDevices.map (·.iotIp)).Nodup ∧
    latestUnder (lit "DEV.0") s.log = some (deviceB (lit "DEV.0")) ∧
    findDeviceIndexByIoTIp (lit "DEV.0") s.manager.registedDevices = some 0 ∧
    target threeSockets (lit "DEV.0") s.manager = some (deviceA, 4) := by
  obtain ⟨s, hs, hq⟩ := Option.map_eq_some_iff.mp
    (show (execute (fun _ _ => True) (fun s e => ManagerEvent.step heatJansson s e)
        (.initial 3 1000) (twoRegistrations (lit "DEV.0"))).map (fun s =>
          (decide (s.manager.registedDevices.map (·.iotIp)).Nodup,
            latestUnder (lit "DEV.0") s.log,
            findDeviceIndexByIoTIp (lit "DEV.0") s.manager.registedDevices,
            target threeSockets (lit "DEV.0") s.manager))
      = some (false, some (deviceB (lit "DEV.0")), some 0, some (deviceA, 4)) by decide +kernel)
  simp only [Prod.mk.injEq, decide_eq_false_iff_not] at hq
  exact ⟨s, (run_of_execute hs).mono fun _ _ _ h => h.2, hq⟩

end IoTRepublic
