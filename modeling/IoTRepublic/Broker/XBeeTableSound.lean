import IoTRepublic.Broker.XBeeScan
import IoTRepublic.Lib.KeyedTable

/-!
# IoTRepublic.Broker.XBeeTableSound

The device table over any row of calls of `addNewDevice`.

The table is updated by radio address and searched by `IoTIp`. Up to 2 ^ 31 entries,
which an `int` index can reach, a call is a write to a keyed table
(`addNewDevice_eq`); everything else is read off the table. A scan changes the table
by such calls only (`scanAllDevice_grows`).

The address is the key and the `IoTIp` what is found: the manager hands out an ip for
every call, so the ips of a run are distinct, and this is the one hypothesis on them. With
2 ^ 31 addresses the index loop ends before it begins, and the next call adds an address
that is there (`not_addressTable_many`); the devices of that run have the ips the manager
would have given them.
-/

namespace IoTRepublic

open Cpp KeyedTable

@[simp] theorem XBeeAddress64.isEqual_eq (address addr1 : XBeeAddress64) :
    address.isEqual addr1 = decide (address = addr1) := by
  rw [Bool.eq_iff_iff]
  simp only [XBeeAddress64.isEqual, Bool.and_eq_true, decide_eq_true_eq]
  constructor
  · intro h
    cases address with
    | mk msb lsb =>
        cases addr1 with
        | mk msb' lsb' =>
            rw [XBeeAddress64.mk.injEq]
            exact ⟨h.2.symm, h.1.symm⟩
  · intro h
    rw [h]
    exact ⟨rfl, rfl⟩

namespace XBeeBrokerApiMode

/-- A row of calls of `addNewDevice`. -/
def addNewDevices (xbeeDevices calls : List DeviceInfo) : Except Fault (List DeviceInfo) :=
  calls.foldlM (fun devices call => addNewDevice devices call.address call.ioTIp) xbeeDevices

theorem addNewDevices_append (xbeeDevices calls calls' : List DeviceInfo) :
    addNewDevices xbeeDevices (calls ++ calls') = (do
      addNewDevices (← addNewDevices xbeeDevices calls) calls') := by
  simp [addNewDevices, List.foldlM_append]

/-! ### One call -/

theorem findDeviceIndexOfAddress_eq {devices : List DeviceInfo} (h : devices.length < 2 ^ 31)
    (addr : XBeeAddress64) : findDeviceIndexOfAddress devices addr
      = (devices.findIdx? (·.address = addr)).elim (-1) Int.ofNat := by
  simp only [findDeviceIndexOfAddress, visible_of_lt h, XBeeAddress64.isEqual_eq]
  cases devices.findIdx? (·.address = addr) with
  | none => rfl
  | some i => rfl

theorem findDeviceIndex_eq {devices : List DeviceInfo} (h : devices.length < 2 ^ 31)
    (iotIp : Text) : findDeviceIndex devices iotIp
      = (devices.findIdx? (·.ioTIp = iotIp)).elim (-1) Int.ofNat := by
  rw [findDeviceIndex, visible_of_lt h]
  cases devices.findIdx? (·.ioTIp = iotIp) with
  | none => rfl
  | some i => rfl

/-- A call is a write to the table keyed by address. -/
theorem addNewDevice_eq {devices : List DeviceInfo} (h : devices.length < 2 ^ 31)
    (call : DeviceInfo) : addNewDevice devices call.address call.ioTIp
      = .ok (put DeviceInfo.address devices call) := by
  rw [addNewDevice, findDeviceIndexOfAddress_eq h, put]
  cases hfind : devices.findIdx? (·.address = call.address) with
  | none => rfl
  | some i =>
      obtain ⟨hlt, -, -⟩ := List.findIdx?_eq_some_iff_getElem.mp hfind
      obtain ⟨device, hdevice⟩ := returns_vectorAt_iff.mpr hlt
      simp [hdevice]

/-! ### Any row of calls -/

/-- As long as the table can be indexed before every call, it is the keyed table. -/
theorem addNewDevices_eq {calls : List DeviceInfo}
    (h : ∀ done device rest, calls = done ++ device :: rest →
      (putAll DeviceInfo.address done).length < 2 ^ 31) :
    addNewDevices [] calls = .ok (putAll DeviceInfo.address calls) := by
  induction calls using List.reverseRecOn with
  | nil => rfl
  | append_singleton calls device ih =>
      have hcalls : addNewDevices [] calls = .ok (putAll DeviceInfo.address calls) := by
        refine ih fun done device' rest heq => h done device' (rest ++ [device]) ?_
        rw [heq, List.append_assoc, List.cons_append]
      have hlength := h calls device [] rfl
      rw [addNewDevices_append, hcalls, ok_bind, putAll_concat]
      simp [addNewDevices, addNewDevice_eq hlength]

/-- What the table holds after these calls: one entry for each address, that of the latest
call, found by its ip. -/
structure AddressTable (calls devices : List DeviceInfo) : Prop where
  distinct : (devices.map DeviceInfo.address).Nodup
  /-- The entries are the latest call for each address. -/
  latest : ∀ device, device ∈ devices ↔ Latest DeviceInfo.address calls device
  /-- Every address that has occurred is there. -/
  occurred : ∀ call ∈ calls, ∃ device ∈ devices, device.address = call.address
  /-- The search finds the entry of an ip that is current. -/
  current : ∀ call, Latest DeviceInfo.address calls call →
    ∃ i : Nat, findDeviceIndex devices call.ioTIp = i ∧ devices[i]? = some call
  /-- It finds none for an ip that is not. -/
  superseded : ∀ call ∈ calls, ¬ Latest DeviceInfo.address calls call →
    findDeviceIndex devices call.ioTIp = -1

/-- The entries of other addresses are the same ones at the same positions. -/
def OthersKept (addr : XBeeAddress64) (before after : List DeviceInfo) : Prop :=
  ∀ device : DeviceInfo, device.address ≠ addr →
    ∀ i : Nat, after[i]? = some device ↔ before[i]? = some device

theorem addressTable_putAll {calls : List DeviceInfo} (hips : (calls.map DeviceInfo.ioTIp).Nodup)
    (hlength : (putAll DeviceInfo.address calls).length < 2 ^ 31) :
    AddressTable calls (putAll DeviceInfo.address calls) where
  distinct := nodup_putAll _ calls
  latest := fun _ => mem_putAll_iff
  occurred := by
    intro call hcall
    obtain ⟨device, hlatest, haddress⟩ :
        ∃ device, Latest DeviceInfo.address calls device ∧ device.address = call.address :=
      exists_latest hcall
    exact ⟨device, mem_putAll_iff.mpr hlatest, haddress⟩
  current := by
    intro call hlatest
    obtain ⟨i, hfind, hi⟩ := (findIdx?_putAll hips hlatest.mem).1 hlatest
    exact ⟨i, by rw [findDeviceIndex_eq hlength, hfind]; rfl, hi⟩
  superseded := by
    intro call hcall hnot
    rw [findDeviceIndex_eq hlength, (findIdx?_putAll hips hcall).2 hnot]
    rfl

/-- Fewer calls have fewer addresses. -/
theorem card_addresses_le {calls done rest : List DeviceInfo} (h : calls = done ++ rest) :
    (putAll DeviceInfo.address done).length ≤ (calls.map DeviceInfo.address).toFinset.card := by
  rw [length_putAll, h, List.map_append, List.toFinset_append]
  exact Finset.card_le_card Finset.subset_union_left

/-- **The table across rescans**: as long as fewer than 2 ^ 31 addresses have
occurred, every call leaves it with one entry for each of them, that of the latest
call, and with the other entries where they were. -/
theorem addressTable_run {calls : List DeviceInfo} (hips : (calls.map DeviceInfo.ioTIp).Nodup)
    (hfew : (calls.map DeviceInfo.address).toFinset.card < 2 ^ 31) {done : List DeviceInfo}
    (hdone : done <+: calls) :
    ∃ devices, addNewDevices [] done = .ok devices ∧ AddressTable done devices ∧
      ∀ before call, done = before ++ [call] →
        ∃ old, addNewDevices [] before = .ok old ∧ OthersKept call.address old devices := by
  obtain ⟨rest, rfl⟩ := hdone
  have hall : ∀ before after, done ++ rest = before ++ after →
      addNewDevices [] before = .ok (putAll DeviceInfo.address before) := by
    intro before after heq
    refine addNewDevices_eq fun front device back hfront => ?_
    have hsplit : done ++ rest = front ++ (device :: back ++ after) := by
      rw [heq, hfront, List.append_assoc]
    exact lt_of_le_of_lt (card_addresses_le hsplit) hfew
  have hips' : (done.map DeviceInfo.ioTIp).Nodup := by
    rw [List.map_append] at hips
    exact (List.nodup_append.mp hips).1
  have hlength : (putAll DeviceInfo.address done).length < 2 ^ 31 :=
    lt_of_le_of_lt (card_addresses_le rfl) hfew
  refine ⟨_, hall done rest rfl, addressTable_putAll hips' hlength, ?_⟩
  intro before call hbefore
  refine ⟨_, hall before ([call] ++ rest) (by rw [hbefore, List.append_assoc]), ?_⟩
  intro device hdevice i
  rw [hbefore, putAll_concat]
  exact getElem?_put_iff hdevice i

/-- A device at address `lsb` under the ip `DEV.n`, as the manager hands them out. -/
def deviceAt (lsb n : Nat) : DeviceInfo where
  ioTIp := lit "DEV." ++ showInt n
  address := ⟨0x0013A200, .ofNat lsb⟩

theorem addressTable_run_rescan : ∃ devices,
    addNewDevices [] [deviceAt 1 1, deviceAt 2 2, deviceAt 1 3] = .ok devices ∧
    AddressTable [deviceAt 1 1, deviceAt 2 2, deviceAt 1 3] devices ∧
    ∀ before call, [deviceAt 1 1, deviceAt 2 2, deviceAt 1 3] = before ++ [call] →
      ∃ old, addNewDevices [] before = .ok old ∧ OthersKept call.address old devices :=
  addressTable_run (by decide) (by decide) (List.prefix_refl _)

/-- As many devices as an `int` cannot count, each at an address and under an ip of its
own. -/
def manyDevices : List DeviceInfo := (List.range (2 ^ 31)).map fun i => deviceAt i i

theorem length_manyDevices : manyDevices.length = 2 ^ 31 := by
  rw [manyDevices, List.length_map, List.length_range]

theorem nodup_manyDevices_of {β : Type} {f : DeviceInfo → β}
    (hf : ∀ i < 2 ^ 31, ∀ j < 2 ^ 31, f (deviceAt i i) = f (deviceAt j j) → i = j) :
    (manyDevices.map f).Nodup := by
  rw [manyDevices, List.map_map]
  refine List.Nodup.map_on (fun i hi j hj => ?_) List.nodup_range
  exact hf i (List.mem_range.mp hi) j (List.mem_range.mp hj)

theorem nodup_manyDevices_ioTIp : (manyDevices.map DeviceInfo.ioTIp).Nodup := by
  refine nodup_manyDevices_of fun i _ j _ h => ?_
  exact showInt_natCast_injective (List.append_cancel_left h)

theorem nodup_manyDevices_address : (manyDevices.map DeviceInfo.address).Nodup := by
  refine nodup_manyDevices_of fun i hi j hj h => ?_
  have hlsb := congrArg (fun addr : XBeeAddress64 => addr.lsb.toNat) h
  simp only [deviceAt, UInt32.toNat_ofNat'] at hlsb
  omega

/-- With one device too many none is found any more. -/
theorem not_addressTable_many : ∃ devices, (manyDevices.map DeviceInfo.ioTIp).Nodup ∧
    addNewDevices [] manyDevices = .ok devices ∧ ¬ AddressTable manyDevices devices := by
  have hrun : addNewDevices [] manyDevices = .ok (putAll DeviceInfo.address manyDevices) := by
    refine addNewDevices_eq fun done device rest heq => ?_
    have hlength := congrArg List.length heq
    rw [length_manyDevices, List.length_append, List.length_cons] at hlength
    have hle : (putAll DeviceInfo.address done).length ≤ done.length := by
      rw [length_putAll]
      exact (List.toFinset_card_le _).trans (by simp)
    omega
  have hlength : (putAll DeviceInfo.address manyDevices).length = 2 ^ 31 := by
    rw [length_putAll, List.toFinset_card_of_nodup nodup_manyDevices_address, List.length_map,
      length_manyDevices]
  -- The number of devices wraps around to a negative one.
  have hnone : visible (putAll DeviceInfo.address manyDevices) = [] := by
    rw [visible, hlength, show (toInt (2 ^ 31)).toNat = 0 by decide, List.take_zero]
  refine ⟨_, nodup_manyDevices_ioTIp, hrun, fun htable => ?_⟩
  have hfirst : deviceAt 0 0 ∈ manyDevices := by
    rw [manyDevices]
    exact List.mem_map_of_mem (List.mem_range.mpr (Nat.two_pow_pos 31))
  obtain ⟨call, hlatest⟩ : ∃ call, Latest DeviceInfo.address manyDevices call := by
    obtain ⟨call, hlatest, -⟩ := exists_latest hfirst
    exact ⟨call, hlatest⟩
  obtain ⟨i, hindex, -⟩ := htable.current call hlatest
  rw [findDeviceIndex, hnone] at hindex
  exact absurd hindex (by simp)

/-! ### The scans -/

/-- The second device table comes from the first by calls of `addNewDevice` for these
addresses. -/
def TableGrows (addrs : List XBeeAddress64) (devices devices' : List DeviceInfo) : Prop :=
  ∃ calls : List DeviceInfo, addNewDevices devices calls = .ok devices' ∧
    ∀ call ∈ calls, call.address ∈ addrs

theorem TableGrows.refl (addrs : List XBeeAddress64) (devices : List DeviceInfo) :
    TableGrows addrs devices devices := ⟨[], rfl, by simp⟩

theorem TableGrows.trans {addrs : List XBeeAddress64} {devices devices' devices'' : List DeviceInfo}
    (h : TableGrows addrs devices devices') (h' : TableGrows addrs devices' devices'') :
    TableGrows addrs devices devices'' := by
  obtain ⟨calls, hcalls, haddrs⟩ := h
  obtain ⟨calls', hcalls', haddrs'⟩ := h'
  refine ⟨calls ++ calls', by rw [addNewDevices_append, hcalls, ok_bind, hcalls'],
    fun call hcall => ?_⟩
  rcases List.mem_append.mp hcall with hcall | hcall
  · exact haddrs call hcall
  · exact haddrs' call hcall

theorem TableGrows.mono {addrs addrs' : List XBeeAddress64} {devices devices' : List DeviceInfo}
    (h : TableGrows addrs devices devices') (hsub : addrs ⊆ addrs') :
    TableGrows addrs' devices devices' := by
  obtain ⟨calls, hcalls, haddrs⟩ := h
  exact ⟨calls, hcalls, fun call hcall => hsub (haddrs call hcall)⟩

theorem registerDevice_grows {managerIoTIp : Text} {devices devices' : List DeviceInfo}
    {addr : XBeeAddress64} {deviceDescription : List Byte} {ioTIp : Text}
    {packages : List IoTPackage}
    (h : registerDevice managerIoTIp devices addr deviceDescription ioTIp
      = .ok (devices', packages)) : TableGrows [addr] devices devices' := by
  unfold registerDevice at h
  split at h
  · obtain ⟨added, hadded, h⟩ := bind_ok_iff.mp h
    obtain ⟨package, -, h⟩ := bind_ok_iff.mp h
    cases h
    refine ⟨[⟨ioTIp, addr⟩], ?_, by simp⟩
    simp [addNewDevices, hadded]
  · cases h
    exact .refl [addr] devices

theorem probeModule_grows {managerIoTIp : Text} {addr : XBeeAddress64} {replies : ModuleReplies}
    {recvBuffer recvBuffer' : List Byte} {devices devices' : List DeviceInfo}
    {packages : List IoTPackage}
    (h : probeModule managerIoTIp addr replies recvBuffer devices
      = .ok (some (recvBuffer', devices', packages))) : TableGrows [addr] devices devices' := by
  obtain ⟨_, -, h⟩ := bind_ok_iff.mp h
  obtain ⟨response, -, h⟩ := bind_ok_iff.mp h
  cases response with
  | none => cases h
  | some result =>
      obtain ⟨res, buffer⟩ := result
      dsimp only at h
      split at h
      · cases h
        exact .refl [addr] devices
      · split at h
        · obtain ⟨description, -, h⟩ := bind_ok_iff.mp h
          cases description with
          | none => cases h
          | some deviceDescription =>
              obtain ⟨⟨added, sent⟩, hregister, h⟩ := bind_ok_iff.mp h
              cases h
              exact registerDevice_grows hregister
        · cases h
          exact .refl [addr] devices

theorem probeModules_grows {managerIoTIp : Text} {modules : List (XBeeAddress64 × ModuleReplies)}
    {recvBuffer : List Byte} {devices devices' : List DeviceInfo} {packages : List IoTPackage}
    (h : probeModules managerIoTIp modules recvBuffer devices = .ok (some (devices', packages))) :
    TableGrows (modules.map Prod.fst) devices devices' := by
  induction modules generalizing recvBuffer devices packages with
  | nil =>
      cases h
      exact .refl _ _
  | cons m modules ih =>
      obtain ⟨addr, replies⟩ := m
      obtain ⟨probe, hprobe, h⟩ := bind_ok_iff.mp h
      cases probe with
      | none => cases h
      | some result =>
          obtain ⟨buffer, between, sent⟩ := result
          obtain ⟨rest, hrest, h⟩ := bind_ok_iff.mp h
          cases rest with
          | none => cases h
          | some result =>
              obtain ⟨devices'', later⟩ := result
              cases h
              exact ((probeModule_grows hprobe).mono (by simp)).trans
                ((ih hrest).mono (List.subset_cons_self _ _))

/-- A scan changes the table by calls for the addresses it has discovered. -/
theorem scanAllDevice_grows {scan : ModuleScan} {devices devices' : List DeviceInfo}
    {packages : List IoTPackage}
    (h : scanAllDevice scan devices = .ok (some (devices', packages))) :
    ∃ found, discover scan.discovery = .ok found ∧
      TableGrows found.xbeeAddresses devices devices' := by
  obtain ⟨found, hfound, h⟩ := bind_ok_iff.mp h
  split at h
  · cases h
  · refine ⟨found, hfound, (probeModules_grows h).mono fun addr haddr => ?_⟩
    obtain ⟨m, hm, rfl⟩ := List.mem_map.mp haddr
    exact (visible_isPrefix _).subset (List.of_mem_zip hm).1

end XBeeBrokerApiMode

end IoTRepublic
