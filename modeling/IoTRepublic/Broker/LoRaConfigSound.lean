import IoTRepublic.Broker.LoRaBroker

/-!
# IoTRepublic.Broker.LoRaConfigSound

The configuration file of the LoRa broker, over any text.

The fields between the `@` symbols are read in pairs (`returns_readDevices_iff`), and a
field without a partner ends the program; white space is gone before the text is
split. `parsesConfig_iff` has what a file must be like to be read as it is.

The file is a row of fields and no row of lines: what stands at the end of one line and at
the beginning of the next is one field once the line end is skipped. That the fields
determine the text (`fields_inj`) is what makes the condition on white space exact.
-/

namespace IoTRepublic

open Cpp

namespace LoRaBroker

/-! ### Fields -/

section Fields

/-- The fields between the `@` symbols, the last one included, which may be empty. -/
def fields (text : List Byte) : List Text := text.splitOn configFileSplitSymbol

/-- The two fields of a device. -/
def DeviceInfo.fields (device : DeviceInfo) : List Text :=
  [device.loRaAddress, device.deviceDescription]

/-- The `j`-th device has the fields `2 * j` and `2 * j + 1`. -/
def InFields (texts : List Text) (devices : List DeviceInfo) : Prop :=
  ∀ (j : Nat) (device : DeviceInfo), devices[j]? = some device →
    texts[2 * j]? = some device.loRaAddress ∧ texts[2 * j + 1]? = some device.deviceDescription

theorem length_fields (text : List Byte) :
    (fields text).length = text.count configFileSplitSymbol + 1 := by
  induction text with
  | nil => rfl
  | cons b text ih =>
      rw [fields, List.splitOn_cons_eq_if_modifyHead, List.count_cons]
      split
      · rw [List.length_cons, ← fields, ih]
      · rw [List.length_modifyHead, ← fields, ih, Nat.add_zero]

/-- The fields tell what the text was. -/
theorem fields_inj {text text' : List Byte} (h : fields text = fields text') : text = text' :=
  calc text = [configFileSplitSymbol].intercalate (fields text) :=
        (List.intercalate_splitOn configFileSplitSymbol).symm
    _ = [configFileSplitSymbol].intercalate (fields text') := by rw [h]
    _ = text' := List.intercalate_splitOn configFileSplitSymbol

/-- Devices that have all the fields, in order. -/
theorem flatMap_fields_eq_iff {texts : List Text} {devices : List DeviceInfo} :
    devices.flatMap DeviceInfo.fields = texts ↔
      texts.length = 2 * devices.length ∧ InFields texts devices := by
  induction devices generalizing texts with
  | nil =>
      constructor
      · rintro rfl
        exact ⟨rfl, fun j device h => by simp at h⟩
      · exact fun h => (List.length_eq_zero_iff.mp h.1).symm
  | cons device devices ih =>
      rw [List.flatMap_cons, DeviceInfo.fields]
      constructor
      · rintro rfl
        obtain ⟨hlength, hfields⟩ := ih.mp rfl
        refine ⟨by simp [hlength]; omega, fun j device' hj => ?_⟩
        cases j with
        | zero =>
            cases hj
            exact ⟨rfl, rfl⟩
        | succ j => exact hfields j device' hj
      · intro h
        obtain ⟨hlength, hfields⟩ := h
        obtain ⟨hfirst, hsecond⟩ := hfields 0 device rfl
        match texts with
        | [] => cases hfirst
        | [_] => cases hsecond
        | a :: b :: texts =>
          cases hfirst
          cases hsecond
          have hrest := ih.mpr ⟨by simp at hlength; omega, fun j device' hj =>
            hfields (j + 1) device' hj⟩
          rw [hrest]
          rfl

/-- The loop of `loadLoRaConfigFile` comes to its end when no field is left over. -/
theorem returns_readDevices_iff (texts : List Text) :
    Returns (readDevices texts) ↔ texts.length % 2 = 0 := by
  induction texts using readDevices.induct with
  | case1 => simp [readDevices]
  | case2 text => simp [readDevices]
  | case3 loRaAddress deviceDescription texts ih =>
      have hrest : Returns (readDevices (loRaAddress :: deviceDescription :: texts)) ↔
          Returns (readDevices texts) := returns_bind_iff_left fun _ _ => ⟨_, rfl⟩
      rw [hrest, ih, List.length_cons, List.length_cons]
      omega

/-- What it makes of the fields, two for a device, gives the fields back. -/
theorem readDevices_ok {texts : List Text} {devices : List DeviceInfo}
    (h : readDevices texts = .ok devices) : devices.flatMap DeviceInfo.fields = texts := by
  induction texts using readDevices.induct generalizing devices with
  | case1 =>
      cases h
      rfl
  | case2 text => cases h
  | case3 loRaAddress deviceDescription texts ih =>
      obtain ⟨devices', hrest, h⟩ := bind_ok_iff.mp h
      cases h
      rw [List.flatMap_cons, ih hrest]
      rfl

end Fields

/-! ### The file -/

section File

variable {file : List Byte} {loRaDevices devices : List DeviceInfo}

/-- The text of the file without its white space. -/
def solid (file : List Byte) : List Byte := file.filter (!isSpace ·)

/-- The symbol between the fields is no white space. -/
theorem length_fields_solid (file : List Byte) :
    (fields (solid file)).length = (fields file).length := by
  have hsymbol : (!isSpace configFileSplitSymbol) = true := by decide
  rw [length_fields, length_fields, solid, List.count_filter (p := (!isSpace ·)) hsymbol]

/-- What is loaded, and when: the devices the fields make, behind those there are, if the
sizes fit. -/
theorem loadLoRaConfigFile_ok_iff : loadLoRaConfigFile file loRaDevices = .ok devices ↔
    ∃ added, readDevices (fields (solid file)) = .ok added ∧ devices = loRaDevices ++ added ∧
      0 ≤ toInt file.length ∧ (loRaDevices ++ added).length < 2 ^ 64 := by
  rw [loadLoRaConfigFile, configDevices, readTextFileToVector]
  constructor
  · intro h
    obtain ⟨added, hadded, h⟩ := bind_ok_iff.mp h
    obtain ⟨text, htext, hadded⟩ := bind_ok_iff.mp hadded
    obtain ⟨_, hreserve, htext⟩ := bind_ok_iff.mp htext
    cases htext
    dsimp only at h
    split at h
    · rename_i hroom
      cases h
      exact ⟨added, hadded, rfl, reserve_ok_iff.mp hreserve, hroom⟩
    · cases h
  · intro h
    obtain ⟨added, hadded, rfl, hsize, hroom⟩ := h
    have hreserve : reserve (toInt file.length) = .ok () := reserve_ok_iff.mpr hsize
    rw [hreserve, ok_bind, pure_eq_ok, ok_bind, ← fields, ← solid, hadded, ok_bind]
    dsimp only
    rw [if_pos hroom]
    rfl

/-- Loading appends one device for every two fields of the file, and they are its
fields as they stand. -/
def ParsesConfig (file : List Byte) (loRaDevices : List DeviceInfo) : Prop :=
  ∃ added, loadLoRaConfigFile file loRaDevices = .ok (loRaDevices ++ added) ∧
    added.length = (fields file).length / 2 ∧ InFields (fields file) added

/-- What a file must be like for its devices to be loaded: no white space, an even number
of fields, and sizes the program can count. -/
structure Loadable (file : List Byte) (loRaDevices : List DeviceInfo) : Prop where
  paired : (fields file).length % 2 = 0
  solid : ∀ b ∈ file, isSpace b = false
  /-- The size of the file is an `int`. -/
  counted : 0 ≤ toInt file.length
  /-- The vector can hold the devices. -/
  room : loRaDevices.length + (fields file).length / 2 < 2 ^ 64

theorem solid_eq_iff : solid file = file ↔ ∀ b ∈ file, isSpace b = false := by
  simp [solid, List.filter_eq_self]

/-- **When a configuration file is read as it is**: when its fields come in pairs and it
has no white space. A file that is missing is one of a single empty field. -/
theorem parsesConfig_iff (file : Option (List Byte)) (loRaDevices : List DeviceInfo) :
    ParsesConfig (file.getD []) loRaDevices ↔ Loadable (file.getD []) loRaDevices := by
  generalize file.getD [] = file
  constructor
  · intro h
    obtain ⟨added, hload, hlength, hfields⟩ := h
    obtain ⟨added', hadded, heq, hcounted, hroom⟩ := loadLoRaConfigFile_ok_iff.mp hload
    obtain rfl := List.append_cancel_left heq
    have hpaired := (returns_readDevices_iff _).mp ⟨added, hadded⟩
    rw [length_fields_solid] at hpaired
    have hfile := flatMap_fields_eq_iff.mpr ⟨by omega, hfields⟩
    have hsolid := fields_inj ((readDevices_ok hadded).symm.trans hfile)
    rw [List.length_append, hlength] at hroom
    exact ⟨hpaired, solid_eq_iff.mp hsolid, hcounted, hroom⟩
  · intro h
    have hsolid : solid file = file := solid_eq_iff.mpr h.solid
    obtain ⟨added, hadded⟩ := (returns_readDevices_iff _).mpr h.paired
    obtain ⟨hlength, hfields⟩ := flatMap_fields_eq_iff.mp (readDevices_ok hadded)
    have hhalf : added.length = (fields file).length / 2 := by omega
    refine ⟨added, loadLoRaConfigFile_ok_iff.mpr ⟨added, ?_, rfl, h.counted, ?_⟩, hhalf, hfields⟩
    · rw [hsolid]
      exact hadded
    · rw [List.length_append, hhalf]
      exact h.room

/-- Without a file the program ends with an exception. -/
theorem not_parsesConfig_missing : ¬ ParsesConfig ((none : Option (List Byte)).getD []) [] := by
  intro h
  obtain ⟨added, hload, -⟩ := h
  have hfault : loadLoRaConfigFile [] [] = .error .outOfRange := by decide
  rw [Option.getD_none, hfault] at hload
  cases hload

end File

end LoRaBroker

end IoTRepublic
