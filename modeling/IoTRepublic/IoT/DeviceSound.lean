import IoTRepublic.IoT.Device
import IoTRepublic.IoT.Registration
import IoTRepublic.IoT.RegistrySound

/-!
# IoTRepublic.IoT.DeviceSound

What the uploader can load of what the manager has accepted.

The manager wants two strings of a device; `SetJSDescription` wants a name too, and
four strings of every component, five of one whose content is read. `Describes`
says which objects have them.

Both read the member of the message with which iteration starts, and the uploader is
another process, where that may be another one. So what an uploader gets past depends
on where it starts (`setJSDescription_ok_iff`), and every uploader gets past a message
exactly when all of its members describe the device (`setJSDescription_iff`).

A reader that starts elsewhere is modelled by the same library with another first key
(`Jansson.startingAt`), so that the two conditions are about one text. The loop over the
components is taken element by element: it returns if every element an `int` counts has
the strings its type needs.
-/

namespace IoTRepublic

open Cpp JsonUtility

namespace Json

/-- The components of a device, as many as an `int` counts. -/
def components (description : Json) : List Json :=
  match description.objectGet (lit "Component") with
  | some (array elements) => visible elements
  | _ => []

/-- The component has the fields its type needs. -/
def ReadableComponent (element : Json) : Prop :=
  (∃ id, element.text? (lit "ID") = some id) ∧ (∃ name, element.text? (lit "Name") = some name) ∧
    (∃ group, element.text? (lit "Group") = some group) ∧
    ∃ type, element.text? (lit "Type") = some type ∧
      (type = lit "Content" → ∃ readFrequency n,
        element.text? (lit "ReadFrequency") = some readFrequency ∧ stoi readFrequency = .ok n)

/-- An object from which the uploader can load the device with the ID. -/
structure Describes (deviceID : Text) (description : Json) : Prop where
  deviceID : description.text? (lit "DeviceID") = some deviceID
  deviceName : ∃ deviceName, description.text? (lit "DeviceName") = some deviceName
  functionGroup : ∃ functionGroup, description.text? (lit "FunctionGroup") = some functionGroup
  components : ∀ element ∈ description.components, ReadableComponent element

end Json

open Json

/-- The same value, with iteration starting at the member with the key. -/
def JsonRoot.startAt (root : JsonRoot) (key : Text) : JsonRoot :=
  if h : root.value.keys.contains key then
    { value := root.value
      firstKey := some key
      firstKey_mem := fun _ hkey => Option.some.inj hkey ▸ List.contains_iff_mem.mp h
      keys_eq_nil := fun hnone => absurd hnone (Option.some_ne_none key) }
  else root

@[simp] theorem JsonRoot.value_startAt (root : JsonRoot) (key : Text) :
    (root.startAt key).value = root.value := by
  unfold startAt
  split <;> rfl

theorem JsonRoot.firstKey_startAt {root : JsonRoot} {key : Text} (h : key ∈ root.value.keys) :
    (root.startAt key).firstKey = some key := by
  rw [startAt, dif_pos (List.contains_iff_mem.mpr h)]

/-- The library in a process in which iteration starts with the key wherever it can. -/
def Jansson.startingAt (J : Jansson) (key : Text) : Jansson :=
  { J with loads := fun text => (J.loads text).map (·.startAt key) }

theorem Jansson.RereadBy.startingAt {J J' : Jansson} (h : J.RereadBy J') (key : Text) :
    J.RereadBy (J'.startingAt key) := by
  intro text root hload
  obtain ⟨desc, hdesc, hreread⟩ := h text root hload
  refine ⟨desc, hdesc, fun hlength => ?_⟩
  obtain ⟨root', hback, hvalue⟩ := hreread hlength
  refine ⟨root'.startAt key, ?_, ?_⟩
  · rw [Jansson.startingAt]
    dsimp only
    rw [hback, Option.map_some]
  · rw [JsonRoot.value_startAt, hvalue]

namespace IoTDevice

variable {J : Jansson} {root : JsonRoot} {elements : List Json}

/-! ### Components -/

theorem readComType_eq_content_iff {type : Text} :
    readComType type = .content ↔ type = lit "Content" := by
  unfold readComType
  split
  · rename_i h
    subst h
    decide
  · split
    · rename_i h
      simp [h]
    · rename_i h
      simp [h]

theorem readComponent_ok_iff (h : root.firstGet (lit "Component") = some (.array elements))
    {i : Nat} {element : Json} (hi : elements[i]? = some element) :
    (∃ com, readComponent (some root) i = .ok com) ↔ ReadableComponent element := by
  have hget : ∀ key value,
      getArrayValueInFirstObject (some root) (lit "Component") i key = .ok value ↔
      element.text? key = some value := by
    intro key value
    rw [getArrayValueInFirstObject_eq h, hi, Option.bind_some, stringOfPointer_ok_iff]
  constructor
  · rintro ⟨com, hcom⟩
    obtain ⟨id, hid, hcom⟩ := bind_ok_iff.mp hcom
    obtain ⟨name, hname, hcom⟩ := bind_ok_iff.mp hcom
    obtain ⟨group, hgroup, hcom⟩ := bind_ok_iff.mp hcom
    obtain ⟨type, htype, hcom⟩ := bind_ok_iff.mp hcom
    refine ⟨⟨id, (hget _ _).mp hid⟩, ⟨name, (hget _ _).mp hname⟩, ⟨group, (hget _ _).mp hgroup⟩,
      type, (hget _ _).mp htype, fun hcontent => ?_⟩
    dsimp only at hcom
    rw [if_pos (readComType_eq_content_iff.mpr hcontent)] at hcom
    obtain ⟨readFrequency, hfrequency, hcom⟩ := bind_ok_iff.mp hcom
    obtain ⟨n, hn, -⟩ := bind_ok_iff.mp hcom
    exact ⟨readFrequency, n, (hget _ _).mp hfrequency, hn⟩
  · rintro ⟨⟨id, hid⟩, ⟨name, hname⟩, ⟨group, hgroup⟩, type, htype, hcontent⟩
    rw [readComponent, (hget _ _).mpr hid, ok_bind, (hget _ _).mpr hname, ok_bind,
      (hget _ _).mpr hgroup, ok_bind, (hget _ _).mpr htype, ok_bind]
    dsimp only
    split
    · rename_i hread
      obtain ⟨readFrequency, n, hfrequency, hn⟩ := hcontent (readComType_eq_content_iff.mp hread)
      rw [(hget _ _).mpr hfrequency, ok_bind, hn, ok_bind]
      exact ⟨_, rfl⟩
    · exact ⟨_, rfl⟩

theorem readComponents_ok_iff (h : root.firstGet (lit "Component") = some (.array elements))
    {comCount i : Nat} (hlen : i + comCount ≤ elements.length) :
    (∃ component, readComponents (some root) comCount i = .ok component) ↔
      ∀ element ∈ (elements.drop i).take comCount, ReadableComponent element := by
  induction comCount generalizing i with
  | zero => simp [readComponents]
  | succ comCount ih =>
      have hlt : i < elements.length := by omega
      rw [List.drop_eq_getElem_cons hlt, List.take_succ_cons, List.forall_mem_cons,
        ← readComponent_ok_iff h (List.getElem?_eq_getElem hlt), ← ih (by omega)]
      constructor
      · rintro ⟨component, hread⟩
        obtain ⟨com, hcom, hread⟩ := bind_ok_iff.mp hread
        obtain ⟨later, hlater, -⟩ := bind_ok_iff.mp hread
        exact ⟨⟨com, hcom⟩, later, hlater⟩
      · rintro ⟨⟨com, hcom⟩, later, hlater⟩
        rw [readComponents, hcom, ok_bind, hlater, ok_bind]
        exact ⟨_, rfl⟩

/-- The loop over the components of a message. -/
theorem component_loop_ok_iff {description : Json} (hfirst : root.firstObject = some description) :
    (∃ comCount component,
        getArrayLengthInFirstObject (some root) (lit "Component") = .ok comCount ∧
        readComponents (some root) comCount.toNat 0 = .ok component) ↔
      ∀ element ∈ description.components, ReadableComponent element := by
  have hget : root.firstGet (lit "Component") = description.objectGet (lit "Component") := by
    rw [JsonRoot.firstGet, hfirst, Option.bind_some]
  obtain ⟨rootName, hkey, -⟩ := Option.bind_eq_some_iff.mp hfirst
  by_cases harray : ∃ elements, root.firstGet (lit "Component") = some (.array elements)
  · obtain ⟨elements, harray⟩ := harray
    have hcomponents :
        description.components = (elements.drop 0).take (toInt elements.length).toNat := by
      rw [components, ← hget, harray]
      rfl
    have hle := toInt_le elements.length
    rw [hcomponents, ← readComponents_ok_iff harray (by omega),
      getArrayLengthInFirstObject_eq harray]
    constructor
    · rintro ⟨comCount, component, hcount, hread⟩
      obtain rfl := Except.ok.inj hcount
      exact ⟨component, hread⟩
    · rintro ⟨component, hread⟩
      exact ⟨_, component, rfl, hread⟩
  · have hne : ∀ elements, root.firstGet (lit "Component") ≠ some (.array elements) :=
      fun elements h => harray ⟨elements, h⟩
    have hcomponents : description.components = [] := by
      unfold components
      split
      · rename_i elements h
        exact absurd (hget.trans h) (hne elements)
      · rfl
    rw [hcomponents, getArrayLengthInFirstObject_of_ne hkey hne]
    exact iff_of_true ⟨0, [], rfl, rfl⟩ (by simp)

/-! ### Descriptions -/

/-- What a description that is read tells about the device. -/
structure Described (J : Jansson) (desc : Text) (device device' : IoTDevice) : Prop where
  deviceID : getValueInFirstObject (loadJsonData J desc) (lit "DeviceID") = .ok device'.deviceID
  deviceName :
    getValueInFirstObject (loadJsonData J desc) (lit "DeviceName") = .ok device'.deviceName
  functionGroup :
    getValueInFirstObject (loadJsonData J desc) (lit "FunctionGroup") = .ok device'.functionGroup
  components : ∃ comCount component,
    getArrayLengthInFirstObject (loadJsonData J desc) (lit "Component") = .ok comCount ∧
      readComponents (loadJsonData J desc) comCount.toNat 0 = .ok component
  iotIP : device'.iotIP = device.iotIP

theorem setJSDescription_described {desc : Text} {device device' : IoTDevice}
    (h : setJSDescription J desc device = .ok device') : Described J desc device device' := by
  obtain ⟨deviceID, hid, h⟩ := bind_ok_iff.mp h
  obtain ⟨deviceName, hname, h⟩ := bind_ok_iff.mp h
  obtain ⟨functionGroup, hgroup, h⟩ := bind_ok_iff.mp h
  obtain ⟨comCount, hcount, h⟩ := bind_ok_iff.mp h
  obtain ⟨component, hcomponent, h⟩ := bind_ok_iff.mp h
  obtain rfl := Except.ok.inj h
  exact ⟨hid, hname, hgroup, ⟨comCount, component, hcount, hcomponent⟩, rfl⟩

/-- **What one uploader gets past**, and with which device ID. -/
theorem setJSDescription_ok_iff {desc deviceID : Text} (hload : loadJsonData J desc = some root)
    (device : IoTDevice) :
    (∃ device', setJSDescription J desc device = .ok device' ∧ device'.deviceID = deviceID) ↔
      ∃ description, root.firstObject = some description ∧ description.Describes deviceID := by
  constructor
  · rintro ⟨device', h, rfl⟩
    have hdescribed := setJSDescription_described h
    have hid := hdescribed.deviceID
    have hname := hdescribed.deviceName
    have hgroup := hdescribed.functionGroup
    have hcomponents := hdescribed.components
    rw [hload] at hid hname hgroup hcomponents
    obtain ⟨description, hfirst, hid⟩ :=
      Option.bind_eq_some_iff.mp (getValueInFirstObject_ok_iff.mp hid)
    have htext : ∀ {key value : Text}, getValueInFirstObject (some root) key = .ok value →
        description.text? key = some value := by
      intro key value hvalue
      rw [getValueInFirstObject_ok_iff, JsonRoot.firstText?, hfirst] at hvalue
      exact hvalue
    exact ⟨description, hfirst, hid, ⟨_, htext hname⟩, ⟨_, htext hgroup⟩,
      (component_loop_ok_iff hfirst).mp hcomponents⟩
  · rintro ⟨description, hfirst, hid, ⟨deviceName, hname⟩, ⟨functionGroup, hgroup⟩, hcomponents⟩
    have hget : ∀ {key value : Text}, description.text? key = some value →
        getValueInFirstObject (some root) key = .ok value := by
      intro key value hvalue
      rw [getValueInFirstObject_ok_iff, JsonRoot.firstText?, hfirst]
      exact hvalue
    obtain ⟨comCount, component, hcount, hcomponent⟩ :=
      (component_loop_ok_iff hfirst).mpr hcomponents
    unfold setJSDescription
    rw [hload]
    dsimp only
    rw [hget hid, ok_bind, hget hname, ok_bind, hget hgroup, ok_bind, hcount, ok_bind, hcomponent,
      ok_bind]
    exact ⟨_, rfl, rfl⟩

/-- **What the manager stores**, an uploader can load, with the same device ID, exactly when
the member it starts with describes the device; and every uploader can exactly when all
members do. -/
theorem setJSDescription_iff (hJ : J.RereadBy J) {payload iotip : Text} {socketIndex : Nat}
    {m m' : IoTManager} {done : List Effect} {deviceInfo : IoTDeviceInfo}
    (hload : loadJsonData J payload = some root)
    (hadd : IoTManager.addNewDevice J iotip root socketIndex m = .ok (m', done))
    (hstored : .registered deviceInfo ∈ done)
    (hlength : deviceInfo.deviceDescription.length < 2 ^ 31) (device : IoTDevice) :
    (∀ J', J.RereadBy J' → ∃ root', loadJsonData J' deviceInfo.deviceDescription = some root' ∧
      root'.value = root.value ∧
      ((∃ device', setJSDescription J' deviceInfo.deviceDescription device = .ok device' ∧
          device'.deviceID = deviceInfo.deviceID) ↔
        ∃ description, root'.firstObject = some description ∧
          description.Describes deviceInfo.deviceID)) ∧
    ((∀ J', J.RereadBy J' →
        ∃ device', setJSDescription J' deviceInfo.deviceDescription device = .ok device' ∧
          device'.deviceID = deviceInfo.deviceID) ↔
      ∀ key ∈ root.value.keys, ∃ description, root.value.objectGet key = some description ∧
        description.Describes deviceInfo.deviceID) := by
  obtain ⟨deviceInfo', hregisters, rfl⟩ := IoTManager.addNewDevice_registers hadd
  obtain rfl : deviceInfo = deviceInfo' := by simpa using hstored
  -- The description reads back as the message it was made from.
  have hreread : ∀ J', J.RereadBy J' → ∃ root',
      loadJsonData J' deviceInfo.deviceDescription = some root' ∧ root'.value = root.value := by
    intro J' hJ'
    obtain ⟨desc, hdesc, hback⟩ := hJ' _ _ hload
    obtain rfl : desc = deviceInfo.deviceDescription :=
      Option.some.inj (hdesc.symm.trans hregisters.description)
    exact hback hlength
  refine ⟨fun J' hJ' => ?_, ?_, ?_⟩
  · obtain ⟨root', hback, hvalue⟩ := hreread J' hJ'
    exact ⟨root', hback, hvalue, setJSDescription_ok_iff hback device⟩
  · intro hall key hkey
    obtain ⟨root', hback, hvalue⟩ := hreread (J.startingAt key) (hJ.startingAt key)
    obtain ⟨read, hread, rfl⟩ := Option.map_eq_some_iff.mp hback
    rw [JsonRoot.value_startAt] at hvalue
    obtain ⟨description, hfirst, hdescribes⟩ :=
      (setJSDescription_ok_iff hback device).mp (hall _ (hJ.startingAt key))
    rw [JsonRoot.firstObject, JsonRoot.firstKey_startAt (by rwa [hvalue]), Option.bind_some,
      JsonRoot.value_startAt, hvalue] at hfirst
    exact ⟨description, hfirst, hdescribes⟩
  · intro hall J' hJ'
    obtain ⟨root', hback, hvalue⟩ := hreread J' hJ'
    refine (setJSDescription_ok_iff hback device).mpr ?_
    -- The message has a member, so iteration starts with one.
    obtain ⟨first, hfirst, -⟩ := Option.bind_eq_some_iff.mp
      (getValueInFirstObject_ok_iff.mp hregisters.deviceID)
    obtain ⟨rootName, hrootName, -⟩ := Option.bind_eq_some_iff.mp hfirst
    have hmember := root.firstKey_mem rootName hrootName
    cases hkey : root'.firstKey with
    | none =>
        rw [← hvalue, root'.keys_eq_nil hkey] at hmember
        cases hmember
    | some key =>
        obtain ⟨description, hget, hdescribes⟩ :=
          hall key (hvalue ▸ root'.firstKey_mem key hkey)
        refine ⟨description, ?_, hdescribes⟩
        rw [JsonRoot.firstObject, hkey, Option.bind_some, hvalue, hget]

end IoTDevice

/-! ### A lamp with a name, and one without -/

/-- The library of the examples reads what it has written. -/
theorem rereadBy_jansson {messages : List JsonRoot}
    (h : ∀ message ∈ messages, ∀ desc, dumpStrings message.value = some desc →
      cStr desc = desc) : (jansson messages).RereadBy (jansson messages) := by
  intro text root hload
  have hdumps : dumpStrings root.value = some text := by simpa using List.find?_some hload
  refine ⟨text, hdumps, fun _ => ⟨root, ?_, rfl⟩⟩
  rw [h root (List.mem_of_find?_eq_some hload) text hdumps]
  exact hload

/-- A device's message with a name. -/
def lampMessage : JsonRoot :=
  .object [(lit "IOTDEV",
    .object [(lit "DeviceID", .string (lit "L")), (lit "DeviceName", .string (lit "Lamp")),
      (lit "FunctionGroup", .string (lit "UI"))])]

def lampJansson : Jansson := jansson [lampMessage, deviceMessage (lit "A")]

theorem rereadBy_lampJansson : lampJansson.RereadBy lampJansson := by
  refine rereadBy_jansson fun message hmessage desc hdesc => ?_
  simp only [List.mem_cons, List.not_mem_nil, or_false] at hmessage
  rcases hmessage with rfl | rfl
  · obtain rfl := Option.some.inj hdesc
    decide +kernel
  · obtain rfl := Option.some.inj hdesc
    decide +kernel

/-- What the manager does with a message on its empty list. -/
def registeredOf (message : JsonRoot) : Except Fault (List Effect) := do
  let (_, done) ← IoTManager.addNewDevice lampJansson (lit "DEV.0") message 0
    (ManagerState.initial 1 1000).manager
  return done

/-- The entry of a message. -/
def storedDevice (deviceID : Text) (message : JsonRoot) : IoTDeviceInfo :=
  ⟨lit "DEV.0", lit "UI", deviceID, (dumpStrings message.value).getD [], 0⟩

theorem setJSDescription_lamp : lampJansson.RereadBy lampJansson ∧
    ∀ J', lampJansson.RereadBy J' → ∃ device',
      IoTDevice.setJSDescription J' (storedDevice (lit "L") lampMessage).deviceDescription {}
        = .ok device' ∧ device'.deviceID = lit "L" := by
  obtain ⟨⟨m', done⟩, hadd, hdone⟩ := bind_ok_iff.mp
    (show registeredOf lampMessage = .ok [.registered (storedDevice (lit "L") lampMessage)] by
      decide +kernel)
  obtain rfl := Except.ok.inj hdone
  have hload : loadJsonData lampJansson ((dumpStrings lampMessage.value).getD [])
      = some lampMessage := rfl
  refine ⟨rereadBy_lampJansson, (IoTDevice.setJSDescription_iff rereadBy_lampJansson hload hadd
    (List.mem_singleton_self _) (by decide) {}).2.mpr fun key hkey => ?_⟩
  obtain rfl : key = lit "IOTDEV" := List.mem_singleton.mp hkey
  exact ⟨_, rfl, rfl, ⟨_, rfl⟩, ⟨_, rfl⟩, List.forall_mem_nil _⟩

/-- A device without a name is stored, and its description raises. -/
theorem not_setJSDescription_unnamed :
    registeredOf (deviceMessage (lit "A"))
        = .ok [.registered (storedDevice (lit "A") (deviceMessage (lit "A")))] ∧
      IoTDevice.setJSDescription lampJansson
        (storedDevice (lit "A") (deviceMessage (lit "A"))).deviceDescription {}
        = .error .logicError := by
  exact ⟨by decide +kernel, by decide +kernel⟩

end IoTRepublic
