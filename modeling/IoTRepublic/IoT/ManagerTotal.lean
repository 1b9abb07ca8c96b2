import IoTRepublic.IoT.MessageSound
import IoTRepublic.IoT.Registration
import IoTRepublic.IoT.StaleRules

/-!
# IoTRepublic.IoT.ManagerTotal

Which payloads the manager gets past.

The handlers read a payload string by string and raise at the first that is not
there. `Harmless` says what has to be there, kind by kind, and what else a complete
message may run into: a reply that is too large, a frequency that is no `int`, a
counter at its end. `handled_iff` is for every payload in every reachable state.

The handlers build what they send before they send it, and an `int` counts the bytes, so a
message can be complete and still raise: the device list may be too long for a package, or
the value too long for the rule it is for. Each handler has one equivalence here
(`returns_…_iff`), and the theorem about runs adds only that the slots are there and that
the ids of the rules are below their counter.
-/

namespace IoTRepublic

open Cpp JsonUtility IoTUtility Transition

/-! ### Messages -/

/-- The strings a message of a kind is read for. -/
def requiredKeys (rootName : Text) : List Text :=
  if rootName = lit "IOTDEV" then [lit "DeviceID", lit "FunctionGroup"]
  else if rootName = lit "IOTCMD" then [lit "ID", lit "Value", lit "Type"]
  else if rootName = lit "IOTRUL" then
    [lit "Type", lit "Name", lit "ReadFrom", lit "ReadID", lit "ReadValue", lit "WriteTo",
      lit "WriteID", lit "WriteValue", lit "WriteRul", lit "ActionFrequency"]
  else []

/-- The payload is a device, a command or a rule, with everything it is read for. -/
def CompleteMessage (J : Jansson) (payload : Text) : Prop :=
  ∃ root rootName, loadJsonData J payload = some root ∧ root.firstKey = some rootName ∧
    rootName ∈ [lit "IOTDEV", lit "IOTCMD", lit "IOTRUL"] ∧ root.HasTexts (requiredKeys rootName)

/-- The command that answers a rule's read, as it is sent on. -/
def responseText (J : Jansson) (id value : Text) : Text :=
  match loadJsonData J IoTCommand.templete with
  | none => []
  | some root =>
    let root := setValueInFirstObject J root (lit "Type") CommandType.readResponse.text
    let root := setValueInFirstObject J root (lit "ID") id
    let root := setValueInFirstObject J root (lit "Value") value
    (J.dumps root.value).getD []

namespace IoTCommand

variable {J : Jansson} {root : JsonRoot} {content : Text}

/-- A command made for a rule carries the text. -/
theorem ofValues_readResponse (hJ : J.Prints) (id value : Text) :
    ofValues J .readResponse id value
      = .ok ⟨some .readResponse, id, value, responseText J id value⟩ := by
  unfold ofValues responseText
  cases hload : loadJsonData J templete with
  | none => rfl
  | some root =>
      obtain ⟨desc, hdesc⟩ := hJ _ (((Jansson.Built.loaded hload).set (lit "Type")
        CommandType.readResponse.text).set (lit "ID") id |>.set (lit "Value") value)
      dsimp only
      rw [exportJsonContent_ok_iff.mpr hdesc, ok_bind, hdesc]
      rfl

/-- What a command is read for: with the three texts there, everything depends on what is
done with them. -/
theorem returns_ofContent_bind_iff {α : Type} {f : IoTCommand → Except Fault α}
    (hload : loadJsonData J content = some root) (hkey : root.firstKey = some (lit "IOTCMD")) :
    Returns (ofContent J content >>= f) ↔ ∃ id value type,
      (root.firstText? (lit "ID") = some id ∧ root.firstText? (lit "Value") = some value ∧
        root.firstText? (lit "Type") = some type) ∧
      Returns (f ⟨readType type, id, value, content⟩) := by
  have hread : ∀ cmd, ofContent J content = .ok cmd → ∃ id value type,
      (root.firstText? (lit "ID") = some id ∧ root.firstText? (lit "Value") = some value ∧
        root.firstText? (lit "Type") = some type) ∧ cmd = ⟨readType type, id, value, content⟩ := by
    intro cmd h
    unfold ofContent at h
    dsimp only at h
    rw [hload, getFirstKeyName_ok_iff.mpr hkey, ok_bind, if_pos rfl] at h
    obtain ⟨id, hid, h⟩ := bind_ok_iff.mp h
    obtain ⟨value, hvalue, h⟩ := bind_ok_iff.mp h
    obtain ⟨type, htype, h⟩ := bind_ok_iff.mp h
    exact ⟨id, value, type, ⟨getValueInFirstObject_ok_iff.mp hid,
      getValueInFirstObject_ok_iff.mp hvalue, getValueInFirstObject_ok_iff.mp htype⟩,
      (Except.ok.inj h).symm⟩
  rw [returns_bind_iff]
  constructor
  · rintro ⟨cmd, hcmd, hf⟩
    obtain ⟨id, value, type, htexts, rfl⟩ := hread cmd hcmd
    exact ⟨id, value, type, htexts, hf⟩
  · rintro ⟨id, value, type, ⟨hid, hvalue, htype⟩, hf⟩
    exact ⟨_, ofContent_eq hload hkey hid hvalue htype, hf⟩

end IoTCommand

/-- What a rule is read for, and that its frequency is an `int`. -/
theorem IoTRule.returns_ofContent_iff {J : Jansson} {root : JsonRoot} {jsonContent : Text}
    (hload : loadJsonData J jsonContent = some root) :
    Returns (IoTRule.ofContent J jsonContent) ↔
      root.HasTexts (requiredKeys (lit "IOTRUL")) ∧
        ∀ frequency, root.firstText? (lit "ActionFrequency") = some frequency →
          Returns (atoi (cStr frequency)) := by
  have hkeys : requiredKeys (lit "IOTRUL") = [lit "Type", lit "Name", lit "ReadFrom",
      lit "ReadID", lit "ReadValue", lit "WriteTo", lit "WriteID", lit "WriteValue",
      lit "WriteRul", lit "ActionFrequency"] := rfl
  unfold IoTRule.ofContent
  rw [hload, hkeys, JsonRoot.HasTexts]
  simp only [returns_getValue_bind_iff, List.forall_mem_cons, Option.isSome_iff_exists]
  constructor
  · rintro ⟨type, htype, name, hname, readFrom, hreadFrom, readID, hreadID, readValue, hreadValue,
      writeTo, hwriteTo, writeID, hwriteID, writeValue, hwriteValue, writeRul, hwriteRul,
      frequency, hfrequency, hreturns⟩
    refine ⟨⟨⟨_, htype⟩, ⟨_, hname⟩, ⟨_, hreadFrom⟩, ⟨_, hreadID⟩, ⟨_, hreadValue⟩, ⟨_, hwriteTo⟩,
      ⟨_, hwriteID⟩, ⟨_, hwriteValue⟩, ⟨_, hwriteRul⟩, ⟨_, hfrequency⟩, by simp⟩, ?_⟩
    intro frequency' hfrequency'
    obtain rfl := Option.some.inj (hfrequency.symm.trans hfrequency')
    obtain ⟨n, hn, -⟩ := returns_bind_iff.mp hreturns
    exact ⟨n, hn⟩
  · rintro ⟨⟨⟨type, htype⟩, ⟨name, hname⟩, ⟨readFrom, hreadFrom⟩, ⟨readID, hreadID⟩,
      ⟨readValue, hreadValue⟩, ⟨writeTo, hwriteTo⟩, ⟨writeID, hwriteID⟩, ⟨writeValue, hwriteValue⟩,
      ⟨writeRul, hwriteRul⟩, ⟨frequency, hfrequency⟩, -⟩, hatoi⟩
    obtain ⟨n, hn⟩ := hatoi frequency hfrequency
    exact ⟨type, htype, name, hname, readFrom, hreadFrom, readID, hreadID, readValue, hreadValue,
      writeTo, hwriteTo, writeID, hwriteID, writeValue, hwriteValue, writeRul, hwriteRul,
      frequency, hfrequency, returns_bind_iff.mpr ⟨n, hn, returns_ok _⟩⟩

/-! ### Replies -/

/-- The device list fits a package for the address. -/
def ListFits (sorIp : Text) (devices : List IoTDeviceInfo) : Prop :=
  IoTManager.Reservable devices ∧
    IoTPackage.Packable IoTPackage.protocolVersion IoTManager.serverIoTIP sorIp
      ((visible devices).flatMap IoTManager.deviceBytes)

/-- The value fits a package for the device the rule writes, if it writes one. -/
def ValueFits (J : Jansson) (rule : IoTRule) (value : Text) : Prop :=
  0 < rule.writeTo.length →
    IoTPackage.Packable IoTPackage.protocolVersion rule.readFrom rule.writeTo
        (responseText J rule.writeID value) ∧
      0 ≤ toInt (responseText J rule.writeID value).length

/-- What a command makes the manager send fits a package. -/
def ReplyFits (J : Jansson) (sorIp : Text) (m : IoTManager) (id value : Text) : Prop :=
  if id = lit "Dis_All" ∨ id = lit "Dis_NPx" then ListFits sorIp m.registedDevices
  else ∀ r, m.ruler.rules.find? (fun r => r.isWaitingResponse ∧ r.rule.readID = id) = some r →
    ValueFits J r.rule value

/-- The manager gets past the message: the texts it reads are there, numbers fit their
types, and what is sent in reply fits a package. -/
structure HarmlessMessage (J : Jansson) (sorIp : Text) (m : IoTManager) (root : JsonRoot)
    (rootName : Text) : Prop where
  named : root.firstKey = some rootName
  complete : root.HasTexts (requiredKeys rootName)
  reply : rootName = lit "IOTCMD" → ∀ id value, root.firstText? (lit "ID") = some id →
    root.firstText? (lit "Value") = some value → ReplyFits J sorIp m id value
  frequency : rootName = lit "IOTRUL" → ∀ text,
    root.firstText? (lit "ActionFrequency") = some text → ∀ n, strtol (cStr text) = some n → InInt n
  counter : rootName = lit "IOTRUL" → InInt (m.ruler.nextRuleId + 1)

/-- The manager gets past the payload: it is no JSON, or a message that has what it is
read for and makes nothing too large. -/
def Harmless (J : Jansson) (sorIp payload : Text) (m : IoTManager) : Prop :=
  ∀ root, loadJsonData J payload = some root → ∃ rootName, HarmlessMessage J sorIp m root rootName

namespace IoTManager

variable {J : Jansson} {server : TcpServer} {socketIndex : Nat} {package : IoTPackage}
  {m : IoTManager}

section Replies

variable (hdevices : ∀ device ∈ m.registedDevices,
  device.socketIndex < server.clientSockets.length)

include hdevices

theorem returns_sendToDevice (iotIp : Text) {buffer : List Byte} (hbuffer : buffer ≠ []) :
    Returns (sendToDevice server iotIp buffer m) := by
  unfold sendToDevice
  split
  · exact returns_ok _
  · rename_i targetIndex hfind
    obtain ⟨device, hdevice, -⟩ := getElem?_of_findDeviceIndexByIoTIp hfind
    have hmem := List.mem_of_getElem? hdevice
    obtain ⟨socket, hsocket⟩ := returns_sendDataToExistsConnection (hdevices device hmem) hbuffer
    exact returns_bind_iff.mpr ⟨device, vectorAt_nat_ok_iff.mpr hdevice,
      returns_bind_iff.mpr ⟨socket, hsocket, returns_ok _⟩⟩

theorem returns_excuteWriteRule_iff (hJ : J.Prints) (r : RuleInstance) (value : Text) :
    Returns (excuteWriteRule J server m r value) ↔ ValueFits J r.rule value := by
  unfold excuteWriteRule ValueFits
  by_cases hto : 0 < r.rule.writeTo.length
  · rw [if_pos hto, IoTCommand.ofValues_readResponse hJ, ok_bind, forall_prop_of_true hto,
      ← IoTPackage.returns_ofString_iff]
    refine returns_bind_iff_left fun p hp => ?_
    obtain ⟨sent, hsent⟩ := returns_sendToDevice hdevices r.rule.writeTo
      (IoTPackage.dataVectorForSending_ne_nil (IoTPackage.ofString_ok_iff.mp hp).1)
    exact returns_bind_iff.mpr ⟨sent, hsent, returns_ok _⟩
  · rw [if_neg hto]
    exact iff_of_true (returns_ok _) fun h => absurd h hto

end Replies

/-! ### Handlers -/

variable {root : JsonRoot}

theorem returns_addNewDevice_iff (hJ : J.Prints) (hids : RuleIds m.ruler)
    (hload : loadJsonData J package.dataVector = some root) (iotip : Text) :
    Returns (addNewDevice J iotip root socketIndex m) ↔
      root.HasTexts (requiredKeys (lit "IOTDEV")) := by
  have hkeys : requiredKeys (lit "IOTDEV") = [lit "DeviceID", lit "FunctionGroup"] := rfl
  rw [hkeys, JsonRoot.HasTexts]
  simp only [List.forall_mem_cons, Option.isSome_iff_exists]
  constructor
  · rintro ⟨⟨m', done⟩, h⟩
    obtain ⟨device, hregisters, -⟩ := addNewDevice_registers h
    exact ⟨⟨_, getValueInFirstObject_ok_iff.mp hregisters.deviceID⟩,
      ⟨_, getValueInFirstObject_ok_iff.mp hregisters.functionGroup⟩, by simp⟩
  · rintro ⟨⟨deviceID, hid⟩, ⟨functionGroup, hgroup⟩, -⟩
    obtain ⟨desc, hdesc⟩ := hJ root (.loaded hload)
    have hregisters : Registers J root iotip socketIndex
        ⟨iotip, functionGroup, deviceID, desc, socketIndex⟩ :=
      ⟨rfl, rfl, getValueInFirstObject_ok_iff.mpr hid, getValueInFirstObject_ok_iff.mpr hgroup,
        hdesc⟩
    exact ⟨_, addNewDevice_eq hids hregisters⟩

/-- The manager's own method adds nothing that could raise. -/
theorem returns_handleRulePackage_iff :
    Returns (handleRulePackage J server package m) ↔
      Returns (Ruler.handleRulePackage J (excuteWriteRule J server m) package m.ruler) :=
  returns_bind_iff_left fun _ _ => returns_ok _

theorem returns_rule_iff (hload : loadJsonData J package.dataVector = some root)
    (hkey : root.firstKey = some (lit "IOTRUL")) :
    Returns (handleRulePackage J server package m) ↔
      root.HasTexts (requiredKeys (lit "IOTRUL")) ∧
        (∀ frequency, root.firstText? (lit "ActionFrequency") = some frequency →
          Returns (atoi (cStr frequency))) ∧
        InInt (m.ruler.nextRuleId + 1) := by
  rw [returns_handleRulePackage_iff, ← and_assoc, ← IoTRule.returns_ofContent_iff hload]
  unfold Ruler.handleRulePackage
  rw [hload]
  dsimp only
  rw [getFirstKeyName_ok_iff.mpr hkey, ok_bind, if_pos rfl, returns_bind_iff]
  have hadd : ∀ rule, Returns (Ruler.addRule rule m.ruler >>= fun ruler =>
      (.ok (ruler, []) : Except Fault (Ruler × List Effect))) ↔
        InInt (m.ruler.nextRuleId + 1) := fun rule =>
    (returns_bind_iff_left fun _ _ => returns_ok _).trans Ruler.returns_addRule_iff
  constructor
  · rintro ⟨rule, hrule, hreturns⟩
    exact ⟨⟨rule, hrule⟩, (hadd rule).mp hreturns⟩
  · rintro ⟨⟨rule, hrule⟩, hcounter⟩
    exact ⟨rule, hrule, (hadd rule).mpr hcounter⟩

section Commands

variable (hdevices : ∀ device ∈ m.registedDevices,
  device.socketIndex < server.clientSockets.length)

include hdevices

theorem returns_rulerCommand_iff (hJ : J.Prints) {cmd : IoTCommand}
    (hload : loadJsonData J package.dataVector = some root)
    (hkey : root.firstKey = some (lit "IOTCMD"))
    (hcmd : IoTCommand.ofContent J package.dataVector = .ok cmd) :
    Returns (handleRulePackage J server package m) ↔
      ∀ r, m.ruler.rules.find? (fun r => r.isWaitingResponse ∧ r.rule.readID = cmd.id) = some r →
        ValueFits J r.rule cmd.value := by
  have hrules : Returns (Ruler.handleRulerCommand (excuteWriteRule J server m) cmd m.ruler.rules) ↔
      ∀ r, m.ruler.rules.find? (fun r => r.isWaitingResponse ∧ r.rule.readID = cmd.id) = some r →
        ValueFits J r.rule cmd.value := by
    rw [Ruler.returns_handleRulerCommand_iff]
    exact forall_congr' fun r => imp_congr_right fun _ =>
      returns_excuteWriteRule_iff hdevices hJ _ cmd.value
  rw [returns_handleRulePackage_iff, ← hrules]
  unfold Ruler.handleRulePackage
  rw [hload]
  dsimp only
  rw [getFirstKeyName_ok_iff.mpr hkey, ok_bind, if_neg (by decide), if_pos rfl, hcmd, ok_bind]
  exact returns_bind_iff_left fun _ _ => returns_ok _

theorem returns_commandHandler_iff (hJ : J.Prints)
    (hslot : socketIndex < server.clientSockets.length) {cmd : IoTCommand}
    (hload : loadJsonData J package.dataVector = some root)
    (hkey : root.firstKey = some (lit "IOTCMD"))
    (hcmd : IoTCommand.ofContent J package.dataVector = .ok cmd) :
    Returns (commandHandler J server socketIndex cmd package m) ↔
      ReplyFits J package.sorIp m cmd.id cmd.value := by
  unfold commandHandler ReplyFits
  split
  · rw [ListFits, ← IoTPackage.returns_ofVector_iff, returns_bind_iff]
    constructor
    · rintro ⟨buffer, hbuffer, h⟩
      obtain ⟨hcount, rfl⟩ := encodeAllRegistedDevices_ok_iff.mp hbuffer
      obtain ⟨sendPackage, hpackage, -⟩ := returns_bind_iff.mp h
      exact ⟨hcount, sendPackage, hpackage⟩
    · rintro ⟨hcount, sendPackage, hpackage⟩
      obtain ⟨socket, hsocket⟩ := returns_sendDataToExistsConnection hslot
        (IoTPackage.dataVectorForSending_ne_nil hpackage)
      exact ⟨_, encodeAllRegistedDevices_ok_iff.mpr ⟨hcount, rfl⟩,
        returns_bind_iff.mpr ⟨sendPackage, hpackage,
          returns_bind_iff.mpr ⟨socket, hsocket, returns_ok _⟩⟩⟩
  · exact returns_rulerCommand_iff hdevices hJ hload hkey hcmd

theorem returns_command_iff (hJ : J.Prints) (hslot : socketIndex < server.clientSockets.length)
    (hload : loadJsonData J package.dataVector = some root)
    (hkey : root.firstKey = some (lit "IOTCMD")) :
    Returns (IoTCommand.ofContent J package.dataVector >>= fun cmd =>
        commandHandler J server socketIndex cmd package m) ↔
      HarmlessMessage J package.sorIp m root (lit "IOTCMD") := by
  have hkeys : requiredKeys (lit "IOTCMD") = [lit "ID", lit "Value", lit "Type"] := rfl
  have hrule : lit "IOTCMD" ≠ lit "IOTRUL" := by decide
  have hreply : ∀ {id value type : Text}, root.firstText? (lit "ID") = some id →
      root.firstText? (lit "Value") = some value → root.firstText? (lit "Type") = some type →
      (Returns (commandHandler J server socketIndex
          ⟨IoTCommand.readType type, id, value, package.dataVector⟩ package m) ↔
        ReplyFits J package.sorIp m id value) := fun hid hvalue htype =>
    returns_commandHandler_iff hdevices hJ hslot hload hkey
      (IoTCommand.ofContent_eq hload hkey hid hvalue htype)
  rw [IoTCommand.returns_ofContent_bind_iff hload hkey]
  constructor
  · rintro ⟨id, value, type, ⟨hid, hvalue, htype⟩, hreturns⟩
    refine ⟨hkey, ?_, fun _ id' value' hid' hvalue' => ?_, (absurd · hrule), (absurd · hrule)⟩
    · simp [hkeys, JsonRoot.HasTexts, hid, hvalue, htype]
    · obtain rfl := Option.some.inj (hid.symm.trans hid')
      obtain rfl := Option.some.inj (hvalue.symm.trans hvalue')
      exact (hreply hid hvalue htype).mp hreturns
  · intro h
    have hcomplete := h.complete
    simp only [hkeys, JsonRoot.HasTexts, List.forall_mem_cons, Option.isSome_iff_exists]
      at hcomplete
    obtain ⟨⟨id, hid⟩, ⟨value, hvalue⟩, ⟨type, htype⟩, -⟩ := hcomplete
    exact ⟨id, value, type, ⟨hid, hvalue, htype⟩,
      (hreply hid hvalue htype).mpr (h.reply rfl id value hid hvalue)⟩

/-- **When the manager gets past a payload.** -/
theorem returns_handleManagerPackage_iff (hJ : J.Prints) (hids : RuleIds m.ruler)
    (hslot : socketIndex < server.clientSockets.length) :
    Returns (handleManagerPackage J server socketIndex package m) ↔
      Harmless J package.sorIp package.dataVector m := by
  unfold handleManagerPackage Harmless
  cases hload : loadJsonData J package.dataVector with
  | none => simp
  | some root =>
      dsimp only
      rw [returns_bind_iff]
      simp only [Option.some.injEq, forall_eq', getFirstKeyName_ok_iff]
      refine exists_congr fun rootName => ?_
      by_cases hkey : root.firstKey = some rootName
      swap
      · exact iff_of_false (fun h => hkey h.1) fun h => hkey h.named
      rw [and_iff_right hkey]
      by_cases hdev : rootName = lit "IOTDEV"
      · subst hdev
        have hcommand : lit "IOTDEV" ≠ lit "IOTCMD" := by decide
        have hrule : lit "IOTDEV" ≠ lit "IOTRUL" := by decide
        rw [if_pos rfl, returns_addNewDevice_iff hJ hids hload]
        exact ⟨fun h => ⟨hkey, h, (absurd · hcommand), (absurd · hrule), (absurd · hrule)⟩,
          fun h => h.complete⟩
      by_cases hcommand : rootName = lit "IOTCMD"
      · subst hcommand
        rw [if_neg hdev, if_pos rfl]
        exact returns_command_iff hdevices hJ hslot hload hkey
      by_cases hrule : rootName = lit "IOTRUL"
      · subst hrule
        rw [if_neg hdev, if_neg hcommand, if_pos rfl, returns_rule_iff hload hkey]
        simp only [returns_atoi_iff]
        constructor
        · rintro ⟨hcomplete, hfrequency, hcounter⟩
          exact ⟨hkey, hcomplete, (absurd · hcommand), fun _ => hfrequency, fun _ => hcounter⟩
        · intro h
          exact ⟨h.complete, h.frequency rfl, h.counter rfl⟩
      · rw [if_neg hdev, if_neg hcommand, if_neg hrule]
        have hnone : requiredKeys rootName = [] := by
          rw [requiredKeys, if_neg hdev, if_neg hcommand, if_neg hrule]
        refine iff_of_true (returns_ok _)
          ⟨hkey, ?_, fun h => absurd h hcommand, fun h => absurd h hrule, fun h => absurd h hrule⟩
        rw [hnone]
        exact List.forall_mem_nil _

end Commands

/-- The package is handled; and a payload that is no complete message changes neither
the devices nor the rules. -/
def Handled (J : Jansson) (server : TcpServer) (socketIndex : Nat) (package : IoTPackage)
    (m : IoTManager) : Prop :=
  ∃ m' done, handleManagerPackage J server socketIndex package m = .ok (m', done) ∧
    (¬ CompleteMessage J package.dataVector →
      m'.registedDevices = m.registedDevices ∧ m'.ruler.rules = m.ruler.rules)

/-- A harmless payload that is no complete message is ignored. -/
theorem handleManagerPackage_ignores (h : Harmless J package.sorIp package.dataVector m)
    (hincomplete : ¬ CompleteMessage J package.dataVector) :
    handleManagerPackage J server socketIndex package m = .ok (m, []) := by
  unfold handleManagerPackage
  cases hload : loadJsonData J package.dataVector with
  | none => rfl
  | some root =>
      obtain ⟨rootName, hroot⟩ := h root hload
      have hname : rootName ∉ [lit "IOTDEV", lit "IOTCMD", lit "IOTRUL"] := fun hmem =>
        hincomplete ⟨root, rootName, hload, hroot.named, hmem, hroot.complete⟩
      simp only [List.mem_cons, List.not_mem_nil, or_false, not_or] at hname
      dsimp only
      rw [getFirstKeyName_ok_iff.mpr hroot.named, ok_bind, if_neg hname.1, if_neg hname.2.1,
        if_neg hname.2.2]
      rfl

end IoTManager

/-! ### Reachable states -/

/-- The event is one of a server with so many slots. -/
def ManagerEvent.Fits (maxClient : Nat) : ManagerEvent → Prop
  | scanned server => server.clientSockets.length = maxClient
  | arrived server socketIndex _ =>
    server.clientSockets.length = maxClient ∧ socketIndex < maxClient
  | denied socketIndex => socketIndex < maxClient

instance (maxClient : Nat) : (e : ManagerEvent) → Decidable (e.Fits maxClient)
  | .scanned _ => inferInstanceAs (Decidable (_ = _))
  | .arrived _ _ _ => inferInstanceAs (Decidable (_ ∧ _))
  | .denied _ => inferInstanceAs (Decidable (_ < _))

section Runs

variable {J : Jansson} {maxClient : Nat} {actionFrequency : Int} {es : List ManagerEvent}
  {s : ManagerState}

/-- Every device has a slot of the server, since it was registered by a package that came
in on one. -/
theorem slots_run
    (h : Run (fun s e s' => e.Fits maxClient ∧ ManagerEvent.step J s e = .ok s')
      (.initial maxClient actionFrequency) es s) :
    ∀ device ∈ s.manager.registedDevices, device.socketIndex < maxClient := by
  refine h.invariant (I := fun s => ∀ device ∈ s.manager.registedDevices,
    device.socketIndex < maxClient) (by simp [ManagerState.initial]) ?_
  rintro s e s' hs ⟨hfits, hstep⟩
  cases e with
  | scanned server =>
      rw [(scan_devices hstep).1]
      exact hs
  | arrived server socketIndex package =>
      exact dispatchPackage_forall_devices hstep hs fun _ _ _ hregisters =>
        hregisters.slot ▸ hfits.2
  | denied socketIndex =>
      obtain ⟨rules, -, rfl⟩ := ManagerState.eventConnectionDenied_cases hstep
      exact fun device hdevice =>
        hs device ((IoTManager.removeDeviceBySocketIndex_sublist _ _).subset hdevice)

/-- **The payloads the manager survives**, in every state of every run: exactly the
harmless ones. -/
theorem handled_iff (hJ : J.Prints)
    (h : Run (fun s e s' => e.Fits maxClient ∧ ManagerEvent.step J s e = .ok s')
      (.initial maxClient actionFrequency) es s)
    {server : TcpServer} (hserver : server.clientSockets.length = maxClient)
    {socketIndex : Nat} (hslot : socketIndex < maxClient) (package : IoTPackage) :
    IoTManager.Handled J server socketIndex package s.manager ↔
      Harmless J package.sorIp package.dataVector s.manager := by
  have hids : RuleIds s.manager.ruler := ruleIds_run (h.mono fun _ _ _ hlast => hlast.2)
  have hdevices : ∀ device ∈ s.manager.registedDevices,
      device.socketIndex < server.clientSockets.length := hserver ▸ slots_run h
  have hreturns : Returns (IoTManager.handleManagerPackage J server socketIndex package s.manager) ↔
      Harmless J package.sorIp package.dataVector s.manager :=
    IoTManager.returns_handleManagerPackage_iff hdevices hJ hids (hserver ▸ hslot)
  constructor
  · rintro ⟨m', done, hhandled, -⟩
    exact hreturns.mp ⟨(m', done), hhandled⟩
  · intro hharmless
    obtain ⟨⟨m', done⟩, hhandled⟩ := hreturns.mpr hharmless
    refine ⟨m', done, hhandled, fun hincomplete => ?_⟩
    rw [IoTManager.handleManagerPackage_ignores hharmless hincomplete] at hhandled
    obtain ⟨rfl, rfl⟩ := Prod.mk.inj (Except.ok.inj hhandled)
    exact ⟨rfl, rfl⟩

end Runs

/-! ### A value for a rule, and a device without a group -/

/-- The library of the examples prints what it has parsed. -/
theorem prints_jansson (messages : List JsonRoot) : (jansson messages).Prints := by
  have hshape : ∀ root, (jansson messages).Built root →
      ∃ key members, root.value = .object [(key, .object members)] := by
    intro root hroot
    induction hroot with
    | @loaded text root h =>
        have hdumps : dumpStrings root.value = some text := by simpa using List.find?_some h
        unfold dumpStrings at hdumps
        split at hdumps
        · exact ⟨_, _, ‹_›⟩
        · cases hdumps
    | @set root _ keyName value ih =>
        obtain ⟨key, members, hvalue⟩ := ih
        have hset : (setValueInFirstObject (jansson messages) root keyName value).value
            = updateFirst (setInObject (jansson messages) keyName value) root.firstKey root.value :=
          rfl
        rw [hset, hvalue]
        cases root.firstKey with
        | none => exact ⟨key, members, rfl⟩
        | some rootKey =>
            -- The one member is changed, or none is.
            by_cases hkey : key = rootKey
            · exact ⟨key, _, by rw [updateFirst, updateMember, if_pos hkey, setInObject]⟩
            · exact ⟨key, members, by rw [updateFirst, updateMember, if_neg hkey, updateMember]⟩
  intro root hroot
  obtain ⟨key, members, hvalue⟩ := hshape root hroot
  exact ⟨_, by rw [hvalue]; rfl⟩

/-- Two rules wait for the temperature, and it arrives: the longest way a message can take
through the handlers. -/
theorem handled_iff_heat : ∃ s : ManagerState, s.manager.ruler.rules.length = 2 ∧
    Harmless heatJansson (lit "DEV.0") (temperature (lit "DEV.0")).dataVector s.manager := by
  obtain ⟨s, hs, hq⟩ := Option.map_eq_some_iff.mp
    (show (execute (fun _ e => ManagerEvent.Fits 3 e) (fun s e => ManagerEvent.step heatJansson s e)
        (.initial 3 1000) ((heatEvents (lit "DEV.0") 0).take 6)).map
          (fun s => (s.manager.ruler.rules.length, decide (Returns
            (IoTManager.handleManagerPackage heatJansson threeSockets 0 (temperature (lit "DEV.0"))
              s.manager))))
      = some (2, true) by decide +kernel)
  obtain ⟨hlength, hreturns⟩ := Prod.mk.inj hq
  obtain ⟨⟨m', done⟩, hhandled⟩ := of_decide_eq_true hreturns
  refine ⟨s, hlength, ?_⟩
  have hcomplete : CompleteMessage heatJansson (temperature (lit "DEV.0")).dataVector :=
    ⟨commandMessage (lit "Res") (lit "Temp") (lit "7"), lit "IOTCMD", by rfl, by rfl,
      by decide +kernel, by decide +kernel⟩
  have hserver : threeSockets.clientSockets.length = 3 := rfl
  exact (handled_iff (prints_jansson _) (run_of_execute hs) hserver (by decide : 0 < 3)
    (temperature (lit "DEV.0"))).mp
    ⟨m', done, hhandled, fun hincomplete => absurd hcomplete hincomplete⟩

/-- A device that does not say which group it belongs to. -/
def ungroupedMessage : JsonRoot :=
  .object [(lit "IOTDEV", .object [(lit "DeviceID", .string (lit "A"))])]

theorem not_handled_ungrouped :
    ¬ IoTManager.Handled (jansson [ungroupedMessage]) threeSockets 0
      (carrying (lit "DEV.0") IoTManager.serverIoTIP ungroupedMessage)
      (ManagerState.initial 3 1000).manager := by
  have hraised : IoTManager.handleManagerPackage (jansson [ungroupedMessage]) threeSockets 0
      (carrying (lit "DEV.0") IoTManager.serverIoTIP ungroupedMessage)
      (ManagerState.initial 3 1000).manager = .error .logicError := by decide +kernel
  rintro ⟨m', done, hhandled, -⟩
  rw [hraised] at hhandled
  cases hhandled

end IoTRepublic
