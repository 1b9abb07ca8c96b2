import IoTRepublic.IoT.Manager
import IoTRepublic.IoT.RulerSpec

/-!
# IoTRepublic.IoT.ManagerSpec

What the handlers of the manager do, said once.

`Dispatched` lists the ways a package can end: ignored, answered, registered,
passed on, kept as a rule, or given to the ruler as a command. Each comes with the
manager it leaves and the effects it has, so that an invariant is one case analysis
(`dispatch_cases`) and no proof looks into a handler again. None of them touches a
package buffer.

The first sections have one lemma for each loop over the device list. In the source these
run to an `int`, so each is stated twice: what the loop does with as many devices as it
sees, and what that is where the size of the list fits (`DevicesFit`): a search, an
erasure or a filter of the library, on which the later modules work.
-/

namespace IoTRepublic

open Cpp JsonUtility IoTUtility

namespace IoTManager

variable {J : Jansson} {server : TcpServer}

/-! ### The device list and the rules -/

/-- The loop only removes rules; those that stay are as they were, in their order. -/
theorem noticeReloadDeviceList_sublist {devices : List IoTDeviceInfo} {remaining i : Nat}
    {rules rules' : List RuleInstance}
    (h : noticeReloadDeviceList devices remaining i rules = .ok rules') : rules'.Sublist rules := by
  induction remaining generalizing i rules with
  | zero =>
      obtain rfl := Except.ok.inj h
      exact List.Sublist.refl _
  | succ remaining ih =>
      obtain ⟨ruleInstance, -, h⟩ := bind_ok_iff.mp h
      split at h
      · exact ih h
      · exact (ih h).trans List.eraseP_sublist

/-- Removing the rules of unknown devices leaves a part of the table, in its order, and
nothing else changes. -/
theorem reloadRules_eq {m m' : IoTManager} (h : reloadRules m = .ok m') :
    ∃ rules, rules.Sublist m.ruler.rules ∧
      m' = { m with ruler := { m.ruler with rules := rules } } := by
  obtain ⟨rules, hrules, h⟩ := bind_ok_iff.mp h
  exact ⟨rules, noticeReloadDeviceList_sublist hrules, (Except.ok.inj h).symm⟩

/-- Where both ends of every rule are known, there is nothing to remove. -/
theorem noticeReloadDeviceList_of_known {devices : List IoTDeviceInfo} {remaining i : Nat}
    {rules : List RuleInstance} (hsize : i + remaining = rules.length)
    (h : ∀ r ∈ rules,
      addressKnown r.rule.readFrom devices && addressKnown r.rule.writeTo devices) :
    noticeReloadDeviceList devices remaining i rules = .ok rules := by
  induction remaining generalizing i with
  | zero => rfl
  | succ remaining ih =>
      have hlt : i < rules.length := by omega
      rw [noticeReloadDeviceList, vectorAt_of_lt hlt, ok_bind, if_pos (h _ (List.getElem_mem hlt))]
      exact ih (by omega)

/-! ### Who has an address -/

theorem getElem?_of_findDeviceIndexByIoTIp {iotIp : Text} {devices : List IoTDeviceInfo} {i : Nat}
    (h : findDeviceIndexByIoTIp iotIp devices = some i) :
    ∃ device, devices[i]? = some device ∧ device.iotIp = iotIp := by
  obtain ⟨hlt, hip, -⟩ := List.findIdx?_eq_some_iff_getElem.mp h
  exact ⟨_, List.prefix_iff_getElem?.mp (visible_isPrefix devices) i hlt, of_decide_eq_true hip⟩

/-- As long as the size is an `int`, the first device with the address is found. -/
theorem bind_findDeviceIndexByIoTIp {iotIp : Text} {devices : List IoTDeviceInfo}
    (hsize : devices.length < 2 ^ 31) :
    (findDeviceIndexByIoTIp iotIp devices).bind (devices[·]?)
      = devices.find? (·.iotIp = iotIp) := by
  rw [findDeviceIndexByIoTIp, visible_of_lt hsize, List.find?_eq_bind_findIdx?_getElem?]

/-! ### The list without a device -/

/-- The list without the entry a registration replaces. -/
def withoutDevice (id : Text) (devices : List IoTDeviceInfo) : List IoTDeviceInfo :=
  match findDeviceIndexByDeviceId id devices with
  | some deviceIndex => devices.eraseIdx deviceIndex
  | none => devices

theorem withoutDevice_sublist (id : Text) (devices : List IoTDeviceInfo) :
    (withoutDevice id devices).Sublist devices := by
  unfold withoutDevice
  split
  · exact List.eraseIdx_sublist ..
  · exact List.Sublist.refl _

theorem length_le_withoutDevice (id : Text) (devices : List IoTDeviceInfo) :
    devices.length ≤ (withoutDevice id devices).length + 1 := by
  unfold withoutDevice
  split
  · rw [List.length_eraseIdx]
    split <;> omega
  · exact Nat.le_succ _

/-- As long as the size is an `int`, the entry is the first with the device ID. -/
theorem withoutDevice_eq {id : Text} {devices : List IoTDeviceInfo}
    (hsize : devices.length < 2 ^ 31) :
    withoutDevice id devices = devices.eraseP (·.deviceID = id) := by
  rw [withoutDevice, findDeviceIndexByDeviceId, visible_of_lt hsize, List.eraseP_eq_eraseIdx]
  cases List.findIdx? (fun device => decide (device.deviceID = id)) devices with
  | none => rfl
  | some deviceIndex => rfl

theorem removeDevices_eq (socketIndex remaining : Nat) (devices : List IoTDeviceInfo) :
    removeDevices socketIndex remaining devices
      = (devices.take remaining).filter (·.socketIndex ≠ socketIndex)
        ++ devices.drop remaining := by
  induction devices generalizing remaining with
  | nil => simp [removeDevices]
  | cons device devices ih =>
      cases remaining with
      | zero => simp [removeDevices]
      | succ remaining =>
          by_cases hslot : device.socketIndex = socketIndex
          · simp [removeDevices, hslot, ih]
          · simp [removeDevices, hslot, ih]

theorem removeDeviceBySocketIndex_sublist (socketIndex : Nat) (devices : List IoTDeviceInfo) :
    (removeDeviceBySocketIndex socketIndex devices).Sublist devices := by
  rw [removeDeviceBySocketIndex, removeDevices_eq]
  conv_rhs => rw [← List.take_append_drop (toInt devices.length).toNat devices]
  exact List.filter_sublist.append (List.Sublist.refl _)

/-- As long as the size is an `int`, no device of the slot stays. -/
theorem removeDeviceBySocketIndex_eq {socketIndex : Nat} {devices : List IoTDeviceInfo}
    (hsize : devices.length < 2 ^ 31) :
    removeDeviceBySocketIndex socketIndex devices
      = devices.filter (·.socketIndex ≠ socketIndex) := by
  rw [removeDeviceBySocketIndex, removeDevices_eq, toInt_of_lt hsize, Int.toNat_natCast,
    List.take_length, List.drop_length, List.append_nil]

/-- A slot the loop finds no device of loses none. -/
theorem removeDeviceBySocketIndex_of_not_exists {socketIndex : Nat} {devices : List IoTDeviceInfo}
    (h : ¬ isSocketIndexExistsAnyDevice socketIndex devices = true) :
    removeDeviceBySocketIndex socketIndex devices = devices := by
  have hkept : (visible devices).filter (·.socketIndex ≠ socketIndex) = visible devices := by
    refine List.filter_eq_self.mpr fun device hdevice => decide_eq_true fun hslot => h ?_
    exact List.any_eq_true.mpr ⟨device, hdevice, decide_eq_true hslot⟩
  rw [removeDeviceBySocketIndex, removeDevices_eq]
  rw [visible] at hkept
  rw [hkept, List.take_append_drop]

/-! ### The list as it is sent -/

/-- A device as it stands in the list that is sent. -/
def deviceBytes (devInfo : IoTDeviceInfo) : List Byte :=
  visible devInfo.iotIp ++ [IoTPackage.segmentSymbol]
    ++ visible devInfo.deviceDescription ++ [IoTPackage.segmentSymbol]

/-- The size to be reserved for the list is one that can be. -/
def Reservable (devices : List IoTDeviceInfo) : Prop :=
  0 ≤ toInt devices.length ∧ InInt (500 * toInt devices.length)

instance (devices : List IoTDeviceInfo) : Decidable (Reservable devices) :=
  inferInstanceAs (Decidable (_ ∧ _))

theorem reservable_of_inInt {devices : List IoTDeviceInfo} (h : InInt (500 * devices.length)) :
    Reservable devices := by
  have hsize : devices.length < 2 ^ 31 := by
    have := h.2
    omega
  rw [Reservable, toInt_of_lt hsize]
  exact ⟨Int.natCast_nonneg _, h⟩

theorem encodeAllRegistedDevices_ok_iff {devices : List IoTDeviceInfo} {buffer : List Byte} :
    encodeAllRegistedDevices devices = .ok buffer ↔
      Reservable devices ∧ buffer = (visible devices).flatMap deviceBytes := by
  unfold encodeAllRegistedDevices Reservable
  dsimp only
  by_cases hproduct : InInt (500 * toInt devices.length)
  swap
  · simp [hproduct]
  rw [if_neg (not_not_intro hproduct), pure_eq_ok, reserve]
  by_cases hcount : 0 ≤ toInt devices.length
  · rw [if_neg (by omega), ok_bind, Except.ok.injEq, and_iff_right ⟨hcount, hproduct⟩, eq_comm]
    rfl
  · rw [if_pos (by omega), error_bind]
    simp [hcount]

/-! ### Commands for the ruler -/

/-- The command a package brings to the ruler, if it brings one. -/
def rulerCommand (J : Jansson) (package : IoTPackage) : Option IoTCommand :=
  if package.desIp = serverIoTIP
      ∧ getFirstKeyName (loadJsonData J package.dataVector) = .ok (lit "IOTCMD") then
    match IoTCommand.ofContent J package.dataVector with
    | .ok cmd => if cmd.id = lit "Dis_All" ∨ cmd.id = lit "Dis_NPx" then none else some cmd
    | .error _ => none
  else none

theorem rulerCommand_eq_some_iff {package : IoTPackage} {cmd : IoTCommand} :
    rulerCommand J package = some cmd ↔
      package.desIp = serverIoTIP ∧
        getFirstKeyName (loadJsonData J package.dataVector) = .ok (lit "IOTCMD") ∧
        IoTCommand.ofContent J package.dataVector = .ok cmd ∧
        ¬ (cmd.id = lit "Dis_All" ∨ cmd.id = lit "Dis_NPx") := by
  unfold rulerCommand
  split
  · rename_i h
    cases hcmd : IoTCommand.ofContent J package.dataVector with
    | error fault => simp
    | ok cmd' =>
        by_cases hid : cmd'.id = lit "Dis_All" ∨ cmd'.id = lit "Dis_NPx"
        · simp only [hid, if_true, reduceCtorEq, h, Except.ok.injEq, true_and, false_iff, not_and,
            not_not]
          rintro rfl
          exact hid
        · simp only [hid, if_false, Option.some.injEq, h, Except.ok.injEq, true_and]
          constructor
          · rintro rfl
            exact ⟨rfl, hid⟩
          · exact And.left
  · rename_i h
    simp only [reduceCtorEq, false_iff]
    exact fun hall => h ⟨hall.1, hall.2.1⟩

theorem excuteWriteRule_done {m : IoTManager} {ruleInstance : RuleInstance} {writeValue : Text}
    {done : List Effect} (h : excuteWriteRule J server m ruleInstance writeValue = .ok done) :
    ∃ sent, done = [.ruleWritten ruleInstance writeValue sent] := by
  unfold excuteWriteRule at h
  split at h
  · obtain ⟨cmd, -, h⟩ := bind_ok_iff.mp h
    obtain ⟨package, -, h⟩ := bind_ok_iff.mp h
    obtain ⟨sent, -, h⟩ := bind_ok_iff.mp h
    exact ⟨sent, (Except.ok.inj h).symm⟩
  · exact ⟨none, (Except.ok.inj h).symm⟩

/-- A command does nothing but write one rule, if that. -/
theorem handleRulerCommand_done {m : IoTManager} {cmd : IoTCommand}
    {rules rules' : List RuleInstance} {done : List Effect}
    (h : Ruler.handleRulerCommand (excuteWriteRule J server m) cmd rules = .ok (rules', done)) :
    ∀ e ∈ done, ∃ r writeValue sent, e = .ruleWritten r writeValue sent := by
  rcases Ruler.handleRulerCommand_cases h with ⟨-, -, rfl⟩ | ⟨_, _, _, -, -, -, -, hwrite⟩
  · simp
  · obtain ⟨sent, rfl⟩ := excuteWriteRule_done hwrite
    simp

/-! ### Packages -/

/-- What `dispatch` does with a package: one constructor for each way it can end, with the
manager it leaves and the effects it has. -/
inductive Dispatched (J : Jansson) (server : TcpServer) (socketIndex : Nat) (package : IoTPackage)
    (m m' : IoTManager) (done : List Effect) : Prop
  | ignored (hm : m' = m) (hdone : done = [])
  | answered (ipCount : Int) (socket : Option Int) (buffer : List Byte)
      (hm : m' = { m with ipCount := ipCount })
      (hdone : done = [.answered socketIndex socket buffer])
  | registered (device : IoTDeviceInfo) (rules : List RuleInstance)
      (hslot : device.socketIndex = socketIndex) (hrules : rules.Sublist m.ruler.rules)
      (hm : m' = { m with
        registedDevices := withoutDevice device.deviceID m.registedDevices ++ [device]
        ruler := { m.ruler with rules := rules } })
      (hdone : done = [.registered device])
  | forwarded (device : IoTDeviceInfo) (socket : Option Int) (hm : m' = m)
      (hmem : device ∈ m.registedDevices)
      (hsent : server.sendDataToExistsConnection device.socketIndex package.dataVectorForSending
        = .ok socket)
      (hdone : done = [.forwarded device socket package.dataVectorForSending])
  | ruleAdded (rule : IoTRule) (ruler : Ruler) (hadd : Ruler.addRule rule m.ruler = .ok ruler)
      (hm : m' = { m with ruler := ruler }) (hdone : done = [])
  | commanded (cmd : IoTCommand) (rules : List RuleInstance)
      (hcmd : rulerCommand J package = some cmd)
      (hrules : Ruler.handleRulerCommand (excuteWriteRule J server m) cmd m.ruler.rules
        = .ok (rules, done))
      (hm : m' = { m with ruler := { m.ruler with rules := rules } })

/-- Where `dispatch` sends a package: to the list of devices, to the ruler, or nowhere
beyond the manager. -/
inductive Routed (J : Jansson) (server : TcpServer) (socketIndex : Nat) (package : IoTPackage)
    (m m' : IoTManager) (done : List Effect) : Prop
  | ignored (hm : m' = m) (hdone : done = [])
  | answered (ipCount : Int) (socket : Option Int) (buffer : List Byte)
      (hm : m' = { m with ipCount := ipCount })
      (hdone : done = [.answered socketIndex socket buffer])
  | device (root : JsonRoot) (hdes : package.desIp = serverIoTIP)
      (hload : loadJsonData J package.dataVector = some root)
      (hname : getFirstKeyName (some root) = .ok (lit "IOTDEV"))
      (h : addNewDevice J package.sorIp root socketIndex m = .ok (m', done))
  | rule (hdes : package.desIp = serverIoTIP)
      (hown : ∀ cmd, getFirstKeyName (loadJsonData J package.dataVector) = .ok (lit "IOTCMD") →
        IoTCommand.ofContent J package.dataVector = .ok cmd →
        ¬ (cmd.id = lit "Dis_All" ∨ cmd.id = lit "Dis_NPx"))
      (h : handleRulePackage J server package m = .ok (m', done))
  | forwarded (device : IoTDeviceInfo) (socket : Option Int) (hm : m' = m)
      (hmem : device ∈ m.registedDevices)
      (hsent : server.sendDataToExistsConnection device.socketIndex package.dataVectorForSending
        = .ok socket)
      (hdone : done = [.forwarded device socket package.dataVectorForSending])

section Cases

variable {socketIndex : Nat} {package : IoTPackage} {m m' : IoTManager} {done : List Effect}

theorem addNewDevice_cases {iotip : Text} {root : JsonRoot}
    (h : addNewDevice J iotip root socketIndex m = .ok (m', done)) :
    Dispatched J server socketIndex package m m' done := by
  obtain ⟨deviceID, -, h⟩ := bind_ok_iff.mp h
  obtain ⟨functionGroup, -, h⟩ := bind_ok_iff.mp h
  obtain ⟨deviceDescription, -, h⟩ := bind_ok_iff.mp h
  dsimp only at h
  obtain ⟨m₁, hm₁, h⟩ := bind_ok_iff.mp h
  obtain ⟨rfl, rfl⟩ := Prod.mk.inj (Except.ok.inj h)
  obtain ⟨rules, hrules, rfl⟩ := reloadRules_eq hm₁
  exact .registered _ rules rfl hrules rfl rfl

/-- A package for the ruler, unless it is one of the commands the manager keeps for
itself. -/
theorem handleRulePackage_cases (hdes : package.desIp = serverIoTIP)
    (hown : ∀ cmd, getFirstKeyName (loadJsonData J package.dataVector) = .ok (lit "IOTCMD") →
      IoTCommand.ofContent J package.dataVector = .ok cmd →
      ¬ (cmd.id = lit "Dis_All" ∨ cmd.id = lit "Dis_NPx"))
    (h : handleRulePackage J server package m = .ok (m', done)) :
    Dispatched J server socketIndex package m m' done := by
  obtain ⟨⟨ruler, done'⟩, hruler, h⟩ := bind_ok_iff.mp h
  obtain ⟨rfl, rfl⟩ := Prod.mk.inj (Except.ok.inj h)
  cases Ruler.handleRulePackage_cases hruler with
  | ignored hsame hdone => exact .ignored (by rw [hsame]) hdone
  | added rule hadd hdone => exact .ruleAdded rule ruler hadd rfl hdone
  | command cmd rules hroot hcmd hrules hrest =>
      have hcommand : rulerCommand J package = some cmd :=
        rulerCommand_eq_some_iff.mpr ⟨hdes, hroot, hcmd, hown cmd hroot hcmd⟩
      exact .commanded cmd rules hcommand hrules (by rw [hrest])

theorem commandHandler_routed {cmd : IoTCommand} (hdes : package.desIp = serverIoTIP)
    (hcmd : IoTCommand.ofContent J package.dataVector = .ok cmd)
    (h : commandHandler J server socketIndex cmd package m = .ok (m', done)) :
    Routed J server socketIndex package m m' done := by
  unfold commandHandler at h
  split at h
  · obtain ⟨buffer, -, h⟩ := bind_ok_iff.mp h
    obtain ⟨sendPackage, -, h⟩ := bind_ok_iff.mp h
    obtain ⟨socket, -, h⟩ := bind_ok_iff.mp h
    obtain ⟨rfl, rfl⟩ := Prod.mk.inj (Except.ok.inj h)
    exact .answered m.ipCount socket _ rfl rfl
  · rename_i hid
    refine .rule hdes (fun cmd' _ hcmd' => ?_) h
    obtain rfl := Except.ok.inj (hcmd'.symm.trans hcmd)
    exact hid

theorem handleManagerPackage_routed (hdes : package.desIp = serverIoTIP)
    (h : handleManagerPackage J server socketIndex package m = .ok (m', done)) :
    Routed J server socketIndex package m m' done := by
  unfold handleManagerPackage at h
  split at h
  · obtain ⟨rfl, rfl⟩ := Prod.mk.inj (Except.ok.inj h)
    exact .ignored rfl rfl
  rename_i root hload
  obtain ⟨rootName, hroot, h⟩ := bind_ok_iff.mp h
  split at h
  · rename_i hname
    exact .device root hdes hload (by rw [hroot, hname]) h
  split at h
  · obtain ⟨cmd, hcmd, h⟩ := bind_ok_iff.mp h
    exact commandHandler_routed hdes hcmd h
  split at h
  · rename_i hname
    -- The text has one root only, so the ruler finds no command in it.
    refine .rule hdes (fun cmd hcommand _ => ?_) h
    rw [hload, hroot, hname] at hcommand
    exact absurd (Except.ok.inj hcommand) (by decide)
  · obtain ⟨rfl, rfl⟩ := Prod.mk.inj (Except.ok.inj h)
    exact .ignored rfl rfl

theorem answerIpRequest_routed (h : answerIpRequest server socketIndex m = .ok (m', done)) :
    Routed J server socketIndex package m m' done := by
  obtain ⟨⟨newIp, m₁⟩, hnew, h⟩ := bind_ok_iff.mp h
  obtain ⟨ipCount, -, hnew⟩ := bind_ok_iff.mp hnew
  obtain ⟨rfl, rfl⟩ := Prod.mk.inj (Except.ok.inj hnew)
  obtain ⟨responsePackage, -, h⟩ := bind_ok_iff.mp h
  obtain ⟨socket, -, h⟩ := bind_ok_iff.mp h
  obtain ⟨rfl, rfl⟩ := Prod.mk.inj (Except.ok.inj h)
  exact .answered ipCount socket _ rfl rfl

theorem forwardPackage_routed (h : forwardPackage server package m = .ok (m', done)) :
    Routed J server socketIndex package m m' done := by
  unfold forwardPackage at h
  split at h
  · obtain ⟨rfl, rfl⟩ := Prod.mk.inj (Except.ok.inj h)
    exact .ignored rfl rfl
  · obtain ⟨device, hdevice, h⟩ := bind_ok_iff.mp h
    obtain ⟨socket, hsocket, h⟩ := bind_ok_iff.mp h
    obtain ⟨rfl, rfl⟩ := Prod.mk.inj (Except.ok.inj h)
    exact .forwarded device socket rfl (List.mem_of_getElem? (vectorAt_ok_iff.mp hdevice).2)
      hsocket rfl

theorem dispatch_routed (h : dispatch J server socketIndex package m = .ok (m', done)) :
    Routed J server socketIndex package m m' done := by
  unfold dispatch at h
  split at h
  · exact answerIpRequest_routed h
  split at h
  · rename_i hdes
    exact handleManagerPackage_routed hdes h
  · exact forwardPackage_routed h

/-- **Every package ends in one of these ways.** -/
theorem dispatch_cases (h : dispatch J server socketIndex package m = .ok (m', done)) :
    Dispatched J server socketIndex package m m' done := by
  cases dispatch_routed h with
  | ignored hm hdone => exact .ignored hm hdone
  | answered ipCount socket buffer hm hdone => exact .answered ipCount socket buffer hm hdone
  | device root hdes hload hname h => exact addNewDevice_cases h
  | rule hdes hown h => exact handleRulePackage_cases hdes hown h
  | forwarded device socket hm hmem hsent hdone =>
      exact .forwarded device socket hm hmem hsent hdone

/-- A command for the ruler gets there. -/
theorem dispatch_of_rulerCommand {cmd : IoTCommand} (hcmd : rulerCommand J package = some cmd)
    (h : dispatch J server socketIndex package m = .ok (m', done)) :
    ∃ rules, Ruler.handleRulerCommand (excuteWriteRule J server m) cmd m.ruler.rules
        = .ok (rules, done) ∧
      m' = { m with ruler := { m.ruler with rules := rules } } := by
  obtain ⟨hdes, hroot, hcontent, hown⟩ := rulerCommand_eq_some_iff.mp hcmd
  have hrequest : ¬ (package.sorIp = lit "0" ∧ package.desIp = lit "0") := by
    rw [hdes]
    exact fun h => absurd h.2 (by decide)
  have hdevice : lit "IOTCMD" ≠ lit "IOTDEV" := by decide
  have hrule : lit "IOTCMD" ≠ lit "IOTRUL" := by decide
  rw [dispatch, if_neg hrequest, if_pos hdes, handleManagerPackage] at h
  cases hload : loadJsonData J package.dataVector with
  | none =>
      rw [hload] at hroot
      cases hroot
  | some root =>
      rw [hload] at hroot h
      dsimp only at h
      rw [hroot, ok_bind, if_neg hdevice, if_pos rfl, hcontent, ok_bind, commandHandler,
        if_neg hown, handleRulePackage, Ruler.handleRulePackage, hload] at h
      dsimp only at h
      rw [hroot, ok_bind, if_neg hrule, if_pos rfl, hcontent, ok_bind, bind_assoc] at h
      obtain ⟨⟨rules, done'⟩, hrules, h⟩ := bind_ok_iff.mp h
      obtain ⟨rfl, rfl⟩ := Prod.mk.inj (Except.ok.inj h)
      exact ⟨rules, hrules, rfl⟩

/-- No package takes a device off the list without putting one on it. -/
theorem dispatch_length_le (h : dispatch J server socketIndex package m = .ok (m', done)) :
    m.registedDevices.length ≤ m'.registedDevices.length := by
  cases dispatch_cases h with
  | registered device rules _ _ hm _ =>
      subst hm
      simpa using length_le_withoutDevice device.deviceID m.registedDevices
  | ignored hm _ => rw [hm]
  | answered _ _ _ hm _ => rw [hm]
  | forwarded _ _ hm _ _ _ => rw [hm]
  | ruleAdded _ _ _ hm _ => rw [hm]
  | commanded _ _ _ _ hm => rw [hm]

theorem dispatch_packageBuffer (h : dispatch J server socketIndex package m = .ok (m', done)) :
    m'.packageBuffer = m.packageBuffer := by
  cases dispatch_cases h with
  | ignored hm _ => rw [hm]
  | answered _ _ _ hm _ => rw [hm]
  | registered _ _ _ _ hm _ => rw [hm]
  | forwarded _ _ hm _ _ _ => rw [hm]
  | ruleAdded _ _ _ hm _ => rw [hm]
  | commanded _ _ _ _ hm => rw [hm]

end Cases

end IoTManager

/-- The number of devices is one an `int` can tell, so that the loops over the list see
all of it. -/
def ManagerState.DevicesFit (s : ManagerState) : Prop := s.manager.registedDevices.length < 2 ^ 31

instance (s : ManagerState) : Decidable s.DevicesFit := inferInstanceAs (Decidable (_ < _))

theorem ManagerState.devicesFit_initial (maxClient : Nat) (actionFrequency : Int) :
    (ManagerState.initial maxClient actionFrequency).DevicesFit := by
  simp [DevicesFit, ManagerState.initial]

/-- If the devices fit after a package, they did before it. -/
theorem ManagerState.devicesFit_of_dispatchPackage {J : Jansson} {server : TcpServer}
    {socketIndex : Nat} {package : IoTPackage} {s s' : ManagerState}
    (h : s.dispatchPackage J server socketIndex package = .ok s') (hfits : s'.DevicesFit) :
    s.DevicesFit := by
  obtain ⟨⟨manager, done⟩, hdispatch, h⟩ := bind_ok_iff.mp h
  obtain rfl := Except.ok.inj h
  exact (IoTManager.dispatch_length_le hdispatch).trans_lt hfits

/-- A property of a dispatched package's action and of all its effects. -/
theorem forall_mem_cons_effects {P : Action → Prop} {action : Action} {done : List Effect}
    (haction : P action) (hdone : ∀ e ∈ done, P (.effect e)) :
    ∀ a ∈ action :: done.map .effect, P a := by
  intro a ha
  rcases List.mem_cons.mp ha with rfl | ha
  · exact haction
  · obtain ⟨e, he, rfl⟩ := List.mem_map.mp ha
    exact hdone e he

/-- A denied connection takes the devices of its slot off the list, and their rules
with them. -/
theorem ManagerState.eventConnectionDenied_cases {socketIndex : Nat} {s s' : ManagerState}
    (h : s.eventConnectionDenied socketIndex = .ok s') :
    ∃ rules, rules.Sublist s.manager.ruler.rules ∧
      s' = { manager := { s.manager with
               registedDevices :=
                 IoTManager.removeDeviceBySocketIndex socketIndex s.manager.registedDevices
               ruler := { s.manager.ruler with rules := rules } }
             log := s.log ++ [.connectionDenied socketIndex] } := by
  unfold ManagerState.eventConnectionDenied at h
  dsimp only at h
  split at h
  · obtain ⟨manager, hm, h⟩ := bind_ok_iff.mp h
    obtain rfl := Except.ok.inj h
    obtain ⟨rules, hrules, rfl⟩ := IoTManager.reloadRules_eq hm
    exact ⟨rules, hrules, rfl⟩
  · rename_i hany
    obtain rfl := Except.ok.inj h
    exact ⟨_, List.Sublist.refl _,
      by rw [IoTManager.removeDeviceBySocketIndex_of_not_exists hany]⟩

end IoTRepublic
