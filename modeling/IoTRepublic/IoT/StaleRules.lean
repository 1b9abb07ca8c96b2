import IoTRepublic.IoT.Registration
import IoTRepublic.IoT.RulerSound

/-!
# IoTRepublic.IoT.StaleRules

The cleanup of the rules after the device list has changed.

`noticeReloadDeviceList` erases from the vector it runs over, and finds what it
erases by its id. With distinct ids that is the rule it has just looked at, so
after `n` rounds the first `n` rules are filtered and the others untouched
(`reloadRounds_eq`), and the whole loop is a filter (`reloadRules_filter`). What it
keeps are the rules with both ends among the devices an `int` can count; once there
are more, it finds none and keeps nothing (`staleRules_overfull`).

Within a round the loop may stay at its index or go on by one, and the table may get
shorter behind it. `afterRounds` and `indexAfter` say what both are after `n` rounds, so
that the round lemma is about one rule: it is the one that was at position `n`, and it is
erased exactly if one of its ends is unknown.
-/

namespace IoTRepublic

open Cpp JsonUtility Transition

namespace IoTManager

/-- Both ends of the rule are on the device list. -/
def Current (devices : List IoTDeviceInfo) (r : RuleInstance) : Prop :=
  (r.rule.readFrom ≠ [] ∧ r.rule.readFrom ∈ devices.map (·.iotIp)) ∧
    (r.rule.writeTo ≠ [] ∧ r.rule.writeTo ∈ devices.map (·.iotIp))

instance (devices : List IoTDeviceInfo) (r : RuleInstance) : Decidable (Current devices r) :=
  inferInstanceAs (Decidable ((_ ∧ _) ∧ (_ ∧ _)))

/-- The loop finds both ends of the rule among the devices, and leaves it alone. -/
def bothKnown (devices : List IoTDeviceInfo) (r : RuleInstance) : Bool :=
  addressKnown r.rule.readFrom devices && addressKnown r.rule.writeTo devices

/-- As long as the size is an `int`, what is looked for is found. -/
theorem addressKnown_iff {iotIp : Text} {devices : List IoTDeviceInfo}
    (hsize : devices.length < 2 ^ 31) :
    addressKnown iotIp devices = true ↔ iotIp ≠ [] ∧ iotIp ∈ devices.map (·.iotIp) := by
  rw [addressKnown, Bool.and_eq_true, decide_eq_true_eq, List.length_pos_iff,
    findDeviceIndexByIoTIp, visible_of_lt hsize, List.findIdx?_isSome, List.any_eq_true]
  simp

theorem bothKnown_iff {devices : List IoTDeviceInfo} (hsize : devices.length < 2 ^ 31)
    {r : RuleInstance} : bothKnown devices r = true ↔ Current devices r := by
  rw [bothKnown, Bool.and_eq_true, addressKnown_iff hsize, addressKnown_iff hsize, Current]

theorem filter_bothKnown {devices : List IoTDeviceInfo} (hsize : devices.length < 2 ^ 31)
    (rules : List RuleInstance) :
    rules.filter (bothKnown devices) = rules.filter (Current devices) :=
  List.filter_congr fun r _ => by
    rw [Bool.eq_iff_iff, bothKnown_iff hsize, decide_eq_true_eq]

/-! ### The loop, round by round -/

/-- One round of the loop, at an index of a table. -/
def reloadRound (devices : List IoTDeviceInfo) :
    Nat × List RuleInstance → Except Fault (Nat × List RuleInstance)
  | (i, rules) => do
    let ruleInstance ← vectorAt rules i
    if bothKnown devices ruleInstance then
      return (i + 1, rules)
    else
      return (i, Ruler.removeRule ruleInstance.ruleID rules)

/-- The first `n` rounds: the index and the rules after them, from the front of the table
on. -/
def reloadRounds (devices : List IoTDeviceInfo) :
    Nat → List RuleInstance → Except Fault (Nat × List RuleInstance)
  | 0, rules => .ok (0, rules)
  | n + 1, rules => reloadRounds devices n rules >>= reloadRound devices

theorem noticeReloadDeviceList_succ (devices : List IoTDeviceInfo) (remaining i : Nat)
    (rules : List RuleInstance) :
    noticeReloadDeviceList devices (remaining + 1) i rules
      = (reloadRound devices (i, rules) >>= fun (i, rules) =>
          noticeReloadDeviceList devices remaining i rules) := by
  rw [noticeReloadDeviceList, reloadRound, bind_assoc]
  refine congrArg _ (funext fun r => ?_)
  rw [← bothKnown]
  by_cases h : bothKnown devices r = true
  · rw [if_pos h, if_pos h, pure_eq_ok, ok_bind]
  · rw [if_neg h, if_neg h, pure_eq_ok, ok_bind]

/-- The loop is its rounds, so it may be stopped after any number of them and looked
at. -/
theorem noticeReloadDeviceList_add (devices : List IoTDeviceInfo) (n remaining : Nat)
    (rules : List RuleInstance) :
    noticeReloadDeviceList devices (n + remaining) 0 rules
      = (reloadRounds devices n rules >>= fun (i, rules) =>
          noticeReloadDeviceList devices remaining i rules) := by
  induction n generalizing remaining with
  | zero => rw [Nat.zero_add, reloadRounds, ok_bind]
  | succ n ih =>
      rw [Nat.add_assoc, Nat.add_comm 1, ih, reloadRounds, bind_assoc]
      refine congrArg _ (funext fun (i, rules) => ?_)
      exact noticeReloadDeviceList_succ devices remaining i rules

/-! ### With distinct ids -/

/-- The rule with the id of the one at the index is the one at the index. -/
theorem removeRule_append {kept rest : List RuleInstance} {r : RuleInstance}
    (hids : ((kept ++ r :: rest).map (·.ruleID)).Nodup) :
    Ruler.removeRule r.ruleID (kept ++ r :: rest) = kept ++ rest := by
  rw [List.map_append, List.map_cons, List.nodup_append] at hids
  have hkept : ∀ x ∈ kept, ¬ decide (x.ruleID = r.ruleID) = true := by
    intro x hx
    rw [decide_eq_true_eq]
    exact hids.2.2 _ (List.mem_map_of_mem hx) _ (List.mem_cons_self ..)
  rw [Ruler.removeRule, List.eraseP_append_right _ hkept, List.eraseP_cons_of_pos (by simp)]

section Distinct

variable {rules : List RuleInstance} (hids : (rules.map (·.ruleID)).Nodup)
  (devices : List IoTDeviceInfo)

/-- The table after `n` rounds: the first `n` rules filtered, then the others. -/
def afterRounds (devices : List IoTDeviceInfo) (n : Nat) (rules : List RuleInstance) :
    List RuleInstance :=
  (rules.take n).filter (bothKnown devices) ++ rules.drop n

/-- The index the loop stands at after `n` rounds. -/
def indexAfter (devices : List IoTDeviceInfo) (n : Nat) (rules : List RuleInstance) : Nat :=
  ((rules.take n).filter (bothKnown devices)).length

omit hids in
theorem afterRounds_eq {n : Nat} (hn : n < rules.length) :
    afterRounds devices n rules
      = (rules.take n).filter (bothKnown devices) ++ rules[n] :: rules.drop (n + 1) := by
  rw [afterRounds, List.drop_eq_getElem_cons hn]

omit hids in
/-- Round `n` looks at the rule that was at position `n`. -/
theorem getElem?_afterRounds {n : Nat} (hn : n < rules.length) :
    (afterRounds devices n rules)[indexAfter devices n rules]? = some rules[n] := by
  rw [afterRounds_eq devices hn, indexAfter, List.getElem?_append_right (le_refl _), Nat.sub_self]
  rfl

include hids

/-- What round `n` erases is the rule it looks at. -/
theorem removeRule_afterRounds {n : Nat} (hn : n < rules.length) :
    Ruler.removeRule rules[n].ruleID (afterRounds devices n rules)
      = (afterRounds devices n rules).eraseIdx (indexAfter devices n rules) := by
  have hsub : (afterRounds devices n rules).Sublist rules := by
    conv_rhs => rw [← List.take_append_drop n rules]
    exact List.filter_sublist.append (List.Sublist.refl _)
  have hnodup := (hsub.map (·.ruleID)).nodup hids
  rw [afterRounds_eq devices hn] at hnodup ⊢
  rw [removeRule_append hnodup, indexAfter, List.eraseIdx_append_of_length_le (le_refl _),
    Nat.sub_self, List.eraseIdx_cons_zero]

/-- **The loop after `n` rounds**: it has gone over `n` rules of the table it started on,
kept those it should, and not touched the rest. -/
theorem reloadRounds_eq {n : Nat} (hn : n ≤ rules.length) :
    reloadRounds devices n rules
      = .ok (indexAfter devices n rules, afterRounds devices n rules) := by
  induction n with
  | zero => simp [reloadRounds, indexAfter, afterRounds]
  | succ n ih =>
      have hlt : n < rules.length := hn
      have hat : vectorAt (afterRounds devices n rules) (indexAfter devices n rules)
          = .ok rules[n] := vectorAt_nat_ok_iff.mpr (getElem?_afterRounds devices hlt)
      have hfilter : (rules.take (n + 1)).filter (bothKnown devices)
          = (rules.take n).filter (bothKnown devices) ++ [rules[n]].filter (bothKnown devices) := by
        rw [List.take_succ_eq_append_getElem hlt, List.filter_append]
      rw [reloadRounds, ih hlt.le, ok_bind, reloadRound, hat, ok_bind]
      by_cases hknown : bothKnown devices rules[n] = true
      · rw [List.filter_cons_of_pos (by simpa using hknown), List.filter_nil] at hfilter
        rw [if_pos hknown, pure_eq_ok, afterRounds_eq devices hlt, indexAfter, indexAfter,
          afterRounds, hfilter, List.length_append, List.append_assoc]
        rfl
      · rw [if_neg hknown, pure_eq_ok, removeRule_afterRounds hids devices hlt,
          afterRounds_eq devices hlt, indexAfter, List.eraseIdx_append_of_length_le (le_refl _),
          Nat.sub_self, List.eraseIdx_cons_zero]
        rw [List.filter_cons_of_neg (by simpa using hknown), List.filter_nil,
          List.append_nil] at hfilter
        rw [indexAfter, afterRounds, hfilter]

/-- **The whole loop is a filter**: an index that steps back after every removal skips no
rule and runs into none that is gone. -/
theorem noticeReloadDeviceList_eq_filter :
    noticeReloadDeviceList devices rules.length 0 rules
      = .ok (rules.filter (bothKnown devices)) := by
  have h := noticeReloadDeviceList_add devices rules.length 0 rules
  rw [Nat.add_zero, reloadRounds_eq hids devices (le_refl _), ok_bind] at h
  rw [h]
  simp [noticeReloadDeviceList, afterRounds]

end Distinct

theorem reloadRules_filter {m : IoTManager} (h : RuleIds m.ruler) :
    reloadRules m = .ok { m with ruler := { m.ruler with
      rules := m.ruler.rules.filter (bothKnown m.registedDevices) } } := by
  rw [reloadRules, noticeReloadDeviceList_eq_filter h.distinct, ok_bind, pure_eq_ok]

/-! ### After a registration, and after a connection is denied -/

/-- A registration, in closed form: the device replaces the one with its ID and comes
last, and the rules are filtered. -/
theorem addNewDevice_eq {J : Jansson} {iotip : Text} {root : JsonRoot} {socketIndex : Nat}
    {m : IoTManager} {device : IoTDeviceInfo} (hids : RuleIds m.ruler)
    (h : Registers J root iotip socketIndex device) :
    addNewDevice J iotip root socketIndex m =
      let devices := withoutDevice device.deviceID m.registedDevices ++ [device]
      .ok ({ m with
        registedDevices := devices
        ruler := { m.ruler with rules := m.ruler.rules.filter (bothKnown devices) } },
        [.registered device]) := by
  obtain ⟨rfl, rfl, hid, hgroup, hdescription⟩ := h
  rw [addNewDevice, hid, ok_bind, hgroup, ok_bind, exportJsonContent_ok_iff.mpr hdescription,
    ok_bind]
  dsimp only
  rw [reloadRules_filter (by exact hids), ok_bind]
  rfl

theorem addNewDevice_rules {J : Jansson} {iotip : Text} {root : JsonRoot} {socketIndex : Nat}
    {m m' : IoTManager} {done : List Effect} (hids : RuleIds m.ruler)
    (h : addNewDevice J iotip root socketIndex m = .ok (m', done)) :
    m'.ruler = { m.ruler with rules := m.ruler.rules.filter (bothKnown m'.registedDevices) } := by
  obtain ⟨device, hregisters, rfl⟩ := addNewDevice_registers h
  rw [addNewDevice_eq hids hregisters] at h
  obtain ⟨rfl, -⟩ := Prod.mk.inj (Except.ok.inj h)
  rfl

end IoTManager

open IoTManager

theorem ManagerState.eventConnectionDenied_rules {s : ManagerState} {socketIndex : Nat}
    (hids : RuleIds s.manager.ruler) (hfits : s.DevicesFit)
    (hdevice : ∃ device ∈ s.manager.registedDevices, device.socketIndex = socketIndex) :
    ∃ s', s.eventConnectionDenied socketIndex = .ok s' ∧
      s'.manager.ruler = { s.manager.ruler with
        rules := s.manager.ruler.rules.filter (Current s'.manager.registedDevices) } := by
  have hexists : isSocketIndexExistsAnyDevice socketIndex s.manager.registedDevices = true := by
    rw [isSocketIndexExistsAnyDevice, visible_of_lt hfits, List.any_eq_true]
    obtain ⟨device, hmem, hslot⟩ := hdevice
    exact ⟨device, hmem, decide_eq_true hslot⟩
  have hsize := (removeDeviceBySocketIndex_sublist socketIndex
    s.manager.registedDevices).length_le.trans_lt hfits
  unfold ManagerState.eventConnectionDenied
  dsimp only
  rw [if_pos hexists, reloadRules_filter (by exact hids), ok_bind]
  refine ⟨_, rfl, ?_⟩
  dsimp only
  rw [filter_bothKnown hsize]

/-- **Stale rules are filtered out, exactly**, in every state of every run: by a
registration, by a denied connection of a slot with a device, and round by round
within the loop. -/
theorem staleRules_run {J : Jansson} {maxClient : Nat} {actionFrequency : Int}
    {es : List ManagerEvent} {s : ManagerState}
    (h : Run (fun s e s' => ManagerEvent.step J s e = .ok s' ∧ s'.DevicesFit)
      (.initial maxClient actionFrequency) es s) :
    (s.manager.ruler.rules.map (·.ruleID)).Nodup ∧
      (∀ iotip root socketIndex m' done,
        addNewDevice J iotip root socketIndex s.manager = .ok (m', done) →
        m'.registedDevices.length < 2 ^ 31 →
        m'.ruler = { s.manager.ruler with
          rules := s.manager.ruler.rules.filter (Current m'.registedDevices) }) ∧
      (∀ socketIndex,
        (∃ device ∈ s.manager.registedDevices, device.socketIndex = socketIndex) →
        ∃ s', s.eventConnectionDenied socketIndex = .ok s' ∧
          s'.manager.ruler = { s.manager.ruler with
            rules := s.manager.ruler.rules.filter (Current s'.manager.registedDevices) }) ∧
      ∀ devices, ∀ n (hn : n < s.manager.ruler.rules.length), ∃ i rules,
        reloadRounds devices n s.manager.ruler.rules = .ok (i, rules) ∧
          rules[i]? = some s.manager.ruler.rules[n] ∧
          Ruler.removeRule s.manager.ruler.rules[n].ruleID rules = rules.eraseIdx i := by
  have hids := ruleIds_run (h.mono fun _ _ _ h => h.1)
  have hfits : s.DevicesFit :=
    h.invariant (ManagerState.devicesFit_initial ..) fun _ _ _ _ hlast => hlast.2
  refine ⟨hids.distinct, fun _ _ _ _ _ hadd hsize => ?_,
    fun _ hdevice => ManagerState.eventConnectionDenied_rules hids hfits hdevice,
    fun devices n hn => ?_⟩
  · rw [addNewDevice_rules hids hadd, filter_bothKnown hsize]
  · exact ⟨_, _, reloadRounds_eq hids.distinct devices hn.le, getElem?_afterRounds devices hn,
      removeRule_afterRounds hids.distinct devices hn⟩

/-- Two rules, and the device one of them reads leaves. -/
theorem staleRules_run_heat : ∃ s s' : ManagerState,
    s.manager.ruler.rules.map (·.ruleID) = [0, 1] ∧ s.eventConnectionDenied 0 = .ok s' ∧
      s'.manager.ruler = { s.manager.ruler with
        rules := s.manager.ruler.rules.filter (Current s'.manager.registedDevices) } := by
  obtain ⟨s, hs, hq⟩ := Option.map_eq_some_iff.mp
    (show (execute (fun s _ => s.DevicesFit) (fun s e => ManagerEvent.step heatJansson s e)
        (.initial 3 1000) (heatEvents (lit "DEV.0") 0)).map
          (fun s => (s.manager.ruler.rules.map (·.ruleID),
            s.manager.registedDevices.map (·.socketIndex)))
      = some ([0, 1], [0, 1, 2]) by decide +kernel)
  obtain ⟨hids, hslots⟩ := Prod.mk.inj hq
  have hfits : s.DevicesFit := by
    have := congrArg List.length hslots
    rw [List.length_map] at this
    rw [ManagerState.DevicesFit, this]
    decide
  have hdevice : ∃ device ∈ s.manager.registedDevices, device.socketIndex = 0 := by
    rw [← List.mem_map, hslots]
    decide
  obtain ⟨-, -, hdenied, -⟩ := staleRules_run ((run_of_execute hs).after_each hfits)
  obtain ⟨s', hs', hrules⟩ := hdenied 0 hdevice
  exact ⟨s, s', hids, hs', hrules⟩

/-! ### More devices than an `int` can tell -/

/-- The rule of a device that feeds its own readings back to it. -/
def echoMessage : JsonRoot := ruleMessage (lit "DEV.0") (lit "DEV.0")

def echoRule : RuleInstance where
  ruleID := 0
  rule := { heatRule (lit "DEV.0") with
    writeTo := lit "DEV.0", jsonData := (dumpStrings echoMessage.value).getD [] }
  waitingTimeMs := 0

theorem notNumbered_echoMessage : NotNumbered [echoMessage] := by
  intro message hmessage n htext
  obtain rfl := List.mem_singleton.mp hmessage
  -- The names of the first members differ.
  have hfront : (numberedText n).take 6 = lit "\x7b\"IOTD" := rfl
  rw [← Option.some.inj htext] at hfront
  exact absurd hfront (by decide)

def echoJansson : Jansson := numberedJansson [echoMessage] (2 ^ 31)

/-- A manager with this rule and so many devices at the address it reads. -/
theorem echo_run {n : Nat} (hn : n < 2 ^ 31) :
    ∃ (es : List ManagerEvent) (s : ManagerState),
      Run (fun s e s' => ManagerEvent.step echoJansson s e = .ok s') (.initial 1 1000) es s ∧
      s.manager.ruler.rules = [echoRule] ∧ s.manager.registedDevices = numberedDevices n := by
  induction n with
  | zero =>
      obtain ⟨s, hs, hq⟩ := Option.map_eq_some_iff.mp
        (show (execute (fun _ _ => True) (fun s e => ManagerEvent.step echoJansson s e)
            (.initial 1 1000)
            [.arrived threeSockets 0 (carrying (lit "DEV.0") serverIoTIP echoMessage)]).map
              (fun s => (s.manager.ruler.rules, s.manager.registedDevices))
          = some ([echoRule], []) by decide +kernel)
      obtain ⟨hrules, hdevices⟩ := Prod.mk.inj hq
      exact ⟨_, s, (run_of_execute hs).mono fun _ _ _ h => h.2, hrules, hdevices⟩
  | succ n ih =>
      obtain ⟨es, s, hrun, hrules, hdevices⟩ := ih (by omega)
      have hlist : withNumbered n s.manager.registedDevices = numberedDevices (n + 1) := by
        rw [hdevices, withNumbered_numberedDevices (by omega)]
      have hknown : addressKnown (lit "DEV.0") (numberedDevices (n + 1)) = true := by
        rw [addressKnown_iff (by rwa [length_numberedDevices]), numberedDevices_succ]
        exact ⟨by decide, List.mem_map.mpr
          ⟨_, List.mem_append_right _ (List.mem_singleton_self _), rfl⟩⟩
      have hkeeps : KeepsRules (withNumbered n s.manager.registedDevices)
          s.manager.ruler.rules := by
        intro r hr
        rw [hrules, List.mem_singleton] at hr
        rw [hlist, hr]
        exact Bool.and_eq_true_iff.mpr ⟨hknown, hknown⟩
      have hcount : n < 2 ^ 31 := by omega
      obtain ⟨s', hstep, hs'⟩ :=
        dispatchPackage_numbered notNumbered_echoMessage hcount threeSockets hkeeps
      have hlast :
          ManagerEvent.step echoJansson s (.arrived threeSockets 0 (numbered n)) = .ok s' := by
        rw [ManagerEvent.step, echoJansson, hstep]
      refine ⟨_, s', .snoc hrun hlast, ?_, ?_⟩
      · rw [hs']
        exact hrules
      · rw [hs']
        exact hlist

/-- The device that makes them `2 ^ 31` is registered. Both ends of the rule are on the
list, and the rule is removed. -/
theorem staleRules_overfull : ∃ (J : Jansson) (es : List ManagerEvent) (s : ManagerState)
    (root : JsonRoot) (m' : IoTManager) (done : List Effect),
    Run (fun s e s' => ManagerEvent.step J s e = .ok s') (.initial 1 1000) es s ∧
      s.manager.ruler.rules = [echoRule] ∧
      addNewDevice J (lit "DEV.0") root 0 s.manager = .ok (m', done) ∧
      Current m'.registedDevices echoRule ∧ m'.ruler.rules = [] := by
  obtain ⟨es, s, hrun, hrules, hdevices⟩ := echo_run (n := 2 ^ 31 - 1) (by omega)
  have hregisters : Registers echoJansson (deviceMessage (showInt (2 ^ 31 - 1 : Nat)))
      (lit "DEV.0") 0 (numberedDevice (2 ^ 31 - 1)) :=
    ⟨rfl, rfl, rfl, rfl, dumpStrings_numbered _⟩
  have hlist : withoutDevice (numberedDevice (2 ^ 31 - 1)).deviceID s.manager.registedDevices
      ++ [numberedDevice (2 ^ 31 - 1)] = numberedDevices (2 ^ 31 - 1 + 1) := by
    rw [hdevices]
    exact withNumbered_numberedDevices (by omega)
  have hlength : (numberedDevices (2 ^ 31 - 1 + 1)).length = 2 ^ 31 := length_numberedDevices _
  have hnone : bothKnown (numberedDevices (2 ^ 31 - 1 + 1)) echoRule = false := by
    rw [bothKnown, addressKnown, findDeviceIndexByIoTIp,
      visible_eq_nil hlength.ge (by rw [hlength]; omega)]
    rfl
  refine ⟨_, es, s, _, _, _, hrun, hrules, addNewDevice_eq (ruleIds_run hrun) hregisters, ?_, ?_⟩
  · dsimp only
    rw [hlist, numberedDevices_succ]
    have hend : echoRule.rule.readFrom ∈ (numberedDevices (2 ^ 31 - 1)
        ++ [numberedDevice (2 ^ 31 - 1)]).map (·.iotIp) :=
      List.mem_map.mpr ⟨_, List.mem_append_right _ (List.mem_singleton_self _), rfl⟩
    exact ⟨⟨by decide, hend⟩, ⟨by decide, hend⟩⟩
  · dsimp only
    rw [hlist, hrules, List.filter_cons_of_neg (by rw [hnone]; decide), List.filter_nil]

end IoTRepublic
