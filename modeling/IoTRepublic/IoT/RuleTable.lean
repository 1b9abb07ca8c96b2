import IoTRepublic.IoT.ManagerSpec
import IoTRepublic.Lib.Transition

/-!
# IoTRepublic.IoT.RuleTable

The table of rules over whole runs of the manager.

A scan is a map: every rule is replaced by `scannedRule` of itself, and the
requests that go out are those of the rules that were due, in the order of the
table (`scanRules_eq`). The ids are handed out by a counter and never used twice
(`RuleIds`), which is what allows the rest of the program to find a rule by its id.

From here on runs of the manager are considered without the server: a `ManagerEvent` is a
scan, a package that has arrived or a denied connection, and each of them does one of a
few things to the table (`RulerStep`). An invariant of the table is proved for those few
and lifted to runs once.

Two invariants of the ids come of it: they are distinct (`ruleIds_run`), and there are
never more of them than an `int` counts (`visible_rules_run`).
-/

namespace IoTRepublic

open Cpp JsonUtility IoTUtility Transition

/-! ### A scan, in closed form -/

namespace Ruler

/-- The rule after `excuteReadRule` of the manager. -/
def askedRule (r : RuleInstance) : RuleInstance :=
  if 0 < r.rule.readFrom.length ∧ 0 < r.rule.writeTo.length then
    { r with isWaitingResponse := true }
  else r

/-- The rule after a scan: asked and wound up again if its time had come, else closer to
it by a period. -/
def scannedRule (actionFrequency : Int) (r : RuleInstance) : RuleInstance :=
  if r.waitingTimeMs ≤ 0 then askedRule { r with waitingTimeMs := r.rule.actionFrequency }
  else { r with waitingTimeMs := r.waitingTimeMs - actionFrequency }

@[simp] theorem askedRule_ruleID (r : RuleInstance) : (askedRule r).ruleID = r.ruleID := by
  unfold askedRule
  split <;> rfl

@[simp] theorem askedRule_rule (r : RuleInstance) : (askedRule r).rule = r.rule := by
  unfold askedRule
  split <;> rfl

@[simp] theorem askedRule_waitingTimeMs (r : RuleInstance) :
    (askedRule r).waitingTimeMs = r.waitingTimeMs := by
  unfold askedRule
  split <;> rfl

theorem askedRule_isWaitingResponse (r : RuleInstance) :
    (askedRule r).isWaitingResponse = true ↔
      r.isWaitingResponse = true ∨ 0 < r.rule.readFrom.length ∧ 0 < r.rule.writeTo.length := by
  unfold askedRule
  split
  · rename_i h
    simp [h]
  · rename_i h
    simp [h]

@[simp] theorem scannedRule_ruleID (actionFrequency : Int) (r : RuleInstance) :
    (scannedRule actionFrequency r).ruleID = r.ruleID := by
  unfold scannedRule
  split <;> simp

@[simp] theorem scannedRule_rule (actionFrequency : Int) (r : RuleInstance) :
    (scannedRule actionFrequency r).rule = r.rule := by
  unfold scannedRule
  split <;> simp

theorem scannedRule_waitingTimeMs (actionFrequency : Int) (r : RuleInstance) :
    (scannedRule actionFrequency r).waitingTimeMs =
      if r.waitingTimeMs ≤ 0 then r.rule.actionFrequency
      else r.waitingTimeMs - actionFrequency := by
  unfold scannedRule
  split <;> simp

theorem scannedRule_isWaitingResponse (actionFrequency : Int) (r : RuleInstance) :
    (scannedRule actionFrequency r).isWaitingResponse = true ↔
      r.isWaitingResponse = true ∨
        r.waitingTimeMs ≤ 0 ∧ 0 < r.rule.readFrom.length ∧ 0 < r.rule.writeTo.length := by
  unfold scannedRule
  split
  · rename_i h
    rw [askedRule_isWaitingResponse]
    simp [h]
  · rename_i h
    simp [h]

end Ruler

open Ruler

namespace IoTManager

variable {J : Jansson} {server : TcpServer}

/-! ### Who a package is sent to -/

/-- The device with an address, and its descriptor, if something sent to it is sent
at all. -/
def target (server : TcpServer) (iotIp : Text) (m : IoTManager) : Option (IoTDeviceInfo × Int) := do
  let targetIndex ← findDeviceIndexByIoTIp iotIp m.registedDevices
  let device ← m.registedDevices[targetIndex]?
  let socket ← server.clientSockets[device.socketIndex]?
  if 0 < socket then some (device, socket) else none

theorem sendToDevice_eq_target {iotIp : Text} {buffer : List Byte} {m : IoTManager}
    {sent : Option (IoTDeviceInfo × Int)} (h : sendToDevice server iotIp buffer m = .ok sent) :
    sent = target server iotIp m := by
  unfold sendToDevice at h
  split at h
  · rename_i hfind
    obtain rfl := Except.ok.inj h
    simp [target, hfind]
  · rename_i targetIndex hfind
    obtain ⟨device, hdevice, h⟩ := bind_ok_iff.mp h
    obtain ⟨socket, hsocket, h⟩ := bind_ok_iff.mp h
    obtain rfl := Except.ok.inj h
    obtain ⟨fd, hfd, hsocket⟩ := bind_ok_iff.mp hsocket
    simp only [target, hfind, vectorAt_nat_ok_iff.mp hdevice, vectorAt_nat_ok_iff.mp hfd,
      Option.bind_eq_bind, Option.bind_some]
    split at hsocket
    · obtain ⟨_, -, hsocket⟩ := bind_ok_iff.mp hsocket
      obtain rfl := Except.ok.inj hsocket
      simp [*]
    · obtain rfl := Except.ok.inj hsocket
      simp [*]

theorem iotIp_of_target {iotIp : Text} {m : IoTManager} {device : IoTDeviceInfo} {fd : Int}
    (h : target server iotIp m = some (device, fd)) : device.iotIp = iotIp := by
  obtain ⟨targetIndex, hfind, h⟩ := Option.bind_eq_some_iff.mp h
  obtain ⟨device', hdevice, h⟩ := Option.bind_eq_some_iff.mp h
  obtain ⟨socket, -, h⟩ := Option.bind_eq_some_iff.mp h
  split at h
  · obtain ⟨rfl, -⟩ := Prod.mk.inj (Option.some.inj h)
    obtain ⟨found, hfound, hip⟩ := getElem?_of_findDeviceIndexByIoTIp hfind
    obtain rfl := Option.some.inj (hfound.symm.trans hdevice)
    exact hip
  · simp at h

/-! ### The scan of the manager -/

/-- The requests a scan sends for a rule: one if the rule is due and reads a device,
whether or not the device can be reached. -/
def requestsOf (server : TcpServer) (m : IoTManager) (r : RuleInstance) : List Effect :=
  if r.waitingTimeMs ≤ 0 ∧ 0 < r.rule.readFrom.length then
    [.readRequested (scannedRule m.ruler.actionFrequency r) (target server r.rule.readFrom m)]
  else []

theorem excuteReadRule_eq {m : IoTManager} {r r' : RuleInstance} {done : List Effect}
    (h : excuteReadRule J server m r = .ok (r', done)) :
    r' = askedRule r ∧
      done = if 0 < r.rule.readFrom.length then
        [.readRequested r' (target server r.rule.readFrom m)] else [] := by
  unfold excuteReadRule at h
  split at h
  · rename_i hfrom
    dsimp only at h
    obtain ⟨cmd, -, h⟩ := bind_ok_iff.mp h
    obtain ⟨package, -, h⟩ := bind_ok_iff.mp h
    obtain ⟨sent, hsent, h⟩ := bind_ok_iff.mp h
    obtain ⟨rfl, rfl⟩ := Prod.mk.inj (Except.ok.inj h)
    have htarget := sendToDevice_eq_target hsent
    by_cases hto : 0 < r.rule.writeTo.length
    · simp only [hto, if_true] at htarget ⊢
      simp [askedRule, hfrom, hto, htarget]
    · simp only [hto, if_false] at htarget ⊢
      simp [askedRule, hfrom, hto, htarget]
  · rename_i hfrom
    obtain ⟨rfl, rfl⟩ := Prod.mk.inj (Except.ok.inj h)
    simp [askedRule, hfrom]

theorem scanRule_eq {m : IoTManager} {r r' : RuleInstance} {done : List Effect}
    (h : Ruler.scanRule (excuteReadRule J server m) m.ruler.actionFrequency r = .ok (r', done)) :
    r' = scannedRule m.ruler.actionFrequency r ∧ done = requestsOf server m r := by
  unfold Ruler.scanRule at h
  split at h
  · rename_i hdue
    obtain ⟨rfl, rfl⟩ := excuteReadRule_eq h
    simp [scannedRule, requestsOf, hdue]
  · rename_i hdue
    obtain ⟨waitingTimeMs, hwait, h⟩ := bind_ok_iff.mp h
    obtain ⟨rfl, rfl⟩ := Prod.mk.inj (Except.ok.inj h)
    obtain ⟨-, rfl⟩ := addInt_ok_iff.mp hwait
    simp [scannedRule, requestsOf, hdue, Int.sub_eq_add_neg]

theorem rulerScanRules_eq {m : IoTManager} {rules rules' : List RuleInstance} {done : List Effect}
    (h : Ruler.scanRules (excuteReadRule J server m) m.ruler.actionFrequency rules
      = .ok (rules', done)) :
    rules' = rules.map (scannedRule m.ruler.actionFrequency) ∧
      done = rules.flatMap (requestsOf server m) := by
  induction rules generalizing rules' done with
  | nil =>
      obtain ⟨rfl, rfl⟩ := Prod.mk.inj (Except.ok.inj h)
      exact ⟨rfl, rfl⟩
  | cons r rules ih =>
      obtain ⟨⟨r', doneHere⟩, hr, h⟩ := bind_ok_iff.mp h
      obtain ⟨⟨rules₁, doneLater⟩, hrules, h⟩ := bind_ok_iff.mp h
      obtain ⟨rfl, rfl⟩ := Prod.mk.inj (Except.ok.inj h)
      obtain ⟨rfl, rfl⟩ := scanRule_eq hr
      obtain ⟨rfl, rfl⟩ := ih hrules
      exact ⟨rfl, rfl⟩

/-- **A scan of the manager**, in closed form: a map over the rules, and the requests of
those that were due. -/
theorem scanRules_eq {m m' : IoTManager} {done : List Effect}
    (h : scanRules J server m = .ok (m', done)) :
    m' = { m with ruler := { m.ruler with
        rules := m.ruler.rules.map (scannedRule m.ruler.actionFrequency) } } ∧
      done = m.ruler.rules.flatMap (requestsOf server m) := by
  obtain ⟨⟨rules, done'⟩, hscan, h⟩ := bind_ok_iff.mp h
  obtain ⟨rfl, rfl⟩ := Prod.mk.inj (Except.ok.inj h)
  obtain ⟨rfl, rfl⟩ := rulerScanRules_eq hscan
  exact ⟨rfl, rfl⟩

theorem mem_requests_iff {m : IoTManager} {e : Effect} {rules : List RuleInstance} :
    e ∈ rules.flatMap (requestsOf server m) ↔
      ∃ r ∈ rules, (r.waitingTimeMs ≤ 0 ∧ 0 < r.rule.readFrom.length) ∧
        e = .readRequested (scannedRule m.ruler.actionFrequency r)
          (target server r.rule.readFrom m) := by
  rw [List.mem_flatMap]
  refine exists_congr fun r => and_congr_right fun _ => ?_
  unfold requestsOf
  split
  · rename_i h
    simp [h]
  · rename_i h
    simp [h]

end IoTManager

/-! ### What an event does to the table -/

/-- What can happen to the rules. The server is the one the handler sees, with
whatever connections there are by then. -/
inductive ManagerEvent
  | scanned (server : TcpServer)
  | arrived (server : TcpServer) (socketIndex : Nat) (package : IoTPackage)
  | denied (socketIndex : Nat)

namespace ManagerEvent

/-- The manager's reaction. -/
def step (J : Jansson) (s : ManagerState) : ManagerEvent → Except Fault ManagerState
  | scanned server => s.scan J server
  | arrived server socketIndex package => s.dispatchPackage J server socketIndex package
  | denied socketIndex => s.eventConnectionDenied socketIndex

end ManagerEvent

/-- The effect has to do with no rule. -/
def Effect.RuleQuiet : Effect → Prop
  | .readRequested _ _ => False
  | .ruleWritten _ _ _ => False
  | _ => True

/-- The action has to do with no rule. -/
def RuleQuiet : Action → Prop
  | .effect e => e.RuleQuiet
  | _ => True

/-- What one event does to the table of rules, with the actions it adds to the time
line. -/
inductive RulerStep (ruler ruler' : Ruler) (tail : List Action) : Prop
  /-- Rules may have gone; the others are as they were. -/
  | kept (rules : List RuleInstance) (hrules : rules.Sublist ruler.rules)
      (hruler : ruler' = { ruler with rules := rules }) (hquiet : ∀ a ∈ tail, RuleQuiet a)
  | added (rule : IoTRule) (hadd : Ruler.addRule rule ruler = .ok ruler')
      (hquiet : ∀ a ∈ tail, RuleQuiet a)
  | scanned (server : TcpServer) (m : IoTManager) (hm : m.ruler = ruler)
      (hruler : ruler' =
        { ruler with rules := ruler.rules.map (scannedRule ruler.actionFrequency) })
      (htail : tail =
        .scanned :: (ruler.rules.flatMap (IoTManager.requestsOf server m)).map .effect)
  /-- The first rule that waits for the command is written. -/
  | answered (before after : List RuleInstance) (r : RuleInstance) (cmd : IoTCommand)
      (sent : Option (IoTDeviceInfo × Int)) (socketIndex : Nat) (package : IoTPackage)
      (hrules : ruler.rules = before ++ r :: after) (hbefore : ∀ x ∈ before, ¬ Answers cmd x)
      (hanswers : Answers cmd r)
      (hruler : ruler' =
        { ruler with rules := before ++ { r with isWaitingResponse := false } :: after })
      (htail : tail = [.extracted socketIndex package,
        .effect (.ruleWritten { r with isWaitingResponse := false } cmd.value sent)])

section Steps

variable {J : Jansson} {s s' : ManagerState}

theorem rulerStep_dispatchPackage {server : TcpServer} {socketIndex : Nat} {package : IoTPackage}
    (h : s.dispatchPackage J server socketIndex package = .ok s') :
    ∃ done : List Effect, s'.log = s.log ++ .extracted socketIndex package :: done.map .effect ∧
      RulerStep s.manager.ruler s'.manager.ruler
        (.extracted socketIndex package :: done.map .effect) := by
  obtain ⟨⟨manager, done⟩, hdispatch, h⟩ := bind_ok_iff.mp h
  obtain rfl := Except.ok.inj h
  refine ⟨done, rfl, ?_⟩
  have hkept : ∀ rules : List RuleInstance, rules.Sublist s.manager.ruler.rules →
      (∀ e ∈ done, e.RuleQuiet) →
      RulerStep s.manager.ruler { s.manager.ruler with rules := rules }
        (.extracted socketIndex package :: done.map .effect) := fun rules hrules hquiet =>
    .kept rules hrules rfl (forall_mem_cons_effects trivial hquiet)
  cases IoTManager.dispatch_cases hdispatch with
  | ignored hm hdone =>
      subst hm
      exact hkept _ (List.Sublist.refl _) (by simp [hdone])
  | answered ipCount socket buffer hm hdone =>
      subst hm
      exact hkept _ (List.Sublist.refl _) (by simp [hdone, Effect.RuleQuiet])
  | registered device rules hslot hrules hm hdone =>
      subst hm
      exact hkept _ hrules (by simp [hdone, Effect.RuleQuiet])
  | forwarded device socket hm hmem hsent hdone =>
      subst hm
      exact hkept _ (List.Sublist.refl _) (by simp [hdone, Effect.RuleQuiet])
  | ruleAdded rule ruler hadd hm hdone =>
      subst hm hdone
      exact .added rule hadd (forall_mem_cons_effects trivial (by simp))
  | commanded cmd rules hcmd hrules hm =>
      subst hm
      rcases Ruler.handleRulerCommand_cases hrules with
        ⟨-, rfl, rfl⟩ | ⟨before, r, after, hsplit, hbefore, hanswers, rfl, hwrite⟩
      · exact hkept _ (List.Sublist.refl _) (by simp)
      · obtain ⟨sent, rfl⟩ := IoTManager.excuteWriteRule_done hwrite
        exact .answered before after r cmd sent socketIndex package hsplit hbefore hanswers rfl rfl

/-- **Every event does one of these.** Invariants of the table are proved against the four
cases, and never against the handlers. -/
theorem ManagerEvent.step_cases {e : ManagerEvent} (h : e.step J s = .ok s') :
    ∃ tail, s'.log = s.log ++ tail ∧ RulerStep s.manager.ruler s'.manager.ruler tail := by
  cases e with
  | scanned server =>
      obtain ⟨⟨manager, done⟩, hscan, h⟩ := bind_ok_iff.mp h
      obtain rfl := Except.ok.inj h
      obtain ⟨rfl, rfl⟩ := IoTManager.scanRules_eq hscan
      exact ⟨_, rfl, .scanned server s.manager rfl rfl rfl⟩
  | arrived server socketIndex package =>
      obtain ⟨done, hlog, hruler⟩ := rulerStep_dispatchPackage h
      exact ⟨_, hlog, hruler⟩
  | denied socketIndex =>
      obtain ⟨rules, hrules, rfl⟩ := ManagerState.eventConnectionDenied_cases h
      refine ⟨_, rfl, .kept rules hrules rfl fun a ha => ?_⟩
      obtain rfl := List.mem_singleton.mp ha
      trivial

end Steps

/-! ### Ids -/

/-- No event makes new ids but the one that adds a rule. -/
theorem RulerStep.ids_cases {ruler ruler' : Ruler} {tail : List Action}
    (h : RulerStep ruler ruler' tail) :
    ((ruler'.rules.map (·.ruleID)).Sublist (ruler.rules.map (·.ruleID))
      ∧ ruler'.nextRuleId = ruler.nextRuleId)
      ∨ ∃ rule, Ruler.addRule rule ruler = .ok ruler' := by
  cases h with
  | kept rules hrules hruler hquiet =>
      subst hruler
      exact .inl ⟨hrules.map _, rfl⟩
  | added rule hadd hquiet => exact .inr ⟨rule, hadd⟩
  | scanned server m hm hruler htail =>
      subst hruler
      refine .inl ⟨?_, rfl⟩
      simp [Function.comp_def]
  | answered before after r cmd sent socketIndex package hrules hbefore hanswers hruler htail =>
      subst hruler
      refine .inl ⟨?_, rfl⟩
      simp [hrules]

/-- The ids of the rules are distinct, and smaller than the next one. -/
structure RuleIds (ruler : Ruler) : Prop where
  below : ∀ id ∈ ruler.rules.map (·.ruleID), id < ruler.nextRuleId
  distinct : (ruler.rules.map (·.ruleID)).Nodup

namespace RuleIds

variable {ruler ruler' : Ruler} (h : RuleIds ruler)

include h

theorem of_sublist (hrules : (ruler'.rules.map (·.ruleID)).Sublist (ruler.rules.map (·.ruleID)))
    (hnext : ruler'.nextRuleId = ruler.nextRuleId) : RuleIds ruler' where
  below := fun id hid => hnext ▸ h.below id (hrules.subset hid)
  distinct := hrules.nodup h.distinct

theorem addRule {rule : IoTRule} (hadd : Ruler.addRule rule ruler = .ok ruler') :
    RuleIds ruler' := by
  obtain rfl := Ruler.addRule_eq hadd
  constructor
  · intro id hid
    rw [List.map_append, List.mem_append] at hid
    rcases hid with hid | hid
    · have := h.below id hid
      dsimp only
      omega
    · obtain rfl : id = ruler.nextRuleId := by simpa using hid
      dsimp only
      omega
  · rw [nodup_map_concat_iff]
    exact ⟨h.distinct, fun r hr => (h.below r.ruleID (List.mem_map_of_mem hr)).ne⟩

theorem step {tail : List Action} (hstep : RulerStep ruler ruler' tail) : RuleIds ruler' := by
  rcases hstep.ids_cases with ⟨hrules, hnext⟩ | ⟨rule, hadd⟩
  · exact h.of_sublist hrules hnext
  · exact h.addRule hadd

/-- Two rules with one id are one rule. -/
theorem eq_of_ruleID {r r' : RuleInstance} (hr : r ∈ ruler.rules) (hr' : r' ∈ ruler.rules)
    (hid : r.ruleID = r'.ruleID) : r = r' :=
  List.inj_on_of_nodup_map h.distinct hr hr' hid

end RuleIds

theorem ruleIds_initial (maxClient : Nat) (actionFrequency : Int) :
    RuleIds (ManagerState.initial maxClient actionFrequency).manager.ruler where
  below := by simp [ManagerState.initial]
  distinct := List.nodup_nil

/-- **Ids are distinct in every run**, however rules come and go. -/
theorem ruleIds_run {J : Jansson} {maxClient : Nat} {actionFrequency : Int}
    {es : List ManagerEvent} {s : ManagerState}
    (h : Run (fun s e s' => ManagerEvent.step J s e = .ok s') (.initial maxClient actionFrequency)
      es s) :
    RuleIds s.manager.ruler := by
  refine h.invariant (I := fun s => RuleIds s.manager.ruler) (ruleIds_initial _ _) ?_
  intro s e s' hs hstep
  obtain ⟨tail, -, hruler⟩ := ManagerEvent.step_cases hstep
  exact hs.step hruler

/-! ### The number of rules -/

/-- The ids come out of a counter that starts at zero and is an `int`. -/
structure RulesCounted (ruler : Ruler) : Prop extends RuleIds ruler where
  nonneg : ∀ id ∈ ruler.rules.map (·.ruleID), 0 ≤ id
  counter : 0 ≤ ruler.nextRuleId ∧ ruler.nextRuleId < 2 ^ 31

namespace RulesCounted

variable {ruler ruler' : Ruler}

theorem step {tail : List Action} (h : RulesCounted ruler) (hstep : RulerStep ruler ruler' tail) :
    RulesCounted ruler' := by
  refine { toRuleIds := h.toRuleIds.step hstep, nonneg := ?_, counter := ?_ }
  · rcases hstep.ids_cases with ⟨hrules, -⟩ | ⟨rule, hadd⟩
    · exact fun id hid => h.nonneg id (hrules.subset hid)
    · obtain rfl := Ruler.addRule_eq hadd
      intro id hid
      rw [List.map_append, List.mem_append] at hid
      rcases hid with hid | hid
      · exact h.nonneg id hid
      · obtain rfl : id = ruler.nextRuleId := by simpa using hid
        exact h.counter.1
  · rcases hstep.ids_cases with ⟨-, hnext⟩ | ⟨rule, hadd⟩
    · exact hnext ▸ h.counter
    · have hint := Ruler.returns_addRule_iff.mp ⟨_, hadd⟩
      obtain rfl := Ruler.addRule_eq hadd
      exact ⟨Int.le_add_one h.counter.1, hint.2⟩

/-- Distinct ids below the counter are no more than it has counted. -/
theorem length_lt (h : RulesCounted ruler) : ruler.rules.length < 2 ^ 31 := by
  have hsub : (ruler.rules.map (·.ruleID)).toFinset ⊆ Finset.Ico 0 ruler.nextRuleId := by
    intro id hid
    have hmem := List.mem_toFinset.mp hid
    exact Finset.mem_Ico.mpr ⟨h.nonneg id hmem, h.below id hmem⟩
  have hcard := Finset.card_le_card hsub
  rw [List.toFinset_card_of_nodup h.distinct, List.length_map, Int.card_Ico] at hcard
  have := h.counter
  omega

end RulesCounted

/-- **An `int` counts the rules**, in every state of every run, so the loops up to
`int ruleCount`, which the model runs over the whole table, leave none of them out. -/
theorem visible_rules_run {J : Jansson} {maxClient : Nat} {actionFrequency : Int}
    {es : List ManagerEvent} {s : ManagerState}
    (h : Run (fun s e s' => ManagerEvent.step J s e = .ok s') (.initial maxClient actionFrequency)
      es s) :
    visible s.manager.ruler.rules = s.manager.ruler.rules := by
  have hcounted : RulesCounted s.manager.ruler := by
    refine h.invariant (I := fun s => RulesCounted s.manager.ruler) ?_ ?_
    · exact {
        toRuleIds := ruleIds_initial maxClient actionFrequency
        nonneg := by simp [ManagerState.initial]
        counter := ⟨le_refl _, by norm_num [ManagerState.initial]⟩ }
    · intro s e s' hs hstep
      obtain ⟨tail, -, hruler⟩ := ManagerEvent.step_cases hstep
      exact hs.step hruler
  exact visible_of_lt hcounted.length_lt

end IoTRepublic
