import IoTRepublic.IoT.RegistrySound
import IoTRepublic.IoT.RuleTable

/-!
# IoTRepublic.IoT.RulerSound

Where the values the rules write come from.

A rule waits for an answer from the device it reads, but `handleRulerCommand`
takes any command with the right component ID for it: neither the sender nor the
type of the command is looked at, and a rule waits even when its request was never
sent. `writtenRightly_run` shows that these are the only ways to go wrong: in a run
that steps into neither, every value written was asked for and comes from the
rule's own device. What has to be avoided is said about the table before the event
(`RequestsSent`, `Expected`), and for packages it is exact. Where two waiting rules
read one component of two devices, the order in which these answer decides, so no
condition on the packages alone would do. `written_from_other_device` is a run in
which the second answers first. Seen from the devices, a response goes right if every
request for its component that is still open on the time line went to its sender
(`OpenRequest`): which rule takes it does not matter then.
-/

namespace IoTRepublic

open Cpp JsonUtility IoTUtility Transition Ruler

/-- The effect is no write of a rule. -/
def Effect.NoWrite : Effect → Prop
  | .ruleWritten _ _ _ => False
  | _ => True

namespace IoTManager

variable {J : Jansson} {server : TcpServer}

/-! ### A scan -/

/-- A rule that starts to wait in a scan can be asked for its value: its device is
registered, and connected. -/
def RequestsSent (server : TcpServer) (m : IoTManager) : Prop :=
  ∀ r ∈ m.ruler.rules, r.isWaitingResponse = false → r.waitingTimeMs ≤ 0 →
    0 < r.rule.readFrom.length → 0 < r.rule.writeTo.length →
    (target server r.rule.readFrom m).isSome

instance (server : TcpServer) (m : IoTManager) : Decidable (RequestsSent server m) :=
  inferInstanceAs (Decidable (∀ r ∈ _, _ → _ → _ → _ → _))

/-- The request for a value of the rule is among the effects. -/
def RequestedIn (r : RuleInstance) (done : List Effect) : Prop :=
  ∃ r' device fd, Effect.readRequested r' (some (device, fd)) ∈ done ∧ r'.ruleID = r.ruleID ∧
    r'.rule = r.rule ∧ device.iotIp = r.rule.readFrom

/-- `r'` is the rule `r` after a scan; if it has started to wait, it has been asked
for. -/
def ScannedAs (done : List Effect) (r r' : RuleInstance) : Prop :=
  r'.ruleID = r.ruleID ∧ r'.rule = r.rule ∧
    (r'.isWaitingResponse = true → r.isWaitingResponse = true ∨ RequestedIn r done)

/-- A rule that starts to wait has been asked for in the same scan. -/
theorem scannedAs_scannedRule {m : IoTManager} (hsent : RequestsSent server m) {r : RuleInstance}
    (hmem : r ∈ m.ruler.rules) :
    ScannedAs (m.ruler.rules.flatMap (requestsOf server m)) r
      (scannedRule m.ruler.actionFrequency r) := by
  refine ⟨scannedRule_ruleID .., scannedRule_rule .., fun hw => ?_⟩
  rcases Bool.eq_false_or_eq_true r.isWaitingResponse with hw' | hw'
  · exact .inl hw'
  rcases (scannedRule_isWaitingResponse ..).mp hw with hw | ⟨hdue, hfrom, hto⟩
  · exact .inl hw
  · obtain ⟨⟨device, fd⟩, htarget⟩ :=
      Option.isSome_iff_exists.mp (hsent r hmem hw' hdue hfrom hto)
    have hreq : Effect.readRequested (scannedRule m.ruler.actionFrequency r) (some (device, fd))
        ∈ m.ruler.rules.flatMap (requestsOf server m) :=
      mem_requests_iff.mpr ⟨r, hmem, ⟨hdue, hfrom⟩, by rw [htarget]⟩
    exact .inr ⟨_, device, fd, hreq, scannedRule_ruleID .., scannedRule_rule ..,
      iotIp_of_target htarget⟩

/-! ### An answer -/

/-- The sender is a device whose answer to the command's component comes next: every
rule that waits for it reads the sender, or stands behind one that waits for it and
does. -/
def NextToAnswer (cmd : IoTCommand) (sender : Text) (rules : List RuleInstance) : Prop :=
  ∀ i, ∀ _ : i < rules.length, Answers cmd rules[i] →
    ∃ x ∈ rules.take (i + 1), Answers cmd x ∧ x.rule.readFrom = sender

instance (cmd : IoTCommand) (sender : Text) (rules : List RuleInstance) :
    Decidable (NextToAnswer cmd sender rules) :=
  inferInstanceAs (Decidable (∀ i, ∀ _ : i < rules.length, _ → ∃ x ∈ _, _))

/-- If a rule waits for the command, then for a response, and from the sender. -/
def Expected (cmd : IoTCommand) (sender : Text) (rules : List RuleInstance) : Prop :=
  (∃ r ∈ rules, Answers cmd r) →
    cmd.cmdType = some .readResponse ∧ NextToAnswer cmd sender rules

instance (cmd : IoTCommand) (sender : Text) (rules : List RuleInstance) :
    Decidable (Expected cmd sender rules) := inferInstanceAs (Decidable (_ → _ ∧ _))

section Answer

variable {cmd : IoTCommand} {sender : Text} {rules before after : List RuleInstance}
  {r : RuleInstance}

/-- The first rule that waits for the command is the one that has to read the sender. -/
theorem nextToAnswer_iff (hrules : rules = before ++ r :: after)
    (hbefore : ∀ x ∈ before, ¬ Answers cmd x) (hr : Answers cmd r) :
    NextToAnswer cmd sender rules ↔ r.rule.readFrom = sender := by
  subst hrules
  have htake : (before ++ r :: after).take (before.length + 1) = before ++ [r] := by
    rw [List.take_append, List.take_of_length_le (Nat.le_succ _), Nat.add_sub_cancel_left]
    rfl
  constructor
  · intro h
    obtain ⟨x, hx, hanswers, hfrom⟩ := h before.length (by simp) (by simpa using hr)
    rw [htake, List.mem_append, List.mem_singleton] at hx
    rcases hx with hx | rfl
    · exact absurd hanswers (hbefore x hx)
    · exact hfrom
  · intro hfrom i hi hanswers
    have hle : before.length ≤ i := by
      by_contra hlt
      rw [List.getElem_append_left (by omega)] at hanswers
      exact hbefore _ (List.getElem_mem _) hanswers
    refine ⟨r, ?_, hr, hfrom⟩
    have hmem : r ∈ (before ++ r :: after).take (before.length + 1) := by
      rw [htake]
      exact List.mem_append_right _ (List.mem_singleton_self r)
    exact (List.take_prefix_take_left (Nat.succ_le_succ hle)).subset hmem

/-- Every rule is among the rules up to itself. -/
theorem mem_take_succ {i : Nat} (hi : i < rules.length) : rules[i] ∈ rules.take (i + 1) := by
  rw [List.take_succ_eq_append_getElem hi]
  exact List.mem_append_right _ (List.mem_singleton_self _)

/-- Any device that was asked may answer next if, and only if, the rules that wait read
one device. -/
theorem forall_nextToAnswer_iff :
    (∀ r ∈ rules, Answers cmd r → NextToAnswer cmd r.rule.readFrom rules) ↔
      ∀ r ∈ rules, ∀ r' ∈ rules, Answers cmd r → Answers cmd r' →
        r.rule.readFrom = r'.rule.readFrom := by
  constructor
  · intro h r hr r' hr' hanswers hanswers'
    have hexists : (rules.find? (Answers cmd ·)).isSome :=
      List.find?_isSome.mpr ⟨r, hr, decide_eq_true hanswers⟩
    obtain ⟨first, hfirst⟩ := Option.isSome_iff_exists.mp hexists
    obtain ⟨hfirst, before, after, hsplit, hbefore⟩ := List.find?_eq_some_iff_append.mp hfirst
    have hnext : ∀ sender, NextToAnswer cmd sender rules ↔ first.rule.readFrom = sender :=
      fun sender => nextToAnswer_iff hsplit (fun x hx => by simpa using hbefore x hx)
        (of_decide_eq_true hfirst)
    exact ((hnext _).mp (h r hr hanswers)).symm.trans ((hnext _).mp (h r' hr' hanswers'))
  · intro h r hr hanswers i hi hi'
    refine ⟨rules[i], mem_take_succ hi, hi', ?_⟩
    exact h _ (List.getElem_mem hi) r hr hi' hanswers

end Answer

end IoTManager

/-! ### The time line of a rule -/

open IoTManager

/-- The action is no write of the rule with this id. -/
def KeepsRule (id : Int) : Action → Prop
  | .effect (.ruleWritten r _ _) => r.ruleID ≠ id
  | _ => True

/-- The device the rule reads has been asked for a value, and nothing has been
written for the rule since. -/
def Requested (r : RuleInstance) (past : List Action) : Prop :=
  ∃ before r' device fd after,
    past = before ++ .effect (.readRequested r' (some (device, fd))) :: after ∧
    r'.ruleID = r.ruleID ∧ r'.rule = r.rule ∧ device.iotIp = r.rule.readFrom ∧
    ∀ a ∈ after, KeepsRule r.ruleID a

/-- A write of a rule was triggered by a read response of the rule's device for the
rule's component, which the rule had asked for. -/
def WrittenRightly (J : Jansson) (past : List Action) : Action → Prop
  | .effect (.ruleWritten r writeValue _) =>
    ∃ before socketIndex package cmd, past = before ++ [.extracted socketIndex package] ∧
      rulerCommand J package = some cmd ∧ cmd.value = writeValue ∧
      package.sorIp = r.rule.readFrom ∧ cmd.cmdType = some .readResponse ∧
      cmd.id = r.rule.readID ∧ Requested r before
  | _ => True

theorem Requested.append {r : RuleInstance} {past : List Action} (h : Requested r past)
    {tail : List Action} (htail : ∀ a ∈ tail, KeepsRule r.ruleID a) :
    Requested r (past ++ tail) := by
  obtain ⟨before, r', device, fd, after, rfl, hid, hrule, hip, hafter⟩ := h
  refine ⟨before, r', device, fd, after ++ tail, by simp, hid, hrule, hip, fun a ha => ?_⟩
  rcases List.mem_append.mp ha with ha | ha
  · exact hafter a ha
  · exact htail a ha

/-- A device with the address has been asked for the component, and nothing has been
written since for the rule it was asked for. -/
def OpenRequest (past : List Action) (address id : Text) : Prop :=
  ∃ before r device fd after,
    past = before ++ .effect (.readRequested r (some (device, fd))) :: after ∧
    device.iotIp = address ∧ r.rule.readID = id ∧ ∀ a ∈ after, KeepsRule r.ruleID a

theorem Requested.openRequest {r : RuleInstance} {past : List Action} (h : Requested r past) :
    OpenRequest past r.rule.readFrom r.rule.readID := by
  obtain ⟨before, r', device, fd, after, hpast, hid, hrule, hip, hafter⟩ := h
  exact ⟨before, r', device, fd, after, hpast, hip, by rw [hrule], by rwa [hid]⟩

theorem Requested.congr {r r' : RuleInstance} {past : List Action} (h : Requested r past)
    (hid : r'.ruleID = r.ruleID) (hrule : r'.rule = r.rule) : Requested r' past := by
  unfold Requested
  rw [hid, hrule]
  exact h

/-- Actions without a write. -/
def Unwritten : Action → Prop
  | .effect e => e.NoWrite
  | _ => True

theorem Unwritten.keepsRule {a : Action} (h : Unwritten a) (id : Int) : KeepsRule id a := by
  cases a with
  | effect e =>
      cases e with
      | ruleWritten _ _ _ => exact h.elim
      | _ => exact trivial
  | _ => exact trivial

theorem Unwritten.writtenRightly {J : Jansson} {a : Action} (h : Unwritten a) (past : List Action) :
    WrittenRightly J past a := by
  cases a with
  | effect e =>
      cases e with
      | ruleWritten _ _ _ => exact h.elim
      | _ => exact trivial
  | _ => exact trivial

/-- A scan writes nothing. -/
theorem scan_unwritten {server : TcpServer} {m : IoTManager} {rules : List RuleInstance} :
    ∀ a ∈ Action.scanned :: (rules.flatMap (requestsOf server m)).map .effect, Unwritten a := by
  refine forall_mem_cons_effects trivial fun e he => ?_
  obtain ⟨r, -, -, rfl⟩ := mem_requests_iff.mp he
  trivial

/-- After a rule was answered there are the other rules, and this one waiting no more. -/
theorem mem_of_answered {before after : List RuleInstance} {r x : RuleInstance}
    (hids : ((before ++ r :: after).map (·.ruleID)).Nodup)
    (hx : x ∈ before ++ { r with isWaitingResponse := false } :: after) :
    x = { r with isWaitingResponse := false } ∨
      x ∈ before ++ r :: after ∧ r.ruleID ≠ x.ruleID := by
  rw [List.map_append, List.map_cons, List.nodup_append, List.nodup_cons] at hids
  obtain ⟨-, ⟨hafter, -⟩, hbefore⟩ := hids
  rcases List.mem_append.mp hx with hx | hx
  · refine .inr ⟨List.mem_append_left _ hx, fun heq => ?_⟩
    exact hbefore x.ruleID (List.mem_map_of_mem hx) r.ruleID (List.mem_cons_self ..) heq.symm
  · rcases List.mem_cons.mp hx with hx | hx
    · exact .inl hx
    · refine .inr ⟨List.mem_append_right _ (List.mem_cons_of_mem _ hx), fun heq => ?_⟩
      exact hafter (heq ▸ List.mem_map_of_mem hx)

/-- The rules and the time line: a rule that waits has been asked for since it was last
written, and every write so far was right. This is the invariant of the runs. -/
structure Tracked (J : Jansson) (ruler : Ruler) (log : List Action) : Prop where
  below : ∀ r ∈ ruler.rules, r.ruleID < ruler.nextRuleId
  distinct : (ruler.rules.map (·.ruleID)).Nodup
  waiting : ∀ r ∈ ruler.rules, r.isWaitingResponse = true → Requested r log
  written : AtEach (WrittenRightly J) log

namespace Tracked

variable {J : Jansson} {ruler : Ruler} {log : List Action}

theorem of_ruleIds (hids : RuleIds ruler)
    (waiting : ∀ r ∈ ruler.rules, r.isWaitingResponse = true → Requested r log)
    (written : AtEach (WrittenRightly J) log) : Tracked J ruler log where
  below := fun r hr => hids.below r.ruleID (List.mem_map_of_mem hr)
  distinct := hids.distinct
  waiting := waiting
  written := written

variable (h : Tracked J ruler log)

include h

theorem ruleIds : RuleIds ruler where
  below := List.forall_mem_map.mpr fun r hr => h.below r hr
  distinct := h.distinct

/-- Rules are removed, and nothing is written. -/
theorem keep {ruler' : Ruler} (hrules : ruler'.rules.Sublist ruler.rules)
    (hnext : ruler'.nextRuleId = ruler.nextRuleId) {tail : List Action}
    (htail : ∀ a ∈ tail, Unwritten a) : Tracked J ruler' (log ++ tail) := by
  refine of_ruleIds (h.ruleIds.of_sublist (hrules.map _) hnext) ?_ ?_
  · intro r hr hw
    exact (h.waiting r (hrules.subset hr) hw).append fun a ha => (htail a ha).keepsRule _
  · exact h.written.append fun a ha => (htail a ha).writtenRightly

/-- A rule is added, which does not wait. -/
theorem add {rule : IoTRule} {ruler' : Ruler} (hadd : Ruler.addRule rule ruler = .ok ruler')
    {tail : List Action} (htail : ∀ a ∈ tail, Unwritten a) : Tracked J ruler' (log ++ tail) := by
  refine of_ruleIds (h.ruleIds.addRule hadd) ?_ ?_
  · obtain rfl := Ruler.addRule_eq hadd
    intro r hr hw
    rcases List.mem_append.mp hr with hr | hr
    · exact (h.waiting r hr hw).append fun a ha => (htail a ha).keepsRule _
    · obtain rfl := List.mem_singleton.mp hr
      simp at hw
  · exact h.written.append fun a ha => (htail a ha).writtenRightly

/-- The rules are scanned. -/
theorem scan {server : TcpServer} {m : IoTManager} (hm : m.ruler = ruler)
    (hsent : RequestsSent server m) :
    Tracked J { ruler with rules := ruler.rules.map (scannedRule ruler.actionFrequency) }
      (log ++ .scanned :: (ruler.rules.flatMap (requestsOf server m)).map .effect) := by
  subst hm
  have htail : ∀ a ∈ Action.scanned ::
      (m.ruler.rules.flatMap (requestsOf server m)).map .effect, Unwritten a := scan_unwritten
  refine of_ruleIds (h.ruleIds.of_sublist ?_ rfl) ?_ ?_
  · simp [Function.comp_def]
  · intro r' hr' hw
    obtain ⟨r, hr, rfl⟩ := List.mem_map.mp hr'
    obtain ⟨hid, hrule, hwait⟩ := scannedAs_scannedRule hsent hr
    refine Requested.congr ?_ hid hrule
    rcases hwait hw with hw | ⟨r'', device, fd, hmem, hid'', hrule'', hip⟩
    · exact (h.waiting r hr hw).append fun a ha => (htail a ha).keepsRule _
    -- The request was sent by this scan, and a scan writes nothing after it.
    · obtain ⟨before, after, hsplit⟩ := List.append_of_mem hmem
      rw [hsplit] at htail ⊢
      refine ⟨log ++ .scanned :: before.map .effect, r'', device, fd, after.map .effect, by simp,
        hid'', hrule'', hip, fun a ha => ?_⟩
      refine (htail a ?_).keepsRule _
      rw [List.map_append, List.map_cons]
      exact List.mem_cons_of_mem _ (List.mem_append_right _ (List.mem_cons_of_mem _ ha))
  · exact h.written.append fun a ha => (htail a ha).writtenRightly

/-- A command is taken by the first rule that waits for its component. -/
theorem answer {server : TcpServer} {m : IoTManager} {socketIndex : Nat} {package : IoTPackage}
    {cmd : IoTCommand} {rules : List RuleInstance} {done : List Effect}
    (hcmd : rulerCommand J package = some cmd)
    (hexpected : Expected cmd package.sorIp ruler.rules)
    (hrules : Ruler.handleRulerCommand (excuteWriteRule J server m) cmd ruler.rules
      = .ok (rules, done)) :
    Tracked J { ruler with rules := rules }
      (log ++ .extracted socketIndex package :: done.map .effect) := by
  rcases Ruler.handleRulerCommand_cases hrules with
    ⟨-, rfl, rfl⟩ | ⟨before, r, after, hsplit, hbefore, ⟨hwait, hid⟩, rfl, hwrite⟩
  · refine h.keep (List.Sublist.refl _) rfl fun a ha => ?_
    obtain rfl := List.mem_singleton.mp ha
    trivial
  obtain ⟨sent, rfl⟩ := excuteWriteRule_done hwrite
  have hmem : r ∈ ruler.rules := hsplit ▸ List.mem_append_right _ (List.mem_cons_self ..)
  obtain ⟨htype, hnext⟩ := hexpected ⟨r, hmem, hwait, hid⟩
  have hsor := (nextToAnswer_iff hsplit hbefore ⟨hwait, hid⟩).mp hnext
  have hreq := h.waiting r hmem hwait
  refine of_ruleIds (h.ruleIds.of_sublist ?_ rfl) ?_ ?_
  · simp [hsplit]
  · intro x hx hxw
    rcases mem_of_answered (hsplit ▸ h.distinct) hx with rfl | ⟨hx, hne⟩
    · exact absurd hxw Bool.false_ne_true
    · -- The write is none of this rule's, so its request still stands.
      refine (h.waiting x (hsplit ▸ hx) hxw).append fun a ha => ?_
      simp only [List.map_cons, List.map_nil, List.mem_cons, List.not_mem_nil, or_false] at ha
      rcases ha with rfl | rfl
      · trivial
      · exact hne
  · rw [List.map_singleton, ← List.singleton_append, ← List.append_assoc, atEach_concat_iff,
      atEach_concat_iff]
    exact ⟨⟨h.written, trivial⟩, log, socketIndex, package, cmd, rfl, hcmd, rfl, hsor.symm, htype,
      hid.symm, hreq.congr rfl rfl⟩

/-- If all open requests for the component went to one device, its response is expected:
the rules that wait for it have all asked that device. -/
theorem expected_of_openRequests {cmd : IoTCommand} {sender : Text}
    (htype : cmd.cmdType = some .readResponse)
    (hopen : ∀ address, OpenRequest log address cmd.id → address = sender) :
    Expected cmd sender ruler.rules := by
  intro hwaits
  refine ⟨htype, fun i hi hanswers => ?_⟩
  have hrequested := h.waiting _ (List.getElem_mem hi) hanswers.1
  refine ⟨ruler.rules[i], mem_take_succ hi, hanswers, hopen _ ?_⟩
  exact hanswers.2 ▸ hrequested.openRequest

end Tracked

/-! ### Scans and packages in any order -/

namespace ManagerEvent

/-- The event steps into neither gap: a scan can send every request it will wait for, and
a command that a rule waits for is a response of a device that is to answer next. -/
def Safe (J : Jansson) (s : ManagerState) : ManagerEvent → Prop
  | scanned server => RequestsSent server s.manager
  | arrived _ _ package =>
    ∀ cmd ∈ rulerCommand J package, Expected cmd package.sorIp s.manager.ruler.rules
  | denied _ => True

instance (J : Jansson) (s : ManagerState) (e : ManagerEvent) : Decidable (e.Safe J s) :=
  match e with
  | scanned _ => inferInstanceAs (Decidable (RequestsSent _ _))
  | arrived _ _ _ => inferInstanceAs (Decidable (∀ cmd ∈ _, Expected _ _ _))
  | denied _ => inferInstanceAs (Decidable True)

end ManagerEvent

section Runs

variable {J : Jansson}

theorem tracked_step {s s' : ManagerState} {e : ManagerEvent} (hs : Tracked J s.manager.ruler s.log)
    (hsafe : e.Safe J s) (h : e.step J s = .ok s') : Tracked J s'.manager.ruler s'.log := by
  cases e with
  | scanned server =>
      obtain ⟨⟨manager, done⟩, hscan, h⟩ := bind_ok_iff.mp h
      obtain rfl := Except.ok.inj h
      obtain ⟨rfl, rfl⟩ := scanRules_eq hscan
      exact hs.scan rfl hsafe
  | arrived server socketIndex package =>
      obtain ⟨⟨manager, done⟩, hdispatch, h⟩ := bind_ok_iff.mp h
      obtain rfl := Except.ok.inj h
      -- Only an added rule and a command do more than drop rules.
      have hkeep : ∀ ruler : Ruler, ruler.rules.Sublist s.manager.ruler.rules →
          ruler.nextRuleId = s.manager.ruler.nextRuleId → (∀ e ∈ done, e.NoWrite) →
          Tracked J ruler (s.log ++ .extracted socketIndex package :: done.map .effect) :=
        fun ruler hrules hnext hdone =>
          hs.keep hrules hnext (forall_mem_cons_effects trivial hdone)
      cases dispatch_cases hdispatch with
      | ignored hm hdone =>
          subst hm
          exact hkeep _ (List.Sublist.refl _) rfl (by simp [hdone])
      | answered ipCount socket buffer hm hdone =>
          subst hm
          exact hkeep _ (List.Sublist.refl _) rfl (by simp [hdone, Effect.NoWrite])
      | registered device rules hslot hrules hm hdone =>
          subst hm
          exact hkeep _ hrules rfl (by simp [hdone, Effect.NoWrite])
      | forwarded device socket hm hmem hsent hdone =>
          subst hm
          exact hkeep _ (List.Sublist.refl _) rfl (by simp [hdone, Effect.NoWrite])
      | ruleAdded rule ruler hadd hm hdone =>
          subst hm hdone
          exact hs.add hadd (forall_mem_cons_effects trivial (by simp))
      | commanded cmd rules hcmd hrules hm =>
          subst hm
          exact hs.answer hcmd (hsafe cmd hcmd) hrules
  | denied socketIndex =>
      obtain ⟨rules, hrules, rfl⟩ := ManagerState.eventConnectionDenied_cases h
      have htail : ∀ a ∈ [Action.connectionDenied socketIndex], Unwritten a := by
        intro a ha
        obtain rfl := List.mem_singleton.mp ha
        trivial
      have hnext : ({ s.manager.ruler with rules := rules } : Ruler).nextRuleId
          = s.manager.ruler.nextRuleId := rfl
      exact hs.keep hrules hnext htail

/-- If what a package makes a rule write is written rightly, the package was expected. -/
theorem expected_of_writtenRightly {server : TcpServer} {socketIndex : Nat}
    {package : IoTPackage} {s s' : ManagerState}
    (h : s.dispatchPackage J server socketIndex package = .ok s')
    (hright : AtEach (WrittenRightly J) s'.log) {cmd : IoTCommand}
    (hcmd : rulerCommand J package = some cmd) :
    Expected cmd package.sorIp s.manager.ruler.rules := by
  rintro ⟨x, hx, hwaits⟩
  obtain ⟨⟨manager, done⟩, hdispatch, h⟩ := bind_ok_iff.mp h
  obtain rfl := Except.ok.inj h
  obtain ⟨rules, hrules, -⟩ := dispatch_of_rulerCommand hcmd hdispatch
  rcases Ruler.handleRulerCommand_cases hrules with
    ⟨hnone, -, -⟩ | ⟨before, r, after, hsplit, hbefore, hanswers, -, hwrite⟩
  · exact absurd hwaits (hnone x hx)
  obtain ⟨sent, rfl⟩ := excuteWriteRule_done hwrite
  dsimp only at hright
  rw [List.map_singleton, ← List.singleton_append, ← List.append_assoc, atEach_concat_iff]
    at hright
  -- The package it was triggered by is the one before it, with the same command.
  obtain ⟨past, i, package', cmd', hlast, hcmd', -, hsor, htype, -⟩ := hright.2
  obtain ⟨-, hlast⟩ := List.append_inj' hlast rfl
  obtain ⟨-, rfl⟩ := Action.extracted.inj (List.singleton_inj.mp hlast)
  obtain rfl : cmd = cmd' := Option.some.inj (hcmd.symm.trans hcmd')
  exact ⟨htype, (nextToAnswer_iff hsplit hbefore hanswers).mpr hsor.symm⟩

/-- **A rule only writes what its own device has reported**, in every run that
steps into neither gap. A package that is not expected there makes a rule write what it
should not. A response is expected if all open requests for its component went to its
sender; and as long as rules that read different devices wait for one component, one of
these devices is not expected to answer. -/
theorem writtenRightly_run {maxClient : Nat} {actionFrequency : Int} {es : List ManagerEvent}
    {s : ManagerState}
    (h : Run (fun s e s' => e.Safe J s ∧ e.step J s = .ok s')
      (.initial maxClient actionFrequency) es s) :
    AtEach (WrittenRightly J) s.log ∧
      (∀ server socketIndex package s',
        s.dispatchPackage J server socketIndex package = .ok s' →
        (AtEach (WrittenRightly J) s'.log ↔
          ∀ cmd ∈ rulerCommand J package,
            Expected cmd package.sorIp s.manager.ruler.rules)) ∧
      ∀ cmd : IoTCommand, cmd.cmdType = some .readResponse →
        (∀ sender, (∀ address, OpenRequest s.log address cmd.id → address = sender) →
          Expected cmd sender s.manager.ruler.rules) ∧
        ((∀ r ∈ s.manager.ruler.rules, Answers cmd r →
            Expected cmd r.rule.readFrom s.manager.ruler.rules) ↔
          ∀ r ∈ s.manager.ruler.rules, ∀ r' ∈ s.manager.ruler.rules, Answers cmd r →
            Answers cmd r' → r.rule.readFrom = r'.rule.readFrom) := by
  have h₀ : Tracked J (ManagerState.initial maxClient actionFrequency).manager.ruler [] :=
    { below := by simp [ManagerState.initial]
      distinct := List.nodup_nil
      waiting := by simp [ManagerState.initial]
      written := atEach_nil }
  have hs : Tracked J s.manager.ruler s.log :=
    h.invariant (I := fun s => Tracked J s.manager.ruler s.log) h₀
      fun _ _ _ hs hstep => tracked_step hs hstep.1 hstep.2
  refine ⟨hs.written, fun server socketIndex package s' hstep => ?_, fun cmd htype => ?_⟩
  · constructor
    · intro hright cmd hcmd
      exact expected_of_writtenRightly hstep hright hcmd
    · intro hexpected
      exact (tracked_step (e := .arrived server socketIndex package) hs hexpected hstep).written
  · refine ⟨fun sender hopen => hs.expected_of_openRequests htype hopen, ?_⟩
    rw [← forall_nextToAnswer_iff]
    refine forall₃_congr fun r hr hanswers => ?_
    exact ⟨fun h => (h ⟨r, hr, hanswers⟩).2, fun h _ => ⟨htype, h⟩⟩

end Runs

/-! ### Two rules for one component -/

def commandMessage (type id value : Text) : JsonRoot :=
  .object [(lit "IOTCMD",
    .object [(lit "Type", .string type), (lit "ID", .string id), (lit "Value", .string value)])]

/-- A rule that passes the temperature of a device on to another one. -/
def ruleMessage (readFrom writeTo : Text) : JsonRoot :=
  .object [(lit "IOTRUL",
    .object [(lit "Type", .string (lit "Auto")), (lit "Name", .string (lit "Heat")),
      (lit "ReadFrom", .string readFrom), (lit "ReadID", .string (lit "Temp")),
      (lit "ReadValue", .string (lit "0")), (lit "WriteTo", .string writeTo),
      (lit "WriteID", .string (lit "Show")), (lit "WriteValue", .string (lit "0")),
      (lit "WriteRul", .string (lit "0")), (lit "ActionFrequency", .string (lit "1000"))])]

/-- The rule made from the message, towards the third device. -/
def heatRule (readFrom : Text) : IoTRule where
  type := lit "Auto"
  name := lit "Heat"
  readFrom := readFrom
  readID := lit "Temp"
  readValue := lit "0"
  writeTo := lit "DEV.2"
  writeID := lit "Show"
  writeValue := lit "0"
  writeRul := lit "0"
  actionFrequency := 1000
  jsonData := (dumpStrings (ruleMessage readFrom (lit "DEV.2")).value).getD []

/-- The answer of a device. -/
def temperature (device : Text) : IoTPackage :=
  carrying device serverIoTIP (commandMessage (lit "Res") (lit "Temp") (lit "7"))

def heatJansson : Jansson :=
  jansson [deviceMessage (lit "A"), deviceMessage (lit "B"), deviceMessage (lit "C"),
    ruleMessage (lit "DEV.0") (lit "DEV.2"), ruleMessage (lit "DEV.1") (lit "DEV.2"),
    commandMessage (lit "None") (lit "0") (lit "0"),
    commandMessage (lit "Res") (lit "Temp") (lit "7")]

def threeSockets : TcpServer :=
  { listener := 3, clientSockets := [4, 5, 6], master := {3, 4, 5, 6} }

/-- Three devices and two rules for the temperature, one of which `device` answers. -/
def heatEvents (device : Text) (slot : Nat) : List ManagerEvent :=
  [.arrived threeSockets 0 (registration (lit "DEV.0") (lit "A")),
    .arrived threeSockets 1 (registration (lit "DEV.1") (lit "B")),
    .arrived threeSockets 2 (registration (lit "DEV.2") (lit "C")),
    .arrived threeSockets 2
      (carrying (lit "DEV.2") serverIoTIP (ruleMessage (lit "DEV.0") (lit "DEV.2"))),
    .arrived threeSockets 2
      (carrying (lit "DEV.2") serverIoTIP (ruleMessage (lit "DEV.1") (lit "DEV.2"))),
    .scanned threeSockets, .arrived threeSockets slot (temperature device)]

/-- The write of the first rule. -/
def firstWritten : Action :=
  .effect (.ruleWritten
    { ruleID := 0, rule := heatRule (lit "DEV.0"), waitingTimeMs := 1000 } (lit "7")
    (some (⟨lit "DEV.2", lit "UI", lit "C",
      (dumpStrings (deviceMessage (lit "C")).value).getD [], 2⟩, 6)))

theorem writtenRightly_run_heat : ∃ s : ManagerState,
    s.log.getLast? = some firstWritten ∧ AtEach (WrittenRightly heatJansson) s.log := by
  obtain ⟨s, hs, hlast⟩ := Option.map_eq_some_iff.mp
    (show (execute (fun s e => ManagerEvent.Safe heatJansson s e)
        (fun s e => ManagerEvent.step heatJansson s e) (.initial 3 1000)
        (heatEvents (lit "DEV.0") 0)).map (fun s => s.log.getLast?)
      = some (some firstWritten) by decide +kernel)
  exact ⟨s, hlast, (writtenRightly_run (run_of_execute hs)).1⟩

/-- The second device answers, and its value is written for the first rule. -/
theorem written_from_other_device : ∃ s before,
    Run (fun s e s' => ManagerEvent.step heatJansson s e = .ok s') (.initial 3 1000)
      (heatEvents (lit "DEV.1") 1) s ∧
    s.log = before ++ [.extracted 1 (temperature (lit "DEV.1"))] ++ [firstWritten] ∧
    ¬ AtEach (WrittenRightly heatJansson) s.log := by
  obtain ⟨s, hs, hlast⟩ := Option.map_eq_some_iff.mp
    (show (execute (fun _ _ => True)
        (fun s e => ManagerEvent.step heatJansson s e) (.initial 3 1000)
        (heatEvents (lit "DEV.1") 1)).map (fun s => s.log.drop 11)
      = some [.extracted 1 (temperature (lit "DEV.1")), firstWritten] by decide +kernel)
  have hlog : s.log = s.log.take 11 ++ [.extracted 1 (temperature (lit "DEV.1"))]
      ++ [firstWritten] := by
    rw [List.append_assoc, List.singleton_append, ← hlast, List.take_append_drop]
  refine ⟨s, s.log.take 11, (run_of_execute hs).mono fun _ _ _ h => h.2, hlog, fun hright => ?_⟩
  rw [hlog, atEach_concat_iff] at hright
  obtain ⟨before, socketIndex, package, cmd, hpast, -, -, hsor, -⟩ := hright.2
  obtain ⟨-, hpackage⟩ := List.append_inj' hpast rfl
  obtain ⟨-, rfl⟩ : 1 = socketIndex ∧ temperature (lit "DEV.1") = package := by
    simpa using hpackage
  exact absurd hsor (by decide +kernel)

end IoTRepublic
