import IoTRepublic.IoT.RulerSound
import IoTRepublic.Lib.Countdown

/-!
# IoTRepublic.IoT.RulePeriod

How often a rule is read.

A scan looks at `WaitingTimeMs` before it counts it down, so a rule whose time has
run out is only read by the scan after that. Over any run a rule is read every
`⌈F / A⌉ + 1` scans, `F` its own frequency and `A` that of the scans, whatever
happens to the other rules (`rulePeriod_run`).

The scans have to be told apart to be counted, which the time line does not do. So
`countedStep` runs the manager with a list beside it: for each scan, the ids of the rules
it read. `CountsDown` is the invariant: in that list, since the rule was added, the reads
of a rule are those of a counter that is set to its frequency and loses one period a scan
(`Lib.Countdown`), and its waiting time is what that counter has left.
-/

namespace IoTRepublic

open Cpp JsonUtility Transition Countdown Ruler

namespace Ruler

variable {ε : Type}

/-- `excuteReadRule`, leaving a note of the rule it was called for. -/
def recorded (excuteReadRule : RuleInstance → Except Fault (RuleInstance × List ε))
    (ruleInstance : RuleInstance) : Except Fault (RuleInstance × List Int) := do
  let (ruleInstance', _) ← excuteReadRule ruleInstance
  return (ruleInstance', [ruleInstance.ruleID])

/-- The notes of a scan: a rule is read when nothing is left of its waiting time. -/
theorem scanRules_recorded
    {excuteReadRule : RuleInstance → Except Fault (RuleInstance × List ε)} {actionFrequency : Int}
    {rules rules' : List RuleInstance} {done : List ε}
    (h : scanRules excuteReadRule actionFrequency rules = .ok (rules', done)) :
    scanRules (recorded excuteReadRule) actionFrequency rules
      = .ok (rules', (rules.filter (·.waitingTimeMs ≤ 0)).map (·.ruleID)) := by
  induction rules generalizing rules' done with
  | nil =>
      obtain ⟨rfl, rfl⟩ := Prod.mk.inj (Except.ok.inj h)
      rfl
  | cons r rules ih =>
      obtain ⟨⟨r', doneHere⟩, hr, h⟩ := bind_ok_iff.mp h
      obtain ⟨⟨rules₁, doneLater⟩, hrules, h⟩ := bind_ok_iff.mp h
      obtain ⟨rfl, rfl⟩ := Prod.mk.inj (Except.ok.inj h)
      rw [scanRules, ih hrules]
      unfold scanRule at hr ⊢
      by_cases hdue : r.waitingTimeMs ≤ 0
      · rw [if_pos hdue] at hr
        rw [if_pos hdue, recorded, hr, List.filter_cons_of_pos (by simpa using hdue)]
        rfl
      · rw [if_neg hdue] at hr
        obtain ⟨waitingTimeMs, hwait, hr⟩ := bind_ok_iff.mp hr
        obtain ⟨rfl, rfl⟩ := Prod.mk.inj (Except.ok.inj hr)
        rw [if_neg hdue, hwait, List.filter_cons_of_neg (by simpa using hdue)]
        rfl

end Ruler

/-! ### Runs that keep count of the scans -/

/-- The rules a scan of the manager reads. -/
def IoTManager.readBy (J : Jansson) (server : TcpServer) (m : IoTManager) : List Int :=
  match Ruler.scanRules (recorded (excuteReadRule J server m)) m.ruler.actionFrequency
      m.ruler.rules with
  | .ok (_, ids) => ids
  | .error _ => []

/-- The manager's reaction, and what has been read by each scan so far. -/
def ManagerEvent.countedStep (J : Jansson) (s : ManagerState × List (List Int)) (e : ManagerEvent) :
    Except Fault (ManagerState × List (List Int)) := do
  let s' ← e.step J s.1
  return (s', match e with
    | scanned server => s.2 ++ [IoTManager.readBy J server s.1.manager]
    | _ => s.2)

/-- The scans that have read the rule with the id. -/
def firedBy (id : Int) (scans : List (List Int)) : List Bool := scans.map (id ∈ ·)

@[simp] theorem firedBy_concat (id : Int) (scans : List (List Int)) (ids : List Int) :
    firedBy id (scans ++ [ids]) = firedBy id scans ++ [decide (id ∈ ids)] := by
  simp [firedBy]

@[simp] theorem firedBy_length (id : Int) (scans : List (List Int)) :
    (firedBy id scans).length = scans.length := List.length_map _

theorem IoTManager.readBy_eq {J : Jansson} {server : TcpServer} {m m' : IoTManager}
    {done : List Effect} (h : scanRules J server m = .ok (m', done)) :
    readBy J server m = (m.ruler.rules.filter (·.waitingTimeMs ≤ 0)).map (·.ruleID) := by
  obtain ⟨⟨rules, done'⟩, hscan, -⟩ := bind_ok_iff.mp h
  rw [readBy, scanRules_recorded hscan]

/-! ### The waiting times -/

/-- Every rule has been counted down since it was added. -/
structure CountsDown (actionFrequency : Int) (ruler : Ruler) (scans : List (List Int)) : Prop where
  ids : RuleIds ruler
  frequency : ruler.actionFrequency = actionFrequency
  old : ∀ ids ∈ scans, ∀ id ∈ ids, id < ruler.nextRuleId
  counted : ∀ r ∈ ruler.rules,
    Countdown.Counted r.rule.actionFrequency actionFrequency r.waitingTimeMs
        (firedBy r.ruleID scans) ∧
      Periodic (firedBy r.ruleID scans) (ticks r.rule.actionFrequency actionFrequency + 1)

namespace CountsDown

variable {actionFrequency : Int} {ruler ruler' : Ruler} {scans : List (List Int)}
  (h : CountsDown actionFrequency ruler scans)

include h

/-- Nothing happens to the waiting times of the rules that stay, and no id is new. -/
theorem of_waitingTimes (hids : RuleIds ruler')
    (hfrequency : ruler'.actionFrequency = ruler.actionFrequency)
    (hnext : ruler'.nextRuleId = ruler.nextRuleId)
    (hrules : ∀ r' ∈ ruler'.rules, ∃ r ∈ ruler.rules, r'.ruleID = r.ruleID ∧ r'.rule = r.rule ∧
      r'.waitingTimeMs = r.waitingTimeMs) : CountsDown actionFrequency ruler' scans where
  ids := hids
  frequency := hfrequency.trans h.frequency
  old := fun ids hscan id hid => hnext ▸ h.old ids hscan id hid
  counted := by
    intro r' hr'
    obtain ⟨r, hr, hid, hrule, hwait⟩ := hrules r' hr'
    rw [hid, hrule, hwait]
    exact h.counted r hr

/-- A rule is added, which no scan has read yet. -/
theorem added {rule : IoTRule} (hadd : Ruler.addRule rule ruler = .ok ruler') :
    CountsDown actionFrequency ruler' scans := by
  have hids := h.ids.addRule hadd
  obtain rfl := Ruler.addRule_eq hadd
  refine
    { ids := hids
      frequency := h.frequency
      old := ?_
      counted := ?_ }
  · intro ids hscan id hid
    have hlt := h.old ids hscan id hid
    dsimp only
    omega
  · intro r hr
    rcases List.mem_append.mp hr with hr | hr
    · exact h.counted r hr
    · obtain rfl := List.mem_singleton.mp hr
      have hnever : true ∉ firedBy ruler.nextRuleId scans := by
        intro hmem
        obtain ⟨ids, hscan, hid⟩ := List.mem_map.mp hmem
        exact lt_irrefl _ (h.old ids hscan _ (of_decide_eq_true hid))
      refine ⟨.fresh hnever (le_refl _), fun i hi => ?_⟩
      exact absurd (List.mem_of_getElem? hi) hnever

/-- Every rule is scanned. Its countdown makes one step, and those that were due are
noted. -/
theorem scanned (hA : 0 < actionFrequency) :
    CountsDown actionFrequency
      { ruler with rules := ruler.rules.map (scannedRule ruler.actionFrequency) }
      (scans ++ [(ruler.rules.filter (·.waitingTimeMs ≤ 0)).map (·.ruleID)]) := by
  refine
    { ids := h.ids.of_sublist (by simp [Function.comp_def]) rfl
      frequency := h.frequency
      old := ?_
      counted := ?_ }
  · intro ids hscan id hid
    rcases List.mem_append.mp hscan with hscan | hscan
    · exact h.old ids hscan id hid
    · obtain rfl := List.mem_singleton.mp hscan
      exact h.ids.below id ((List.filter_sublist.map _).subset hid)
  · intro r' hr'
    obtain ⟨r, hr, rfl⟩ := List.mem_map.mp hr'
    -- The ids are distinct, so the id was noted for this rule.
    have hread : r.ruleID ∈ (ruler.rules.filter (·.waitingTimeMs ≤ 0)).map (·.ruleID) ↔
        r.waitingTimeMs ≤ 0 := by
      constructor
      · intro hmem
        obtain ⟨x, hx, hid⟩ := List.mem_map.mp hmem
        obtain ⟨hx, hdue⟩ := List.mem_filter.mp hx
        exact h.ids.eq_of_ruleID hx hr hid ▸ of_decide_eq_true hdue
      · intro hdue
        exact List.mem_map_of_mem (List.mem_filter.mpr ⟨hr, decide_eq_true hdue⟩)
    obtain ⟨hcounted, hperiodic⟩ := h.counted r hr
    rw [scannedRule_ruleID, scannedRule_rule, scannedRule_waitingTimeMs, h.frequency,
      firedBy_concat, decide_eq_decide.mpr hread]
    exact hcounted.tick hA hperiodic

/-- A package is no scan: it may add a rule, remove some or answer one, and no countdown
moves. -/
theorem dispatched {socketIndex : Nat} {package : IoTPackage} {done : List Effect}
    (hstep : RulerStep ruler ruler' (.extracted socketIndex package :: done.map .effect)) :
    CountsDown actionFrequency ruler' scans := by
  cases hstep with
  | kept rules hrules hruler hquiet =>
      subst hruler
      exact h.of_waitingTimes (h.ids.of_sublist (hrules.map _) rfl) rfl rfl
        fun r hr => ⟨r, hrules.subset hr, rfl, rfl, rfl⟩
  | added rule hadd hquiet => exact h.added hadd
  | scanned server m hm hruler htail => cases htail
  | answered before after r cmd sent socketIndex package hrules hbefore hanswers hruler htail =>
      subst hruler
      refine h.of_waitingTimes (h.ids.of_sublist (by simp [hrules]) rfl) rfl rfl fun x hx => ?_
      rw [hrules]
      rcases List.mem_append.mp hx with hx | hx
      · exact ⟨x, List.mem_append_left _ hx, rfl, rfl, rfl⟩
      · rcases List.mem_cons.mp hx with rfl | hx
        · exact ⟨r, by simp, rfl, rfl, rfl⟩
        · exact ⟨x, by simp [hx], rfl, rfl, rfl⟩

end CountsDown

section Runs

variable {J : Jansson}

theorem countsDown_step {actionFrequency : Int} (hA : 0 < actionFrequency)
    {s s' : ManagerState × List (List Int)} {e : ManagerEvent}
    (hs : CountsDown actionFrequency s.1.manager.ruler s.2) (h : e.countedStep J s = .ok s') :
    CountsDown actionFrequency s'.1.manager.ruler s'.2 := by
  obtain ⟨s₁, hstep, h⟩ := bind_ok_iff.mp h
  obtain rfl := Except.ok.inj h
  cases e with
  | scanned server =>
      obtain ⟨⟨manager, done⟩, hscan, hstep⟩ := bind_ok_iff.mp hstep
      obtain rfl := Except.ok.inj hstep
      dsimp only
      rw [IoTManager.readBy_eq hscan]
      obtain ⟨rfl, -⟩ := IoTManager.scanRules_eq hscan
      exact hs.scanned hA
  | arrived server socketIndex package =>
      obtain ⟨done, -, hruler⟩ := rulerStep_dispatchPackage hstep
      exact hs.dispatched hruler
  | denied socketIndex =>
      obtain ⟨rules, hrules, rfl⟩ := ManagerState.eventConnectionDenied_cases hstep
      exact hs.of_waitingTimes (hs.ids.of_sublist (hrules.map _) rfl) rfl rfl
        fun r hr => ⟨r, hrules.subset hr, rfl, rfl, rfl⟩

/-- **A rule is read every `⌈F / A⌉ + 1` scans**, in every run it is not removed in.
So every `⌈F / A⌉` scans it is read only in a run that ends before that shows. -/
theorem rulePeriod_run {maxClient : Nat} {actionFrequency : Int} (hA : 0 < actionFrequency)
    {es : List ManagerEvent} {s : ManagerState × List (List Int)}
    (h : Run (fun s e s' => ManagerEvent.countedStep J s e = .ok s')
      (.initial maxClient actionFrequency, []) es s)
    {r : RuleInstance} (hr : r ∈ s.1.manager.ruler.rules) (hF : 0 < r.rule.actionFrequency) :
    Periodic (firedBy r.ruleID s.2) (ticks r.rule.actionFrequency actionFrequency + 1) ∧
      (Periodic (firedBy r.ruleID s.2) (ticks r.rule.actionFrequency actionFrequency) ↔
        ∀ i, (firedBy r.ruleID s.2)[i]? = some true →
          s.2.length ≤ i + ticks r.rule.actionFrequency actionFrequency) := by
  have h₀ : CountsDown actionFrequency
      (ManagerState.initial maxClient actionFrequency).manager.ruler [] :=
    { ids := ruleIds_initial _ _
      frequency := rfl
      old := by simp
      counted := by simp [ManagerState.initial] }
  have hs : CountsDown actionFrequency s.1.manager.ruler s.2 :=
    h.invariant (I := fun s => CountsDown actionFrequency s.1.manager.ruler s.2) h₀
      fun _ _ _ hs hstep => countsDown_step hA hs hstep
  have hperiodic := (hs.counted r hr).2
  exact ⟨hperiodic, by simpa using hperiodic.periodic_pred_iff (ticks_pos hF hA)⟩

end Runs

/-! ### One second, scanned every second -/

/-- Three scans. -/
def threeScans : List ManagerEvent :=
  [.arrived threeSockets 0 (registration (lit "DEV.0") (lit "A")),
    .arrived threeSockets 2 (registration (lit "DEV.2") (lit "C")),
    .arrived threeSockets 2 (carrying (lit "DEV.2") IoTManager.serverIoTIP
      (ruleMessage (lit "DEV.0") (lit "DEV.2"))),
    .scanned threeSockets, .scanned threeSockets, .scanned threeSockets]

theorem rulePeriod_run_threeScans : ∃ s : ManagerState × List (List Int),
    s.2 = [[0], [], [0]] ∧
      ∃ r ∈ s.1.manager.ruler.rules, r.ruleID = 0 ∧ r.rule = heatRule (lit "DEV.0") ∧
        Periodic (firedBy r.ruleID s.2) (ticks r.rule.actionFrequency 1000 + 1) := by
  obtain ⟨s, hs, hq⟩ := Option.map_eq_some_iff.mp
    (show (execute (fun _ _ => True) (fun s e => ManagerEvent.countedStep heatJansson s e)
        (.initial 3 1000, []) threeScans).map (fun s => (s.2, s.1.manager.ruler.rules))
      = some ([[0], [], [0]],
        [{ ruleID := 0, rule := heatRule (lit "DEV.0"), waitingTimeMs := 1000
           isWaitingResponse := true }]) by decide +kernel)
  obtain ⟨hscans, hrules⟩ := Prod.mk.inj hq
  have hr : { ruleID := 0, rule := heatRule (lit "DEV.0"), waitingTimeMs := 1000
              isWaitingResponse := true } ∈ s.1.manager.ruler.rules := by simp [hrules]
  exact ⟨s, hscans, _, hr, rfl, rfl,
    (rulePeriod_run (by decide) ((run_of_execute hs).mono fun _ _ _ h => h.2) hr (by decide)).1⟩

/-- A rule for every second is read at the first and the third of three scans, a
second apart. -/
theorem not_read_each_second : ∃ s : ManagerState × List (List Int),
    Run (fun s e s' => ManagerEvent.countedStep heatJansson s e = .ok s') (.initial 3 1000, [])
      threeScans s ∧
    s.1.manager.ruler.rules.map (fun r => (r.ruleID, r.rule.actionFrequency)) = [(0, 1000)] ∧
    ticks 1000 1000 = 1 ∧ ¬ Periodic (firedBy 0 s.2) (ticks 1000 1000) := by
  obtain ⟨s, hs, hq⟩ := Option.map_eq_some_iff.mp
    (show (execute (fun _ _ => True) (fun s e => ManagerEvent.countedStep heatJansson s e)
        (.initial 3 1000, []) threeScans).map
          (fun s =>
            (s.2, s.1.manager.ruler.rules.map fun r => (r.ruleID, r.rule.actionFrequency)))
      = some ([[0], [], [0]], [(0, 1000)]) by decide +kernel)
  obtain ⟨hscans, hrules⟩ := Prod.mk.inj hq
  have hticks : ticks 1000 1000 = 1 := by
    simpa using ticks_mul (show (0 : ℤ) < 1000 by decide) 1
  refine ⟨s, (run_of_execute hs).mono fun _ _ _ h => h.2, hrules, hticks, fun hperiodic => ?_⟩
  rw [hticks, hscans] at hperiodic
  exact absurd ((hperiodic 0 (by decide)).2 (by decide)) (by decide)

end IoTRepublic
