import IoTRepublic.IoT.RulerSound

/-!
# IoTRepublic.IoT.RuleWrites

How often a rule is written.

`isWaitingResponse` is set by the read of a rule, cleared by its write, and carried
along by a vector from which other rules are erased. What it means is a matter of
the time line alone: the last thing that happened to the rule was a read (`Asked`).
`ruleWrites_run` has this for every rule of every run, and from it that a rule is
never written twice for one read.

The invariant is an equivalence (`FlagsTrue`): the flag is set if, and only if, the rule
has both its ends and was read after it was last written. One direction says that a write
was asked for; the other that a rule which was asked for and not written is still waiting.
Ids that are never given out twice keep the history of a removed rule from being taken for
that of a later one.
-/

namespace IoTRepublic

open Cpp JsonUtility Transition Ruler

/-- The rule an action is about, if it is a request or a write. -/
def Action.ruleInstance : Action → Option RuleInstance
  | .effect (.readRequested r _) => some r
  | .effect (.ruleWritten r _ _) => some r
  | _ => none

/-- The rule has been read, and has not been written since. -/
def Asked (r : RuleInstance) (past : List Action) : Prop :=
  ∃ before r' target after, past = before ++ .effect (.readRequested r' target) :: after ∧
    (r'.ruleID = r.ruleID ∧ r'.rule = r.rule) ∧ ∀ a ∈ after, KeepsRule r.ruleID a

/-- The rule has both its ends, and has been read since it was last written. -/
def Awaits (r : RuleInstance) (past : List Action) : Prop :=
  (0 < r.rule.readFrom.length ∧ 0 < r.rule.writeTo.length) ∧ Asked r past

/-- What is written is a rule that awaits it. -/
def WrittenOnce (past : List Action) : Action → Prop
  | .effect (.ruleWritten r _ _) => Awaits r past
  | _ => True

/-! ### Reads on a time line -/

section Asked

variable {r r' : RuleInstance} {log tail : List Action}

theorem asked_congr (hid : r'.ruleID = r.ruleID) (hrule : r'.rule = r.rule) :
    Asked r' log ↔ Asked r log := by
  unfold Asked
  rw [hid, hrule]

theorem awaits_congr (hid : r'.ruleID = r.ruleID) (hrule : r'.rule = r.rule) :
    Awaits r' log ↔ Awaits r log := by
  unfold Awaits
  rw [asked_congr hid hrule, hrule]

/-- The read is in the tail, or before it with no write in the tail. -/
theorem asked_append_iff :
    Asked r (log ++ tail) ↔
      Asked r tail ∨ Asked r log ∧ ∀ a ∈ tail, KeepsRule r.ruleID a := by
  constructor
  · rintro ⟨before, r', target, after, heq, hsame, hafter⟩
    rcases List.append_eq_append_iff.mp heq with ⟨mid, rfl, hright⟩ | ⟨mid, rfl, hleft⟩
    · exact .inl ⟨mid, r', target, after, hright, hsame, hafter⟩
    · cases mid with
      | nil => exact .inl ⟨[], r', target, after, hleft.symm, hsame, hafter⟩
      | cons a mid =>
          obtain ⟨rfl, rfl⟩ := List.cons.inj hleft
          exact .inr ⟨⟨before, r', target, mid, rfl, hsame,
              fun x hx => hafter x (List.mem_append_left _ hx)⟩,
            fun x hx => hafter x (List.mem_append_right _ hx)⟩
  · rintro (⟨before, r', target, after, rfl, hsame, hafter⟩ |
      ⟨⟨before, r', target, after, rfl, hsame, hafter⟩, htail⟩)
    · exact ⟨log ++ before, r', target, after, by simp, hsame, hafter⟩
    · refine ⟨before, r', target, after ++ tail, by simp, hsame, fun a ha => ?_⟩
      rcases List.mem_append.mp ha with ha | ha
      · exact hafter a ha
      · exact htail a ha

/-- With no write on the time line, any read of the rule will do. -/
theorem asked_iff_of_unwritten (h : ∀ a ∈ log, Unwritten a) :
    Asked r log ↔ ∃ r' target, Action.effect (.readRequested r' target) ∈ log ∧
      r'.ruleID = r.ruleID ∧ r'.rule = r.rule := by
  constructor
  · rintro ⟨before, r', target, after, rfl, hsame, -⟩
    exact ⟨r', target, by simp, hsame⟩
  · rintro ⟨r', target, hmem, hsame⟩
    obtain ⟨before, after, rfl⟩ := List.append_of_mem hmem
    exact ⟨before, r', target, after, rfl, hsame, fun a ha =>
      (h a (List.mem_append_right _ (List.mem_cons_of_mem _ ha))).keepsRule _⟩

theorem Asked.exists_logged (h : Asked r log) :
    ∃ a ∈ log, ∃ r', a.ruleInstance = some r' ∧ r'.ruleID = r.ruleID := by
  obtain ⟨before, r', target, after, rfl, ⟨hid, -⟩, -⟩ := h
  exact ⟨.effect (.readRequested r' target), by simp, r', rfl, hid⟩

end Asked

theorem RuleQuiet.unwritten {a : Action} (h : RuleQuiet a) : Unwritten a := by
  cases a with
  | effect e =>
      cases e with
      | ruleWritten _ _ _ => exact h.elim
      | _ => exact trivial
  | _ => exact trivial

theorem RuleQuiet.ruleInstance {a : Action} (h : RuleQuiet a) : a.ruleInstance = none := by
  cases a with
  | effect e =>
      cases e with
      | readRequested _ _ => exact h.elim
      | ruleWritten _ _ _ => exact h.elim
      | _ => rfl
  | _ => rfl

theorem Unwritten.writtenOnce {a : Action} (h : Unwritten a) (past : List Action) :
    WrittenOnce past a := by
  cases a with
  | effect e =>
      cases e with
      | ruleWritten _ _ _ => exact h.elim
      | _ => exact trivial
  | _ => exact trivial

/-- Actions that have to do with no rule change nothing. -/
theorem asked_append_quiet_iff {r : RuleInstance} {log tail : List Action}
    (htail : ∀ a ∈ tail, RuleQuiet a) : Asked r (log ++ tail) ↔ Asked r log := by
  rw [asked_append_iff, or_iff_right, and_iff_left]
  · exact fun a ha => (htail a ha).unwritten.keepsRule _
  · intro h
    obtain ⟨a, ha, r', hr', -⟩ := h.exists_logged
    rw [(htail a ha).ruleInstance] at hr'
    cases hr'

/-- A scan asks for the rules that are due and can be read. -/
theorem asked_scan_iff {server : TcpServer} {m : IoTManager} (hids : RuleIds m.ruler)
    {r : RuleInstance} (hr : r ∈ m.ruler.rules) :
    Asked r (.scanned :: (m.ruler.rules.flatMap (IoTManager.requestsOf server m)).map .effect) ↔
      r.waitingTimeMs ≤ 0 ∧ 0 < r.rule.readFrom.length := by
  rw [asked_iff_of_unwritten scan_unwritten]
  constructor
  · intro h
    obtain ⟨r', target, hmem, hid, -⟩ := h
    have he : Effect.readRequested r' target
        ∈ m.ruler.rules.flatMap (IoTManager.requestsOf server m) := by simpa using hmem
    obtain ⟨x, hx, hdue, heq⟩ := IoTManager.mem_requests_iff.mp he
    obtain ⟨rfl, -⟩ := Effect.readRequested.inj heq
    -- The ids are distinct, so it is this rule that was read.
    rw [scannedRule_ruleID] at hid
    exact hids.eq_of_ruleID hx hr hid ▸ hdue
  · intro hdue
    refine ⟨scannedRule m.ruler.actionFrequency r, IoTManager.target server r.rule.readFrom m, ?_,
      scannedRule_ruleID .., scannedRule_rule ..⟩
    refine List.mem_cons_of_mem _ (List.mem_map_of_mem ?_)
    exact IoTManager.mem_requests_iff.mpr ⟨r, hr, hdue, rfl⟩

/-! ### The flag and the time line -/

/-- The table of rules and the time line. -/
structure FlagsTrue (ruler : Ruler) (log : List Action) : Prop where
  ids : RuleIds ruler
  logged : ∀ a ∈ log, ∀ r, a.ruleInstance = some r → r.ruleID < ruler.nextRuleId
  waiting : ∀ r ∈ ruler.rules, r.isWaitingResponse = true ↔ Awaits r log
  written : AtEach WrittenOnce log

namespace FlagsTrue

variable {ruler ruler' : Ruler} {log tail : List Action} (h : FlagsTrue ruler log)

include h

/-- Rules are removed. The flags of the others still follow the time line, on which
nothing of theirs has been added. -/
theorem kept {rules : List RuleInstance} (hrules : rules.Sublist ruler.rules)
    (hquiet : ∀ a ∈ tail, RuleQuiet a) :
    FlagsTrue { ruler with rules := rules } (log ++ tail) where
  ids := h.ids.of_sublist (hrules.map _) rfl
  logged := by
    intro a ha r hr
    rcases List.mem_append.mp ha with ha | ha
    · exact h.logged a ha r hr
    · rw [(hquiet a ha).ruleInstance] at hr
      cases hr
  waiting := by
    intro r hr
    rw [h.waiting r (hrules.subset hr), Awaits, Awaits, asked_append_quiet_iff hquiet]
  written := h.written.append fun a ha => (hquiet a ha).unwritten.writtenOnce

/-- A rule is added, and no read of it can be on the time line. -/
theorem added {rule : IoTRule} (hadd : Ruler.addRule rule ruler = .ok ruler')
    (hquiet : ∀ a ∈ tail, RuleQuiet a) : FlagsTrue ruler' (log ++ tail) := by
  have hids := h.ids.addRule hadd
  obtain rfl := Ruler.addRule_eq hadd
  have hkept := h.kept (List.Sublist.refl _) hquiet
  refine
    { ids := hids
      logged := ?_
      waiting := ?_
      written := hkept.written }
  · intro a ha r hr
    have hlt := hkept.logged a ha r hr
    dsimp only at hlt ⊢
    omega
  · intro r hr
    rcases List.mem_append.mp hr with hr | hr
    · exact hkept.waiting r hr
    · obtain rfl := List.mem_singleton.mp hr
      refine iff_of_false Bool.false_ne_true fun hawaits => ?_
      obtain ⟨a, ha, r', hr', hid⟩ := hawaits.2.exists_logged
      have hlt := hkept.logged a ha r' hr'
      rw [hid] at hlt
      exact lt_irrefl _ hlt

/-- The rules are scanned: those that are due and can be read are read. -/
theorem scanned (server : TcpServer) {m : IoTManager} (hm : m.ruler = ruler) :
    FlagsTrue { ruler with rules := ruler.rules.map (scannedRule ruler.actionFrequency) }
      (log ++ .scanned :: (ruler.rules.flatMap (IoTManager.requestsOf server m)).map .effect) := by
  subst hm
  have hrequest : ∀ e ∈ m.ruler.rules.flatMap (IoTManager.requestsOf server m),
      ∃ r ∈ m.ruler.rules, (r.waitingTimeMs ≤ 0 ∧ 0 < r.rule.readFrom.length) ∧
        e = .readRequested (scannedRule m.ruler.actionFrequency r)
          (IoTManager.target server r.rule.readFrom m) :=
    fun e he => IoTManager.mem_requests_iff.mp he
  have hunwritten : ∀ a ∈ Action.scanned ::
      (m.ruler.rules.flatMap (IoTManager.requestsOf server m)).map .effect, Unwritten a :=
    scan_unwritten
  refine
    { ids := ?_
      logged := ?_
      waiting := ?_
      written := h.written.append fun a ha => (hunwritten a ha).writtenOnce }
  · exact h.ids.of_sublist (by simp [Function.comp_def]) rfl
  · intro a ha r hr
    rcases List.mem_append.mp ha with ha | ha
    · exact h.logged a ha r hr
    · rcases List.mem_cons.mp ha with rfl | ha
      · cases hr
      · obtain ⟨e, he, rfl⟩ := List.mem_map.mp ha
        obtain ⟨x, hx, -, rfl⟩ := hrequest e he
        obtain rfl := Option.some.inj hr
        rw [scannedRule_ruleID]
        exact h.ids.below _ (List.mem_map_of_mem hx)
  · intro r' hr'
    obtain ⟨r, hr, rfl⟩ := List.mem_map.mp hr'
    rw [awaits_congr (scannedRule_ruleID ..) (scannedRule_rule ..), scannedRule_isWaitingResponse,
      h.waiting r hr, Awaits, Awaits, asked_append_iff, asked_scan_iff h.ids hr,
      and_iff_left (fun a ha => (hunwritten a ha).keepsRule _)]
    tauto

/-- The first rule that waits for the command is written. -/
theorem answered {before after : List RuleInstance} {r : RuleInstance} {cmd : IoTCommand}
    {sent : Option (IoTDeviceInfo × Int)} {socketIndex : Nat} {package : IoTPackage}
    (hrules : ruler.rules = before ++ r :: after) (hanswers : Answers cmd r) :
    FlagsTrue { ruler with rules := before ++ { r with isWaitingResponse := false } :: after }
      (log ++ [.extracted socketIndex package,
        .effect (.ruleWritten { r with isWaitingResponse := false } cmd.value sent)]) := by
  have hmem : r ∈ ruler.rules := by simp [hrules]
  have hids := h.ids.distinct
  rw [hrules] at hids
  have hextracted : ∀ a ∈ [Action.extracted socketIndex package], RuleQuiet a := by
    intro a ha
    obtain rfl := List.mem_singleton.mp ha
    trivial
  -- The package itself changes nothing, the write only this rule.
  have hpackage := h.kept (List.Sublist.refl _) hextracted
  have hawaits : Awaits r (log ++ [.extracted socketIndex package]) :=
    (hpackage.waiting r hmem).mp hanswers.1
  rw [List.append_cons log]
  refine
    { ids := h.ids.of_sublist (by simp [hrules]) rfl
      logged := ?_
      waiting := ?_
      written := ?_ }
  · intro a ha x hx
    rcases List.mem_append.mp ha with ha | ha
    · exact hpackage.logged a ha x hx
    · obtain rfl := List.mem_singleton.mp ha
      obtain rfl := Option.some.inj hx
      exact h.ids.below r.ruleID (List.mem_map_of_mem hmem)
  · intro x hx
    have hlast : ∀ {x : RuleInstance}, ¬ Asked x
        [.effect (.ruleWritten { r with isWaitingResponse := false } cmd.value sent)] := by
      rintro x ⟨before, r', target, after, heq, -, -⟩
      cases before with
      | nil => cases (List.cons.inj heq).1
      | cons a before => simp at heq
    rw [Awaits, asked_append_iff, or_iff_right hlast]
    rcases mem_of_answered hids hx with rfl | ⟨hx, hne⟩
    · refine iff_of_false Bool.false_ne_true fun hw => ?_
      exact hw.2.2 _ (List.mem_singleton_self _) rfl
    · rw [hpackage.waiting x (hrules ▸ hx), Awaits]
      refine and_congr_right fun _ => (and_iff_left fun a ha => ?_).symm
      obtain rfl := List.mem_singleton.mp ha
      exact hne
  · exact atEach_concat_iff.mpr ⟨hpackage.written, (awaits_congr rfl rfl).mpr hawaits⟩

/-- Whatever happens to the table, its flags follow the time line; one case for each kind
of step. -/
theorem step (hstep : RulerStep ruler ruler' tail) : FlagsTrue ruler' (log ++ tail) := by
  cases hstep with
  | kept rules hrules hruler hquiet =>
      subst hruler
      exact h.kept hrules hquiet
  | added rule hadd hquiet => exact h.added hadd hquiet
  | scanned server m hm hruler htail =>
      subst hruler htail
      exact h.scanned server hm
  | answered before after r cmd sent socketIndex package hrules hbefore hanswers hruler htail =>
      subst hruler htail
      exact h.answered hrules hanswers

end FlagsTrue

/-- **At most one write for each read**, in every run: a rule that is written has
both its ends and was read after it was written last, a rule waits exactly when
this is so, and no id on the time line will be given out again. -/
theorem ruleWrites_run {J : Jansson} {maxClient : Nat} {actionFrequency : Int}
    {es : List ManagerEvent} {s : ManagerState}
    (h : Run (fun s e s' => ManagerEvent.step J s e = .ok s') (.initial maxClient actionFrequency)
      es s) :
    AtEach WrittenOnce s.log ∧
      (∀ r ∈ s.manager.ruler.rules, r.isWaitingResponse = true ↔ Awaits r s.log) ∧
      (s.manager.ruler.rules.map (·.ruleID)).Nodup ∧
      ∀ a ∈ s.log, ∀ r, a.ruleInstance = some r → r.ruleID < s.manager.ruler.nextRuleId := by
  have h₀ : FlagsTrue (ManagerState.initial maxClient actionFrequency).manager.ruler [] :=
    { ids := ruleIds_initial _ _
      logged := by simp
      waiting := by simp [ManagerState.initial]
      written := atEach_nil }
  have hs : FlagsTrue s.manager.ruler s.log := by
    refine h.invariant (I := fun s => FlagsTrue s.manager.ruler s.log) h₀ ?_
    intro s e s' hs hstep
    obtain ⟨tail, hlog, hruler⟩ := ManagerEvent.step_cases hstep
    exact hlog ▸ hs.step hruler
  exact ⟨hs.written, hs.waiting, hs.ids.distinct, hs.logged⟩

/-- The first of two rules is written, the second goes on waiting. -/
theorem ruleWrites_run_heat : ∃ s : ManagerState,
    s.log.getLast? = some firstWritten ∧
      s.manager.ruler.rules.map (·.isWaitingResponse) = [false, true] ∧
      AtEach WrittenOnce s.log ∧
      ∀ r ∈ s.manager.ruler.rules, r.isWaitingResponse = true ↔ Awaits r s.log := by
  obtain ⟨s, hs, hq⟩ := Option.map_eq_some_iff.mp
    (show (execute (fun _ _ => True) (fun s e => ManagerEvent.step heatJansson s e)
        (.initial 3 1000) (heatEvents (lit "DEV.0") 0)).map
          (fun s => (s.log.getLast?, s.manager.ruler.rules.map (·.isWaitingResponse)))
      = some (some firstWritten, [false, true]) by decide +kernel)
  obtain ⟨hlast, hflags⟩ := Prod.mk.inj hq
  obtain ⟨hwritten, hwaiting, -⟩ := ruleWrites_run ((run_of_execute hs).mono fun _ _ _ h => h.2)
  exact ⟨s, hlast, hflags, hwritten, hwaiting⟩

end IoTRepublic
