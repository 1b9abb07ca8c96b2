import IoTRepublic.IoT.Ruler

/-!
# IoTRepublic.IoT.RulerSpec

What the methods of the ruler do to its table, one lemma for each.

The table is a list, and a command is looked for from its front. So each lemma about a
command splits the table into the rules in front of the one that takes it, that rule, and
those behind; nothing but the waiting flag of the one rule changes. The virtual methods
are parameters of the ruler and stay parameters here.
-/

namespace IoTRepublic

open Cpp JsonUtility

namespace Ruler

variable {ε : Type}

/-- The rule `handleRulerCommand` writes for a command: the first that waits and
reads the command's component. -/
def Answers (cmd : IoTCommand) (ruleInstance : RuleInstance) : Prop :=
  ruleInstance.isWaitingResponse = true ∧ ruleInstance.rule.readID = cmd.id

instance (cmd : IoTCommand) (ruleInstance : RuleInstance) :
    Decidable (Answers cmd ruleInstance) := inferInstanceAs (Decidable (_ ∧ _))

/-- A command passes by every rule, or is taken by the first one it answers. -/
theorem handleRulerCommand_cases
    {excuteWriteRule : RuleInstance → Text → Except Fault (List ε)} {cmd : IoTCommand}
    {rules rules' : List RuleInstance} {done : List ε}
    (h : handleRulerCommand excuteWriteRule cmd rules = .ok (rules', done)) :
    ((∀ r ∈ rules, ¬ Answers cmd r) ∧ rules' = rules ∧ done = []) ∨
      ∃ before ruleInstance after, rules = before ++ ruleInstance :: after ∧
        (∀ r ∈ before, ¬ Answers cmd r) ∧ Answers cmd ruleInstance ∧
        rules' = before ++ { ruleInstance with isWaitingResponse := false } :: after ∧
        excuteWriteRule { ruleInstance with isWaitingResponse := false } cmd.value = .ok done := by
  -- The scan stops at the first rule that takes the command.
  induction rules generalizing rules' with
  | nil =>
      obtain ⟨rfl, rfl⟩ := Prod.mk.inj (Except.ok.inj h)
      exact .inl ⟨List.forall_mem_nil _, rfl, rfl⟩
  | cons ruleInstance rules ih =>
      rw [handleRulerCommand] at h
      split at h
      · rename_i hans
        obtain ⟨done', hdone, h⟩ := bind_ok_iff.mp h
        obtain ⟨rfl, rfl⟩ := Prod.mk.inj (Except.ok.inj h)
        exact .inr ⟨[], ruleInstance, rules, rfl, by simp, hans, rfl, hdone⟩
      · rename_i hans
        obtain ⟨⟨rules₁, done'⟩, hrest, h⟩ := bind_ok_iff.mp h
        obtain ⟨rfl, rfl⟩ := Prod.mk.inj (Except.ok.inj h)
        rcases ih hrest with
          ⟨hnone, rfl, rfl⟩ | ⟨before, r, after, rfl, hbefore, hr, rfl, hdone⟩
        · exact .inl ⟨List.forall_mem_cons.mpr ⟨hans, hnone⟩, rfl, rfl⟩
        · refine .inr ⟨ruleInstance :: before, r, after, rfl, ?_, hr, rfl, hdone⟩
          intro x hx
          rcases List.mem_cons.mp hx with rfl | hx
          · exact hans
          · exact hbefore x hx

theorem returns_handleRulerCommand_iff
    {excuteWriteRule : RuleInstance → Text → Except Fault (List ε)} {cmd : IoTCommand}
    {rules : List RuleInstance} :
    Returns (handleRulerCommand excuteWriteRule cmd rules) ↔
      ∀ r, rules.find? (fun r => Answers cmd r) = some r →
        Returns (excuteWriteRule { r with isWaitingResponse := false } cmd.value) := by
  induction rules with
  | nil => simp [handleRulerCommand]
  | cons r rules ih =>
      rw [handleRulerCommand]
      by_cases hans : r.isWaitingResponse = true ∧ r.rule.readID = cmd.id
      · rw [if_pos hans, List.find?_cons_of_pos (by exact decide_eq_true hans)]
        exact (returns_bind_iff_left fun _ _ => returns_ok _).trans (by simp)
      · rw [if_neg hans, List.find?_cons_of_neg (by exact fun h => hans (of_decide_eq_true h)),
          ← ih]
        exact returns_bind_iff_left fun _ _ => returns_ok _

theorem addRule_eq {rule : IoTRule} {ruler ruler' : Ruler} (h : addRule rule ruler = .ok ruler') :
    ruler' = { ruler with
      rules := ruler.rules ++ [{ ruleID := ruler.nextRuleId, rule := rule, waitingTimeMs := 0 }]
      nextRuleId := ruler.nextRuleId + 1 } := by
  obtain ⟨nextRuleId, hnext, h⟩ := bind_ok_iff.mp h
  obtain ⟨-, rfl⟩ := addInt_ok_iff.mp hnext
  exact (Except.ok.inj h).symm

theorem returns_addRule_iff {rule : IoTRule} {ruler : Ruler} :
    Returns (addRule rule ruler) ↔ InInt (ruler.nextRuleId + 1) := by
  refine (returns_bind_iff_left fun _ _ => returns_ok _).trans ?_
  constructor
  · intro h
    obtain ⟨nextRuleId, hnext⟩ := h
    exact (addInt_ok_iff.mp hnext).1
  · intro h
    exact ⟨_, addInt_of_inInt h⟩

/-- A package for the ruler is ignored, adds a rule, or is a command. -/
inductive RulePackage (J : Jansson) (excuteWriteRule : RuleInstance → Text → Except Fault (List ε))
    (package : IoTPackage) (ruler ruler' : Ruler) (done : List ε) : Prop
  | ignored (hruler : ruler' = ruler) (hdone : done = [])
  | added (rule : IoTRule) (hadd : addRule rule ruler = .ok ruler') (hdone : done = [])
  | command (cmd : IoTCommand) (rules : List RuleInstance)
      (hroot : getFirstKeyName (loadJsonData J package.dataVector) = .ok (lit "IOTCMD"))
      (hcmd : IoTCommand.ofContent J package.dataVector = .ok cmd)
      (hrules : handleRulerCommand excuteWriteRule cmd ruler.rules = .ok (rules, done))
      (hruler : ruler' = { ruler with rules := rules })

theorem handleRulePackage_cases {J : Jansson}
    {excuteWriteRule : RuleInstance → Text → Except Fault (List ε)} {package : IoTPackage}
    {ruler ruler' : Ruler} {done : List ε}
    (h : handleRulePackage J excuteWriteRule package ruler = .ok (ruler', done)) :
    RulePackage J excuteWriteRule package ruler ruler' done := by
  unfold handleRulePackage at h
  split at h
  · obtain ⟨rfl, rfl⟩ := Prod.mk.inj (Except.ok.inj h)
    exact .ignored rfl rfl
  rename_i root hload
  obtain ⟨rootName, hroot, h⟩ := bind_ok_iff.mp h
  split at h
  · obtain ⟨rule, -, h⟩ := bind_ok_iff.mp h
    obtain ⟨ruler₁, hadd, h⟩ := bind_ok_iff.mp h
    obtain ⟨rfl, rfl⟩ := Prod.mk.inj (Except.ok.inj h)
    exact .added rule hadd rfl
  split at h
  · rename_i hname
    obtain ⟨cmd, hcmd, h⟩ := bind_ok_iff.mp h
    obtain ⟨⟨rules, done'⟩, hrules, h⟩ := bind_ok_iff.mp h
    obtain ⟨rfl, rfl⟩ := Prod.mk.inj (Except.ok.inj h)
    exact .command cmd rules (by rw [hload, hroot, hname]) hcmd hrules rfl
  · obtain ⟨rfl, rfl⟩ := Prod.mk.inj (Except.ok.inj h)
    exact .ignored rfl rfl

end Ruler

end IoTRepublic
