import IoTRepublic.IoT.Command
import IoTRepublic.IoT.Package

/-!
# IoTRepublic.IoT.Ruler

`IoT/Ruler.cpp`: the table of rules. A rule asks one device for a value whenever
its time has come, and passes the answer on to another device.

The two virtual methods that talk to the devices are parameters here; the manager
supplies them. `ε` is what they report to have done.

Time is counted down, not measured: every scan takes the length of a period off what a
rule has left, and a rule whose time is up asks and starts over. An answer is matched to a
rule by the id of the component it is about, not by its sender, and a rule takes one
answer for every time it has asked (`isWaitingResponse`).

The loops of the source count up to `int ruleCount` and are recursions over the whole
table here. That is the same: the ids of the rules come out of an `int` counter, whose
overflow is an error in `addRule`, so there are never more rules than an `int` counts
(`visible_rules_run`).
-/

namespace IoTRepublic

open Cpp JsonUtility

/-- `Ruler::RuleInstance`: a rule in the table, with the time left until it asks again and
whether it waits for an answer. -/
structure RuleInstance where
  ruleID : Int := -1
  rule : IoTRule
  waitingTimeMs : Int
  isWaitingResponse : Bool := false
  deriving DecidableEq, Repr

/-- `Ruler`: the table of rules, the id the next one gets, and the length of a scan period
in milliseconds. -/
structure Ruler where
  rules : List RuleInstance := []
  nextRuleId : Int := 0
  actionFrequency : Int
  deriving DecidableEq, Repr

namespace Ruler

variable {ε : Type}

/-- `addRule`: the rule goes last under the next id. Its time has come at once, as it
starts with no time to wait. -/
def addRule (rule : IoTRule) (ruler : Ruler) : Except Fault Ruler := do
  let nextRuleId ← addInt ruler.nextRuleId 1
  return { ruler with
    rules := ruler.rules ++ [{ ruleID := ruler.nextRuleId, rule := rule, waitingTimeMs := 0 }]
    nextRuleId := nextRuleId }

/-- `removeRule`: the first rule with the id goes. The ids are handed out in order, so in
a table that `addRule` has made it is the only one. -/
def removeRule (ruleId : Int) (rules : List RuleInstance) : List RuleInstance :=
  rules.eraseP (·.ruleID = ruleId)

/-- The body of `scanRules`, for one rule: it asks if its time has come, and else comes
one period closer to asking. -/
def scanRule (excuteReadRule : RuleInstance → Except Fault (RuleInstance × List ε))
    (actionFrequency : Int) (ruleInstance : RuleInstance) :
    Except Fault (RuleInstance × List ε) := do
  if ruleInstance.waitingTimeMs ≤ 0 then
    excuteReadRule { ruleInstance with waitingTimeMs := ruleInstance.rule.actionFrequency }
  else
    let waitingTimeMs ← addInt ruleInstance.waitingTimeMs (-actionFrequency)
    return ({ ruleInstance with waitingTimeMs := waitingTimeMs }, [])

/-- `scanRules`, over the rules from the first to the last. What a rule does is read off
before the next one is looked at. -/
def scanRules (excuteReadRule : RuleInstance → Except Fault (RuleInstance × List ε))
    (actionFrequency : Int) : List RuleInstance → Except Fault (List RuleInstance × List ε)
  | [] => .ok ([], [])
  | ruleInstance :: rules => do
    let (ruleInstance, done) ← scanRule excuteReadRule actionFrequency ruleInstance
    let (rules, done') ← scanRules excuteReadRule actionFrequency rules
    return (ruleInstance :: rules, done ++ done')

/-- `handleRulerCommand`: the first waiting rule that reads this component takes the
value, and waits no longer. Where none waits for it, the value is dropped. -/
def handleRulerCommand (excuteWriteRule : RuleInstance → Text → Except Fault (List ε))
    (cmd : IoTCommand) : List RuleInstance → Except Fault (List RuleInstance × List ε)
  | [] => .ok ([], [])
  | ruleInstance :: rules => do
    if ruleInstance.isWaitingResponse ∧ ruleInstance.rule.readID = cmd.id then
      let ruleInstance := { ruleInstance with isWaitingResponse := false }
      let done ← excuteWriteRule ruleInstance cmd.value
      return (ruleInstance :: rules, done)
    else
      let (rules, done) ← handleRulerCommand excuteWriteRule cmd rules
      return (ruleInstance :: rules, done)

/-- `handleRulePackage`: a rule is added to the table, a command is an answer for it. The
package is parsed once to tell the two apart and once more to read it. -/
def handleRulePackage (J : Jansson)
    (excuteWriteRule : RuleInstance → Text → Except Fault (List ε)) (package : IoTPackage)
    (ruler : Ruler) : Except Fault (Ruler × List ε) := do
  match loadJsonData J package.dataVector with
  | none => return (ruler, [])
  | some root =>
    let rootName ← getFirstKeyName (some root)
    if rootName = lit "IOTRUL" then
      let rule ← IoTRule.ofContent J package.dataVector
      return (← addRule rule ruler, [])
    else if rootName = lit "IOTCMD" then
      let cmd ← IoTCommand.ofContent J package.dataVector
      let (rules, done) ← handleRulerCommand excuteWriteRule cmd ruler.rules
      return ({ ruler with rules := rules }, done)
    else
      return (ruler, [])

end Ruler

end IoTRepublic
