import RiskDecision.Evaluation.Condition
import RiskDecision.Verdict.Action

/-!
# Deciding a case by rules

The enabled rules are taken in ascending order of priority. Whether a rule applies depends on the
case alone, never on what earlier rules did to the verdict, so deciding has two parts: the
conditions of all rules are evaluated, and then the actions of those that hold are applied in the
same order.
-/

namespace RiskDecision

/-- How cases are decided. -/
structure Engine where
  /-- What becomes of adjusted scores, unless a catalog has a policy of its own. -/
  policy : ScorePolicy := .unclamped
  /-- The names that stand for the record in paths. -/
  aliases : List String := [Case.defaultAlias]
  /-- The verdict carries the steps that led to it. -/
  tracing : Bool := false

/-- A rule with the evaluation of its conditions. -/
structure RuleRun where
  rule : Rule
  run : Run

namespace RuleRun

/-- The lines of the trace: the steps of the evaluation, then the result for the rule. -/
def lines (r : RuleRun) : List String :=
  r.run.lines ++
    ["rule " ++ r.rule.id ++ ": " ++ if r.run.matched then "TRIGGERED" else "SKIPPED"]

/-- Applies the rule to a verdict if its conditions hold. -/
def apply (policy : ScorePolicy) (v : Verdict) (r : RuleRun) : Verdict :=
  if r.run.matched then
    Action.applyAll policy { v with triggered := v.triggered ++ [r.rule.id] } r.rule.actions
  else v

/-- The faults of actions that were passed over. -/
def actionFaults (r : RuleRun) : List Fault :=
  if r.run.matched then r.rule.actions.filterMap Action.fault? else []

end RuleRun

/-- A verdict with the evaluations that led to it. -/
structure Evaluation where
  verdict : Verdict
  runs : List RuleRun

namespace Evaluation

/-- The accessors that were tried, in their order. -/
def probes (e : Evaluation) : List Probe := e.runs.flatMap (·.run.probes)

/-- The faults of clauses that were swallowed. -/
def clauseFaults (e : Evaluation) : List Fault := e.runs.flatMap (·.run.faults)

/-- The faults of actions that were passed over. -/
def actionFaults (e : Evaluation) : List Fault := e.runs.flatMap RuleRun.actionFaults

end Evaluation

namespace Engine

/-- Evaluates the conditions of the enabled rules in order of priority. -/
def runRules (engine : Engine) (rules : List Rule) (c : Case) : List RuleRun :=
  ((Rule.inOrder rules).filter (·.enabled)).map fun rule =>
    ⟨rule, runConditions engine.aliases c rule.conditions⟩

/-- Decides a case by rules under a score policy. -/
def decideUnder (engine : Engine) (policy : ScorePolicy) (rules : List Rule) (c : Case) :
    Evaluation :=
  let start := Verdict.start c.score
  if rules.isEmpty then ⟨start.allow Verdict.noRules, []⟩
  else
    let runs := engine.runRules rules c
    let verdict := (runs.foldl (RuleRun.apply policy) start).settle
    ⟨{ verdict with trace := if engine.tracing then runs.flatMap RuleRun.lines else [] }, runs⟩

/-- Decides a case by rules. -/
def decide (engine : Engine) (rules : List Rule) (c : Case) : Evaluation :=
  engine.decideUnder engine.policy rules c

end Engine

end RiskDecision
