import Mathlib.Algebra.BigOperators.Group.List.Basic
import RiskDecision.Catalog.Basic
import RiskDecision.Proofs.Engine.Account
import RiskDecision.Proofs.Evaluation.Reached

/-!
# The faults of a decision

A decision by a catalog evaluates every enabled rule, and of the conditions of a rule the clauses
that are reached; of the rules that apply it takes every action. So how many faults it swallows can
be told without going through it: count the reached clauses whose comparison fails and the actions,
of rules that apply, that fail.
-/

namespace RiskDecision.Engine

/-- The clauses of enabled rules that are reached in a case and cannot be compared. -/
def clauseErrors (engine : Engine) (rules : List Rule) (c : Case) : Nat :=
  ((rules.filter (·.enabled)).flatMap fun r =>
    Group.reached? (Clause.holds engine.aliases c) r.conditions).countP fun clause =>
      (clause.comparison engine.aliases c).fault?.isSome

/-- The actions of the rules that apply to a case that cannot be taken. -/
def actionErrors (engine : Engine) (rules : List Rule) (c : Case) : Nat :=
  (((rules.filter (·.enabled)).filter (Rule.applies engine.aliases c)).flatMap (·.actions)).countP
    fun action => action.fault?.isSome

/-- The rules of a catalog are in order, so the enabled ones are evaluated as they stand. -/
theorem runs_decideByCatalog (engine : Engine) (catalog : Catalog) (c : Case) :
    (engine.decideByCatalog catalog c).runs
      = (catalog.rules.filter (·.enabled)).map fun r =>
          ⟨r, runConditions engine.aliases c r.conditions⟩ := by
  rw [decideByCatalog, decideUnder]
  split
  · next hempty => rw [List.isEmpty_iff.mp hempty]; rfl
  · show engine.runRules catalog.rules c = _
    rw [runRules, Rule.inOrder_eq_self catalog.sorted]

theorem length_clauseFaults (engine : Engine) (catalog : Catalog) (c : Case) :
    (engine.decideByCatalog catalog c).clauseFaults.length
      = engine.clauseErrors catalog.rules c := by
  rw [Evaluation.clauseFaults, runs_decideByCatalog, clauseErrors, List.flatMap_map,
    List.length_flatMap, List.countP_flatMap]
  refine congrArg List.sum (List.map_congr_left ?_)
  intro r _
  rw [faults_runConditions, List.length_filterMap_eq_countP, List.countP_map]
  rfl

theorem length_actionFaults (engine : Engine) (catalog : Catalog) (c : Case) :
    (engine.decideByCatalog catalog c).actionFaults.length
      = engine.actionErrors catalog.rules c := by
  rw [Evaluation.actionFaults, runs_decideByCatalog, actionErrors, List.flatMap_map,
    List.length_flatMap, List.countP_flatMap]
  induction catalog.rules.filter (·.enabled) with
  | nil => rfl
  | cons r rest ih =>
      rw [List.map_cons, List.sum_cons, ih, RuleRun.actionFaults, runConditions_matched]
      cases happlies : r.applies engine.aliases c with
      | true =>
          rw [List.filter_cons_of_pos happlies, List.map_cons, List.sum_cons, if_pos rfl,
            List.length_filterMap_eq_countP]
          rfl
      | false =>
          rw [List.filter_cons_of_neg (by rw [happlies]; exact Bool.false_ne_true),
            if_neg Bool.false_ne_true, List.length_nil, Nat.zero_add]

/-- Every case is decided in some way. -/
theorem decision_decideByCatalog (engine : Engine) (catalog : Catalog) (c : Case) :
    ∃ x, (engine.decideByCatalog catalog c).verdict.decision = some x := by
  rw [decideByCatalog]
  by_cases hne : catalog.rules = []
  · rw [hne]
    exact ⟨_, rfl⟩
  · rw [decideUnder_verdict engine _ hne c]
    exact ⟨_, Verdict.decision_settle _⟩

end RiskDecision.Engine
