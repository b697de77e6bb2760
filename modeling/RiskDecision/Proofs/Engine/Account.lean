import RiskDecision.Engine
import RiskDecision.Proofs.Evaluation.Truth
import RiskDecision.Proofs.Rule.Order
import RiskDecision.Proofs.Verdict.Account

/-!
# The account of a decision

A verdict grows while the rules are gone through, and in the end a case that nobody decided is
allowed. This file says what comes out, field by field and without going through the rules: the
enabled rules are put into their one stable order, those that apply are kept, and everything in the
verdict is read off the actions of the kept rules.
-/

namespace RiskDecision

/-- The verdict that a list of applied rules makes of another one. -/
def Verdict.afterRules (policy : ScorePolicy) (v : Verdict) (rules : List Rule) : Verdict :=
  { v.after policy (rules.flatMap (·.actions)) with
    triggered := v.triggered ++ rules.map (·.id) }

namespace Verdict

@[simp] theorem afterRules_nil (policy : ScorePolicy) (v : Verdict) :
    v.afterRules policy [] = v := by
  simp [afterRules]

/-- Rules may be taken in two portions. -/
theorem afterRules_append (policy : ScorePolicy) (v : Verdict) (xs ys : List Rule) :
    v.afterRules policy (xs ++ ys) = (v.afterRules policy xs).afterRules policy ys := by
  simp only [afterRules, List.flatMap_append, after_append, List.map_append, List.append_assoc]
  rfl

/-- What settling decides: the decision that was made, else the allowance. -/
theorem decision_settle (v : Verdict) :
    v.settle.decision = some (v.decision.getD allowance) := by
  obtain ⟨decision, original, adjusted, reasons, flags, triggered, trace⟩ := v
  cases decision <;> rfl

/-- A reason of its own is added by settling only where no decision was made. -/
theorem reasonCodes_settle (v : Verdict) :
    v.settle.reasonCodes
      = v.reasonCodes ++ if v.decision.isSome then [] else [noDecisiveRules] := by
  obtain ⟨decision, original, adjusted, reasons, flags, triggered, trace⟩ := v
  cases decision with
  | none => rfl
  | some d => exact (List.append_nil reasons).symm

/-- Settling touches the decision and the reasons only. -/
theorem settle_frame (v : Verdict) :
    v.settle = { v with decision := v.settle.decision, reasonCodes := v.settle.reasonCodes } := by
  obtain ⟨decision, original, adjusted, reasons, flags, triggered, trace⟩ := v
  cases decision <;> rfl

end Verdict

/-! ## Going through the rules -/

/-- **ONE RULE**: it is taken if it applies and passed over if not. -/
theorem RuleRun.apply_eq (policy : ScorePolicy) (v : Verdict) (aliases : List String) (c : Case)
    (r : Rule) :
    RuleRun.apply policy v ⟨r, runConditions aliases c r.conditions⟩
      = v.afterRules policy ([r].filter (Rule.applies aliases c)) := by
  rw [RuleRun.apply, runConditions_matched]
  cases h : r.applies aliases c with
  | true =>
      rw [if_pos rfl, Action.applyAll_eq_after, List.filter_cons_of_pos h]
      simp only [Verdict.afterRules, Verdict.after, List.filter_nil, List.flatMap_cons,
        List.flatMap_nil, List.append_nil, List.map_cons, List.map_nil]
  | false =>
      rw [if_neg Bool.false_ne_true, List.filter_cons_of_neg (by rw [h]; exact Bool.false_ne_true)]
      exact (Verdict.afterRules_nil policy v).symm

/-- **ALL RULES**: going through rules has the effect of those that apply. -/
theorem foldl_apply_eq (policy : ScorePolicy) (aliases : List String) (c : Case)
    (rules : List Rule) (v : Verdict) :
    (rules.map fun r => RuleRun.mk r (runConditions aliases c r.conditions)).foldl
        (RuleRun.apply policy) v
      = v.afterRules policy (rules.filter (Rule.applies aliases c)) := by
  induction rules generalizing v with
  | nil => exact (Verdict.afterRules_nil policy v).symm
  | cons r rest ih =>
      -- the first rule makes a portion of one rule or of none
      rw [List.map_cons, List.foldl_cons, RuleRun.apply_eq, ih, ← Verdict.afterRules_append,
        ← List.filter_append, List.singleton_append]

namespace Engine

/-- The rules that apply to a case, in the order of their application. -/
def appliedRules (engine : Engine) (rules : List Rule) (c : Case) : List Rule :=
  ((Rule.inOrder rules).filter (·.enabled)).filter (Rule.applies engine.aliases c)

/-- The trace that an engine leaves. -/
def traceOf (engine : Engine) (rules : List Rule) (c : Case) : List String :=
  if engine.tracing then (engine.runRules rules c).flatMap RuleRun.lines else []

/-- What a decision by some rules comes to, in terms of the evaluations of the enabled ones. -/
theorem decideUnder_of_ne_nil {engine : Engine} {policy : ScorePolicy} {rules : List Rule}
    {c : Case} (hne : rules ≠ []) : engine.decideUnder policy rules c =
      let runs := engine.runRules rules c
      let verdict := (runs.foldl (RuleRun.apply policy) (Verdict.start c.score)).settle
      ⟨{ verdict with trace := if engine.tracing then runs.flatMap RuleRun.lines else [] },
        runs⟩ := by
  have hempty : rules.isEmpty = false := List.isEmpty_eq_false_iff.mpr hne
  rw [decideUnder, hempty]
  rfl

/-- The verdict of an engine in terms of the rules that apply. -/
theorem decideUnder_verdict (engine : Engine) (policy : ScorePolicy) {rules : List Rule}
    (hne : rules ≠ []) (c : Case) :
    (engine.decideUnder policy rules c).verdict =
      { ((Verdict.start c.score).afterRules policy (engine.appliedRules rules c)).settle with
        trace := engine.traceOf rules c } := by
  have hfold := foldl_apply_eq policy engine.aliases c ((Rule.inOrder rules).filter (·.enabled))
    (Verdict.start c.score)
  simp only [decideUnder_of_ne_nil hne, runRules, hfold]
  rfl

/-- The rules that a decision names are those that apply, in their order. -/
theorem triggered_decideUnder (engine : Engine) (policy : ScorePolicy) (rules : List Rule)
    (c : Case) :
    (engine.decideUnder policy rules c).verdict.triggered
      = (engine.appliedRules rules c).map (·.id) := by
  by_cases hne : rules = []
  · subst hne
    rw [appliedRules, Rule.inOrder_nil]
    rfl
  · rw [decideUnder_verdict engine policy hne, Verdict.settle_frame]
    rfl

/-- **THE ACCOUNT OF A DECISION.** There is a stable order of the enabled rules (and only one, by
`Rule.StableOrder.unique`) such that every field of the verdict but the trace is read off the
actions of those rules, in that order, that apply to the case. Without rules the case is allowed for
the reason that there are none. -/
theorem decideUnder_account (engine : Engine) (policy : ScorePolicy) (rules : List Rule)
    (c : Case) :
    ∃ ordered, Rule.StableOrder (rules.filter (·.enabled)) ordered ∧
      let applied := ordered.filter (Rule.applies engine.aliases c)
      let actions := applied.flatMap (·.actions)
      let decisions := actions.filterMap Action.decision?
      let v := (engine.decideUnder policy rules c).verdict
      v.triggered = applied.map (·.id) ∧
      v.decision = some (decisions.getLast?.getD Verdict.allowance) ∧
      v.reasonCodes = (if rules.isEmpty then [Verdict.noRules]
        else if decisions.isEmpty then [Verdict.noDecisiveRules]
        else actions.filterMap Action.reason?) ∧
      v.flags = actions.filterMap Action.flag? ∧
      v.originalScore = c.score ∧
      v.adjustedScore = policy.applySums c.score (actions.filterMap Action.points?) := by
  refine ⟨(Rule.inOrder rules).filter (·.enabled), ?_, ?_⟩
  · exact (Rule.stableOrder_inOrder rules).filter _
  · by_cases hne : rules = []
    · subst hne
      rw [Rule.inOrder_nil]
      exact ⟨rfl, rfl, rfl, rfl, rfl, rfl⟩
    · have hrules : rules.isEmpty = false := List.isEmpty_eq_false_iff.mpr hne
      rw [hrules, decideUnder_verdict engine policy hne c, Verdict.settle_frame,
        Verdict.decision_settle, Verdict.reasonCodes_settle, ← appliedRules]
      refine ⟨List.nil_append _, ?_, ?_, List.nil_append _, rfl, rfl⟩
      · show some ((Option.or _ none).getD _) = _
        rw [Option.or_none]
      · show [] ++ _ ++ (if (Option.or _ none).isSome then _ else _) = _
        rw [Option.or_none, List.nil_append]
        cases hd : ((engine.appliedRules rules c).flatMap (·.actions)).filterMap
            Action.decision? with
        | nil => rw [Action.reasons_eq_nil hd]; rfl
        | cons d ds => rw [List.getLast?_cons]; exact List.append_nil _

end Engine

end RiskDecision
