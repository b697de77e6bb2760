import RiskDecision.Verdict.Action

/-!
# The account of applied actions

Actions are applied one after the other to a verdict that changes under them. This file tells the
result of a whole list of actions at once: which action made the decision, which reasons and flags
were given, and through which sums the score went. An action that fails contributes to none of
them, so the main statement, `Action.applyAll_eq_after`, needs no case for failure.
-/

namespace RiskDecision

namespace Action

/-- The decision that an action makes; one without a value makes none. -/
def decision? (a : Action) : Option String :=
  match a.kind with
  | .setDecision => if a.value.isNull then none else some a.value.display
  | _ => none

/-- The reason that an action gives; only an action that makes a decision gives one. -/
def reason? (a : Action) : Option String := a.decision?.bind fun _ => a.reasonCode

/-- The flag that an action raises; one without a value raises none. -/
def flag? (a : Action) : Option String :=
  match a.kind with
  | .addFlag => if a.value.isNull then none else some a.value.display
  | _ => none

/-- The points that an action adds to the score; only a number can be added. -/
def points? (a : Action) : Option Float :=
  match a.kind with
  | .adjustScore => a.value.number?
  | _ => none

/-- Actions that make no decision give no reason. -/
theorem reasons_eq_nil {actions : List Action} (h : actions.filterMap decision? = []) :
    actions.filterMap reason? = [] := by
  rw [List.filterMap_eq_nil_iff] at h ⊢
  intro a ha
  rw [reason?, h a ha]
  rfl

end Action

/-- The score after several adjustments, each under the policy. -/
def ScorePolicy.applySums (policy : ScorePolicy) (score : Float) (points : List Float) : Float :=
  points.foldl (fun s p => policy.apply (s + p)) score

/-- The verdict that a list of actions makes of another one. -/
def Verdict.after (policy : ScorePolicy) (v : Verdict) (actions : List Action) : Verdict :=
  { v with
    decision := (actions.filterMap Action.decision?).getLast?.or v.decision
    reasonCodes := v.reasonCodes ++ actions.filterMap Action.reason?
    flags := v.flags ++ actions.filterMap Action.flag?
    adjustedScore := policy.applySums v.adjustedScore (actions.filterMap Action.points?) }

namespace Verdict

@[simp] theorem after_nil (policy : ScorePolicy) (v : Verdict) : v.after policy [] = v := by
  simp [after, ScorePolicy.applySums]

/-- Actions may be taken in two portions. -/
theorem after_append (policy : ScorePolicy) (v : Verdict) (xs ys : List Action) :
    v.after policy (xs ++ ys) = (v.after policy xs).after policy ys := by
  simp only [after, ScorePolicy.applySums, List.filterMap_append, List.getLast?_append,
    List.foldl_append, List.append_assoc, Option.or_assoc]

/-- The account of one action. -/
theorem after_singleton (policy : ScorePolicy) (v : Verdict) (a : Action) :
    v.after policy [a] = { v with
      decision := a.decision?.or v.decision
      reasonCodes := v.reasonCodes ++ a.reason?.toList
      flags := v.flags ++ a.flag?.toList
      adjustedScore := (a.points?.map fun p => policy.apply (v.adjustedScore + p)).getD
        v.adjustedScore } := by
  have hlist : ∀ {β : Type} (f : Action → Option β), [a].filterMap f = (f a).toList := by
    intro β f
    rw [List.filterMap_cons]
    cases f a <;> rfl
  have hlast : ∀ o : Option String, o.toList.getLast? = o := by
    intro o
    cases o <;> rfl
  simp only [after, hlist, hlast]
  cases a.points? <;> rfl

end Verdict

namespace Action

/-- **ONE ACTION**: it changes the aspect of its kind, and nothing if it fails. -/
theorem applyOrSkip_eq_after (policy : ScorePolicy) (v : Verdict) (a : Action) :
    applyOrSkip policy v a = v.after policy [a] := by
  rw [Verdict.after_singleton]
  obtain ⟨kind, value, reasonCode⟩ := a
  simp only [applyOrSkip, apply, decision?, reason?, flag?, points?]
  -- decisions and flags fail on the null value, sums on everything but a number
  cases kind with
  | setDecision => cases value.isNull <;> simp
  | addFlag => cases value.isNull <;> simp
  | adjustScore => cases value <;> simp [Value.number?]
  | unknown name => simp

/-- **ALL ACTIONS**: applying a list of actions has the effect that the account tells. -/
theorem applyAll_eq_after (policy : ScorePolicy) (v : Verdict) (actions : List Action) :
    applyAll policy v actions = v.after policy actions := by
  induction actions generalizing v with
  | nil => exact (Verdict.after_nil policy v).symm
  | cons a rest ih =>
      show applyAll policy (applyOrSkip policy v a) rest = v.after policy (a :: rest)
      rw [ih, applyOrSkip_eq_after, ← Verdict.after_append, List.singleton_append]

end Action

end RiskDecision
