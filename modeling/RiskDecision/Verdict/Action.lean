import RiskDecision.Fault
import RiskDecision.Rule.Basic
import RiskDecision.Verdict.Basic
import RiskDecision.Verdict.Policy

/-!
# Applying actions

An action changes one aspect of a verdict or fails and changes nothing. The actions of a rule are
applied in order, and one that fails is passed over.
-/

namespace RiskDecision.Action

/-- Applies an action to a verdict. -/
def apply (policy : ScorePolicy) (v : Verdict) (a : Action) : Except Fault Verdict :=
  match a.kind with
  | .setDecision =>
    if a.value.isNull then .error .missingDecision
    else .ok { v with
      decision := some a.value.display
      reasonCodes := v.reasonCodes ++ a.reasonCode.toList }
  | .addFlag =>
    if a.value.isNull then .error .missingFlag
    else .ok { v with flags := v.flags ++ [a.value.display] }
  | .adjustScore =>
    match a.value with
    | .number points => .ok { v with adjustedScore := policy.apply (v.adjustedScore + points) }
    | other => .error (.typeMismatch .number other.kind)
  | .unknown name => .error (.unsupportedAction name)

/-- Applies an action, or leaves the verdict as it is. -/
def applyOrSkip (policy : ScorePolicy) (v : Verdict) (a : Action) : Verdict :=
  match a.apply policy v with
  | .ok v => v
  | .error _ => v

/-- Applies actions in order, passing over those that fail. -/
def applyAll (policy : ScorePolicy) (v : Verdict) (actions : List Action) : Verdict :=
  actions.foldl (applyOrSkip policy) v

/-- Why an action fails, if it does. That does not depend on the verdict it is applied to. -/
def fault? (a : Action) : Option Fault :=
  match a.kind with
  | .setDecision => if a.value.isNull then some .missingDecision else none
  | .addFlag => if a.value.isNull then some .missingFlag else none
  | .adjustScore =>
    match a.value with
    | .number _ => none
    | other => some (.typeMismatch .number other.kind)
  | .unknown name => some (.unsupportedAction name)

theorem apply_eq_error_iff {policy : ScorePolicy} {v : Verdict} {a : Action} {fault : Fault} :
    a.apply policy v = .error fault ↔ a.fault? = some fault := by
  unfold apply fault?
  cases a.kind with
  | setDecision => cases a.value.isNull <;> simp
  | addFlag => cases a.value.isNull <;> simp
  | adjustScore => cases a.value <;> simp
  | unknown name => simp

end RiskDecision.Action
