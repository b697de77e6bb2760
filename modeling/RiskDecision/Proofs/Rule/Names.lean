import RiskDecision.Rule.Operator

/-!
# Names survive being written

A known operator or action is written in one spelling, whatever the rule called it; an unknown one
is written as the rule has it. Either way the written name is read as what it was before.
-/

namespace RiskDecision

/-- **OPERATORS.** -/
theorem Operator.ofName_name (s : String) :
    Operator.ofName (Operator.ofName s).name = Operator.ofName s := by
  cases h : Operator.ofName s with
  | unknown name =>
      -- an unknown operator keeps the very name that was looked at
      have hname : name = s := by
        rw [Operator.ofName.eq_def] at h
        split at h <;> first | exact (Operator.unknown.inj h).symm | cases h
      subst hname
      exact h
  | _ => rfl

/-- **ACTIONS.** -/
theorem ActionKind.ofName_name (s : String) :
    ActionKind.ofName (ActionKind.ofName s).name = ActionKind.ofName s := by
  cases h : ActionKind.ofName s with
  | unknown name =>
      have hname : name = s := by
        rw [ActionKind.ofName.eq_def] at h
        split at h <;> first | exact (ActionKind.unknown.inj h).symm | cases h
      subst hname
      exact h
  | _ => rfl

theorem Connective.ofName?_name (k : Connective) : Connective.ofName? k.name = some k := by
  cases k <;> rfl

end RiskDecision
