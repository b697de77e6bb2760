import RiskDecision.Fault
import RiskDecision.Rule.Basic

/-!
# Valid rules

A rule that decodes may still be unusable: it must have an identifier, and every clause at every
depth must name a field.
-/

namespace RiskDecision.Rule

/-- What makes a rule unusable, if anything does. -/
def validate (r : Rule) : Except Fault Unit :=
  if Text.isAllBlank r.id then .error .blankRuleId
  else if r.clauses.any fun c => Text.isAllBlank c.field then .error (.blankField r.id)
  else .ok ()

end RiskDecision.Rule
