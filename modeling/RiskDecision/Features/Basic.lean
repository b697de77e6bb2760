import RiskDecision.Json.Basic
import RiskDecision.Value.Basic

/-!
# Features

Features are values by name that rules refer to besides the fields of the record. A caller may send
its own; otherwise they are derived from the record.
-/

namespace RiskDecision

/-- Values by name. -/
abbrev Features := Dictionary Value

/-- The value of a feature, null for one that is not there. -/
def Features.value (features : Features) (name : String) : Value :=
  (Dictionary.find? name features).getD .null

end RiskDecision
