import RiskDecision.Json.Basic

/-!
# Verdicts

A verdict is what the rules have made of a case so far: a decision with reasons, flags, the score
before and after adjustment, and the rules that applied. If no rule decides, the case is allowed for
a reason that says so.
-/

namespace RiskDecision

/-- The outcome of the rules for a case. -/
structure Verdict where
  decision : Option String
  originalScore : Float
  adjustedScore : Float
  reasonCodes : List String
  flags : List String
  /-- The identifiers of the rules that applied, in the order of application. -/
  triggered : List String
  trace : List String
  deriving Repr

namespace Verdict

/-- The verdict before any rule. -/
def start (score : Float) : Verdict := ⟨none, score, score, [], [], [], []⟩

/-- The decision in favour of the transaction. -/
def allowance : String := "ALLOW"

/-- The reason for allowing a case to which there are no rules. -/
def noRules : String := "DEFAULT_ALLOW_NO_RULES"

/-- The reason for allowing a case that no rule decided. -/
def noDecisiveRules : String := "DEFAULT_ALLOW_NO_DECISIVE_RULES"

/-- Allows the case for a reason. -/
def allow (v : Verdict) (reason : String) : Verdict :=
  { v with decision := some allowance, reasonCodes := v.reasonCodes ++ [reason] }

/-- Allows the case if no rule decided it. -/
def settle (v : Verdict) : Verdict :=
  match v.decision with
  | some _ => v
  | none => v.allow noDecisiveRules

/-- Writes a verdict; an empty trace is left out. -/
def toJson (v : Verdict) : Json :=
  let texts (l : List String) : Json := .array (l.map .text)
  .ofMembers ([
    ("decision", .ofText? v.decision),
    ("originalMlScore", .ofFloat v.originalScore),
    ("finalAdjustedScore", .ofFloat v.adjustedScore),
    ("reasonCodes", texts v.reasonCodes),
    ("flags", texts v.flags),
    ("triggeredRuleIds", texts v.triggered)] ++
    if v.trace.isEmpty then [] else [("evaluationTrace", texts v.trace)])

end Verdict

end RiskDecision
