import RiskDecision.Fault
import RiskDecision.Rule.Basic
import RiskDecision.Text.Split

/-!
# The comparison of a clause

A clause compares the value of its field with its literal. Absent data never satisfies a clause,
with one exception, the test for absence. Equality looks at text forms except between truth values;
order and ranges are for numbers only. A range whose bounds are exchanged wraps around, as the hours
from 22 to 5 do.
-/

namespace RiskDecision.Clause

/-- The value equals the literal. -/
def holdsEqual (actual literal : Value) : Bool :=
  match actual with
  | .bool b => literal.bool? == some b
  | _ => actual.matchesText literal.display

/-- Compares two numbers; anything else is a mismatch, that of the actual value first. -/
def compareNumbers (test : Float → Float → Bool) (actual literal : Value) : Except Fault Bool :=
  match actual, literal with
  | .number x, .number y => .ok (test x y)
  | .number _, other => .error (.typeMismatch .number other.kind)
  | other, _ => .error (.typeMismatch .number other.kind)

/-- The value is a member of a literal list, or of a text that lists members with commas. -/
def isMember (actual literal : Value) : Except Fault Bool :=
  match literal with
  | .text s => .ok ((Text.split ',' s).any fun item => actual.matchesText (Text.trim item))
  | .list items => .ok (items.any fun item => actual.matchesText item.display)
  | other => .error (.notMembers other.kind)

/-- The number lies between the bounds, both included; exchanged bounds wrap around. -/
def liesBetween (x low high : Float) : Bool :=
  if low ≤ high then low ≤ x && x ≤ high else x ≥ low || x ≤ high

/-- The value lies in the range of a literal list of two numbers. -/
def isBetween (actual literal : Value) : Except Fault Bool :=
  match actual with
  | .number x =>
    match literal with
    | .list [.number low, .number high] => .ok (liesBetween x low high)
    | .list [_, _] => .error .boundsNotNumbers
    | other => .error (.notBounds other)
  | other => .error (.typeMismatch .number other.kind)

/-- Applies an operator to a value and a literal. -/
def test (operator : Operator) (actual literal : Value) : Except Fault Bool :=
  match operator with
  | .unknown name => .error (.unsupportedOperator name)
  | .isNull => .ok actual.isNull
  | operator =>
    if actual.isNull then .ok false
    else
      match operator with
      | .equals => .ok (holdsEqual actual literal)
      | .notEquals => .ok (!holdsEqual actual literal)
      | .greaterThan => compareNumbers (fun x y => x > y) actual literal
      | .lessThan => compareNumbers (fun x y => x < y) actual literal
      | .between => isBetween actual literal
      | .inList => isMember actual literal
      | .isNull | .unknown _ => .ok false

end RiskDecision.Clause
