import RiskDecision.Value.Basic

/-!
# What rules see of a record

Rules do not see the fields of a record but its accessors: named slots, each with a value or with a
nested record. A record type is described to rules by its `View`, and paths are followed on views
only.
-/

namespace RiskDecision

mutual

/-- The accessors of a record, and the name of its type. -/
inductive View
  | mk (typeName : String) (accessors : List (String × Slot))

/-- What an accessor gives. -/
inductive Slot
  | scalar (v : Value)
  | nested (v : View)

end

namespace View

/-- The name of the type of the record. -/
def typeName : View → String
  | .mk name _ => name

/-- What the accessor of exactly this name gives. -/
def slot? (accessor : String) : View → Option Slot
  | .mk _ accessors => accessors.lookup accessor

end View

namespace Slot

/-- A text field that may be absent. -/
def text (s : Option String) : Slot := .scalar ((s.map Value.text).getD .null)

/-- A number field. -/
def number (x : Float) : Slot := .scalar (.number x)

/-- An integer field, seen as a number. -/
def count (n : Int) : Slot := .scalar (.number (Float.ofInt n))

/-- A truth value field. -/
def flag (b : Bool) : Slot := .scalar (.bool b)

/-- A nested record that may be absent. -/
def child (v : Option View) : Slot :=
  match v with
  | some v => .nested v
  | none => .scalar .null

end Slot

end RiskDecision
