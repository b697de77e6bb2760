import RiskDecision.Dictionary

/-!
# JSON values

A value that was read from JSON. Integers within 64 bits stay integers; every other number is a
double. The members of an object are sorted by key and no key occurs twice, because reading puts
them into that order.
-/

namespace RiskDecision

/-- A JSON value. -/
inductive Json
  | null
  | bool (b : Bool)
  | int (n : Int)
  | float (x : Float)
  | text (s : String)
  | array (items : List Json)
  | object (members : List (String × Json))
  deriving Inhabited, Repr

namespace Json

/-- The kinds of JSON values that messages tell apart. -/
inductive Kind
  | null
  | bool
  | number
  | text
  | array
  | object
  deriving Repr, DecidableEq

/-- The name of a kind in messages. -/
def Kind.name : Kind → String
  | .null => "null"
  | .bool => "bool"
  | .number => "number"
  | .text => "string"
  | .array => "array"
  | .object => "object"

/-- The kind of a value. -/
def kind : Json → Kind
  | .null => .null
  | .bool _ => .bool
  | .int _ | .float _ => .number
  | .text _ => .text
  | .array _ => .array
  | .object _ => .object

/-- The member of an object with the given key. -/
def member? (key : String) : Json → Option Json
  | .object members => Dictionary.find? key members
  | _ => none

/-- The text in a text value. -/
def text? : Json → Option String
  | .text s => some s
  | _ => none

/-- A number; one that is not finite cannot be written and becomes the null value. -/
def ofFloat (x : Float) : Json := if x.isFinite then .float x else .null

/-- An optional text, null when absent. -/
def ofText? : Option String → Json
  | none => .null
  | some s => .text s

/-- The object with the given members. -/
def ofMembers (members : List (String × Json)) : Json := .object (Dictionary.ofList members)

end Json

end RiskDecision
