import RiskDecision.Config.Setting
import RiskDecision.Text.Digits

/-!
# Nodes of a YAML text

A node is a scalar, a list or a table. A scalar without quotes is a truth value, an integer, a
number or nothing if it is written like one, and a text otherwise; a tag says more exactly what it
is. Only scalars can be keys, and nothing cannot.
-/

namespace RiskDecision.Yaml

/-- A value without parts. -/
inductive Scalar
  | null
  | bool (b : Bool)
  | int (n : Int)
  /-- A number as it is written. -/
  | real (s : String)
  | text (s : String)
  deriving Repr, DecidableEq

/-- A node of the tree that a text denotes. -/
inductive Node
  /-- A scalar without quotes whose kind is open. -/
  | plain (s : String)
  | scalar (s : Scalar)
  | list (items : List Setting)
  | table (entries : List (String × Setting))

namespace Scalar

/-- An integer of 64 bits in a base, with an optional sign. -/
def intOf? (base : Nat) (cs : List Char) : Option Int := do
  let (negative, digits) := Decimal.takeSign cs
  let n ← Text.natOfDigits? base digits
  let i : Int := if negative then -n else n
  if Decimal.fitsSigned 64 i then some i else none

/-- The integer that is written with a mark of its base, or with a plus sign. -/
def markedInt? : List Char → Option Int
  | '0' :: 'x' :: cs => intOf? 16 cs
  | '0' :: 'o' :: cs => intOf? 8 cs
  | '+' :: cs => intOf? 10 cs
  | _ => none

/-- The names of the infinite numbers, and of what is no number. -/
def namedNumbers : List String :=
  [".inf", ".Inf", ".INF", "+.inf", "+.Inf", "+.INF", "-.inf", "-.Inf", "-.INF",
    ".nan", ".NaN", ".NAN"]

/-- The text is a number. -/
def isReal (s : String) : Bool :=
  namedNumbers.contains s || (s.toList.any Char.isDigit && (Decimal.read? s).isSome)

/-- The scalar that a text without quotes denotes. -/
def ofPlain (s : String) : Scalar :=
  match markedInt? s.toList, intOf? 10 s.toList with
  | some n, _ => .int n
  | none, decimal =>
    if s == "" || s == "~" || s == "null" then .null
    else if s == "true" || s == "True" || s == "TRUE" then .bool true
    else if s == "false" || s == "False" || s == "FALSE" then .bool false
    else
      match decimal with
      | some n => .int n
      | none => if isReal s then .real s else .text s

/-- The scalar that a text without quotes denotes under a tag. What does not fit its tag is
nothing. -/
def ofTagged (tag s : String) : Scalar :=
  match tag with
  | "!!bool" => if s == "true" then .bool true else if s == "false" then .bool false else .null
  | "!!int" => ((intOf? 10 s.toList).map .int).getD .null
  | "!!float" => if isReal s then .real s else .null
  | "!!null" => .null
  | _ => .text s

/-- The configured value. The named numbers have none. -/
def setting? : Scalar → Option Setting
  | .null => some .null
  | .bool b => some (.bool b)
  | .int n => some (.int n)
  | .real s => (Decimal.read? s).map .float
  | .text s => some (.text s)

/-- The key that a scalar stands for. -/
def key? : Scalar → Option String
  | .null => none
  | .bool b => some (if b then "true" else "false")
  | .int n => some (toString n)
  | .real s | .text s => some s

end Scalar

namespace Node

/-- The node under a tag. -/
def tagged (tag : String) : Node → Node
  | .plain s => .scalar (.ofTagged tag s)
  | node => node

/-- The scalar of a node that is one. -/
def scalar? : Node → Option Scalar
  | .plain s => some (.ofPlain s)
  | .scalar s => some s
  | _ => none

/-- The configured value of a node. -/
def setting? : Node → Option Setting
  | .plain s => (Scalar.ofPlain s).setting?
  | .scalar s => s.setting?
  | .list items => some (.list items)
  | .table entries => some (.table entries)

/-- The table with entries of different keys. -/
def ofEntries? (entries : List (Scalar × Setting)) : Option Node := do
  if (entries.map (·.1)).Nodup then
    let named ← entries.mapM fun (key, value) => do return (← key.key?, value)
    return .table (Dictionary.ofList named)
  else none

end Node

end RiskDecision.Yaml
