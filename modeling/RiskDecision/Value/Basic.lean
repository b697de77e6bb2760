import RiskDecision.Decimal.Layout
import RiskDecision.Decimal.Reader

/-!
# Field values

Record fields, features and the literals of rules are all values of one small type. No value is
ever converted silently: a comparison either knows both kinds or says that it does not.

A value has one text form, `display`, which is what messages and traces show and what comparisons
with text look at. Numbers have a second way to equal a text: by what the text denotes.
-/

namespace RiskDecision

/-- A field value or literal. -/
inductive Value
  | null
  | bool (b : Bool)
  | number (x : Float)
  | text (s : String)
  | list (items : List Value)
  deriving Inhabited, Repr

namespace Value

/-- The kinds of values that messages tell apart. -/
inductive Kind
  | null
  | bool
  | number
  | text
  | list
  deriving Repr, DecidableEq

/-- The name of a kind in messages. -/
def Kind.name : Kind → String
  | .null => "null"
  | .bool => "bool"
  | .number => "number"
  | .text => "string"
  | .list => "list"

/-- The kind of a value. -/
def kind : Value → Kind
  | .null => .null
  | .bool _ => .bool
  | .number _ => .number
  | .text _ => .text
  | .list _ => .list

/-- The value is the null value. -/
def isNull : Value → Bool
  | .null => true
  | _ => false

/-- The number in a number value. -/
def number? : Value → Option Float
  | .number x => some x
  | _ => none

/-- The truth value in a truth value. -/
def bool? : Value → Option Bool
  | .bool b => some b
  | _ => none

/-- The items of a list. -/
def list? : Value → Option (List Value)
  | .list items => some items
  | _ => none

/-- The text of a number: positional, and without a sign on zero. -/
def numberText (x : Float) : String := if x == 0 then "0" else Decimal.text x

mutual

/-- The text form of a value. -/
def display : Value → String
  | .null => "null"
  | .bool b => if b then "true" else "false"
  | .number x => numberText x
  | .text s => s
  | .list items => "[" ++ displayItems items ++ "]"

/-- The text forms of the items of a list, with a comma and a blank between them. -/
def displayItems : List Value → String
  | [] => ""
  | [item] => item.display
  | item :: rest => item.display ++ ", " ++ displayItems rest

end

/-- The text denotes the number, blanks around it aside. -/
def denotes (text : String) (x : Float) : Bool :=
  match Decimal.read? (Text.trim text) with
  | some y => y == x
  | none => false

/-- The value equals the text: a number by what the text denotes, any value by its own text. -/
def matchesText (v : Value) (text : String) : Bool :=
  (match v with
    | .number x => denotes text x
    | _ => false) || v.display == text

end Value

end RiskDecision
