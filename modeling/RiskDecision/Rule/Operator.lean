import RiskDecision.Text.Ascii

/-!
# Names in rules

Operators, connectives and actions are named in rules without regard to case and surrounding
blanks. An operator or action that nobody knows keeps its name as written: a rule that uses it is a
rule like any other until the clause or action is reached. A connective has to be known.
-/

namespace RiskDecision

/-- The comparison that a clause makes. -/
inductive Operator
  | isNull
  | equals
  | notEquals
  | greaterThan
  | lessThan
  | between
  | inList
  | unknown (name : String)
  deriving Repr, DecidableEq

/-- The operator of a name. -/
def Operator.ofName (name : String) : Operator :=
  match Text.upper (Text.trim name) with
  | "IS_NULL" => .isNull
  | "EQUALS" => .equals
  | "NOT_EQUALS" => .notEquals
  | "GREATER_THAN" => .greaterThan
  | "LESS_THAN" => .lessThan
  | "BETWEEN" => .between
  | "IN_LIST" => .inList
  | _ => .unknown name

/-- The name of an operator. -/
def Operator.name : Operator → String
  | .isNull => "IS_NULL"
  | .equals => "EQUALS"
  | .notEquals => "NOT_EQUALS"
  | .greaterThan => "GREATER_THAN"
  | .lessThan => "LESS_THAN"
  | .between => "BETWEEN"
  | .inList => "IN_LIST"
  | .unknown name => name

/-- How the children of a group are joined. -/
inductive Connective
  | and
  | or
  deriving Repr, DecidableEq

/-- The connective of a name. -/
def Connective.ofName? (name : String) : Option Connective :=
  match Text.upper (Text.trim name) with
  | "AND" => some .and
  | "OR" => some .or
  | _ => none

/-- The name of a connective. -/
def Connective.name : Connective → String
  | .and => "AND"
  | .or => "OR"

/-- What an action does. -/
inductive ActionKind
  | setDecision
  | addFlag
  | adjustScore
  | unknown (name : String)
  deriving Repr, DecidableEq

/-- The kind of action of a name. -/
def ActionKind.ofName (name : String) : ActionKind :=
  match Text.upper (Text.trim name) with
  | "SET_DECISION" => .setDecision
  | "ADD_FLAG" => .addFlag
  | "ADJUST_ML_SCORE_RELATIVE_POINTS" => .adjustScore
  | _ => .unknown name

/-- The name of a kind of action. -/
def ActionKind.name : ActionKind → String
  | .setDecision => "SET_DECISION"
  | .addFlag => "ADD_FLAG"
  | .adjustScore => "ADJUST_ML_SCORE_RELATIVE_POINTS"
  | .unknown name => name

end RiskDecision
