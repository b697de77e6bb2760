import RiskDecision.Rule.Operator
import RiskDecision.Value.Basic

/-!
# Rules

A rule is a tree of conditions and a list of actions. The inner nodes of the tree join their
children by a connective, the leaves are clauses that compare one field with a literal. Rules apply
in ascending order of priority.
-/

namespace RiskDecision

/-- A comparison of a field with a literal. -/
structure Clause where
  field : String
  operator : Operator
  literal : Value
  /-- The declared type of the field. Nothing depends on it. -/
  dataType : Option String
  deriving Repr

/-- A node of a condition tree. -/
inductive Condition
  | clause (c : Clause)
  | group (connective : Connective) (children : List Condition)
  deriving Repr

/-- The root of a condition tree. -/
structure Group where
  connective : Connective
  children : List Condition
  deriving Repr

/-- One thing to do when a rule applies. -/
structure Action where
  kind : ActionKind
  value : Value
  reasonCode : Option String
  deriving Repr

/-- A rule. -/
structure Rule where
  id : String
  description : Option String
  domain : Option String
  enabled : Bool
  /-- A rule with a lower priority applies earlier. -/
  priority : Int
  conditions : Option Group
  actions : List Action
  deriving Repr

mutual

/-- The clauses of a node, from left to right. -/
def Condition.clauses : Condition → List Clause
  | .clause c => [c]
  | .group _ children => clausesOfAll children

/-- The clauses of several nodes, from left to right. -/
def clausesOfAll : List Condition → List Clause
  | [] => []
  | child :: rest => child.clauses ++ clausesOfAll rest

end

namespace Rule

/-- A rule with an identifier and nothing else: enabled, of priority zero, without conditions. -/
def named (id : String) : Rule := ⟨id, none, none, true, 0, none, []⟩

/-- All clauses of a rule, from left to right. -/
def clauses (r : Rule) : List Clause :=
  match r.conditions with
  | none => []
  | some root => clausesOfAll root.children

/-- The fields that a rule reads. -/
def fields (r : Rule) : List String := r.clauses.map Clause.field

/-- The first rule applies no later than the second. -/
def precedes (r s : Rule) : Bool := r.priority ≤ s.priority

/-- Rules in ascending order of priority, those of one priority in their given order. -/
def inOrder (rules : List Rule) : List Rule := rules.mergeSort precedes

theorem precedes_trans (a b c : Rule) (hab : precedes a b = true) (hbc : precedes b c = true) :
    precedes a c = true := by
  simp only [precedes, decide_eq_true_eq] at *
  omega

theorem precedes_total (a b : Rule) : (precedes a b || precedes b a) = true := by
  simp only [precedes, Bool.or_eq_true, decide_eq_true_eq]
  omega

theorem inOrder_sorted (rules : List Rule) :
    (inOrder rules).Pairwise fun r s => r.priority ≤ s.priority := by
  have h := List.pairwise_mergeSort precedes_trans precedes_total rules
  exact h.imp fun hle => by simpa [precedes] using hle

theorem inOrder_perm (rules : List Rule) : (inOrder rules).Perm rules :=
  List.mergeSort_perm rules precedes

end Rule

namespace Action

/-- Sets the decision and gives a reason. -/
def setDecision (decision reason : String) : Action := ⟨.setDecision, .text decision, some reason⟩

/-- Raises a flag. -/
def addFlag (flag : String) : Action := ⟨.addFlag, .text flag, none⟩

/-- Adds points to the score. -/
def adjustScore (points : Float) : Action := ⟨.adjustScore, .number points, none⟩

end Action

end RiskDecision
