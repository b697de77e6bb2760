import RiskDecision.Evaluation.Case
import RiskDecision.Evaluation.Clause

/-!
# Evaluating conditions

A condition tree is evaluated from left to right. A conjunction stops at its first child that fails
and a disjunction at its first child that holds; an empty group holds. Evaluation gives the result
and a log of the steps taken. The lines of a trace, the faults that were swallowed and the accessors
that were tried are all read off that log, so they cannot disagree with each other.

A clause whose comparison is impossible does not hold; nothing else happens.
-/

namespace RiskDecision

/-- The place of a node in a condition tree: the child numbers on the way down from the root. -/
abbrev Address := List Nat

/-- The text of an address. -/
def Address.text (address : Address) : String :=
  address.foldl (fun s i => s ++ ".clauses[" ++ toString i ++ "]") "root"

/-- A step of an evaluation. -/
inductive Step
  /-- There are no conditions. -/
  | unconditional
  /-- A group has no children. -/
  | emptyGroup (address : Address)
  /-- The evaluation of a group begins. -/
  | opened (address : Address) (connective : Connective) (size : Nat)
  /-- A clause was evaluated. -/
  | clause (address : Address) (clause : Clause) (lookup : Lookup) (outcome : Except Fault Bool)
  /-- A group is decided, by the given child if it was cut short. -/
  | closed (address : Address) (connective : Connective) (decider : Option Nat)

/-- What a comparison comes to: one that is impossible does not hold. -/
def verdictOf : Except Fault Bool → Bool
  | .ok b => b
  | .error _ => false

namespace Step

/-- The line of a trace for a step. -/
def line : Step → String
  | .unconditional => "root: 无条件，直接匹配"
  | .emptyGroup address => address.text ++ ": 空条件组，直接匹配"
  | .opened address connective size =>
    address.text ++ ": 开始评估 " ++ connective.name ++ " 组 (共 " ++ toString size ++ " 个子节点)"
  | .clause address c lookup outcome =>
    address.text ++ ": " ++ c.field ++ " (" ++ lookup.value.display ++ ") " ++ c.operator.name ++
      " " ++ c.literal.display ++ " => " ++ (if verdictOf outcome then "MATCHED" else "NOT_MATCHED")
  | .closed address .and (some i) =>
    address.text ++ ": AND 短路 - 子节点 " ++ toString i ++ " 不匹配"
  | .closed address .and none => address.text ++ ": AND 组全部匹配"
  | .closed address .or (some i) =>
    address.text ++ ": OR 短路 - 子节点 " ++ toString i ++ " 匹配"
  | .closed address .or none => address.text ++ ": OR 组无匹配"

/-- The accessors that were tried in a step. -/
def probes : Step → List Probe
  | .clause _ _ lookup _ => lookup.probes
  | _ => []

/-- The fault that was swallowed in a step. -/
def fault? : Step → Option Fault
  | .clause _ _ _ (.error fault) => some fault
  | _ => none

end Step

/-- The result of an evaluation and the steps that led to it. -/
structure Run where
  matched : Bool
  steps : List Step

namespace Run

/-- The lines of the trace. -/
def lines (r : Run) : List String := r.steps.map Step.line

/-- The accessors that were tried, in their order. -/
def probes (r : Run) : List Probe := r.steps.flatMap Step.probes

/-- The faults that were swallowed, in their order. -/
def faults (r : Run) : List Fault := r.steps.filterMap Step.fault?

end Run

/-- The result that decides a group: a failing child decides a conjunction, a holding child a
disjunction. -/
def Connective.decisive : Connective → Bool
  | .and => false
  | .or => true

/-- Evaluates a clause. -/
def Clause.run (aliases : List String) (c : Case) (address : Address) (clause : Clause) : Run :=
  let lookup := c.resolve aliases clause.field
  let outcome := Clause.test clause.operator lookup.value clause.literal
  ⟨verdictOf outcome, [.clause address clause lookup outcome]⟩

mutual

/-- Evaluates a node. -/
def Condition.run (aliases : List String) (c : Case) (address : Address) : Condition → Run
  | .clause clause => clause.run aliases c address
  | .group connective children =>
    match children with
    | [] => ⟨true, [.emptyGroup address]⟩
    | first :: rest =>
      let (decider, steps) := runChildren aliases c address connective 0 (first :: rest)
      ⟨match decider with
        | some _ => connective.decisive
        | none => !connective.decisive,
        .opened address connective (first :: rest).length ::
          (steps ++ [.closed address connective decider])⟩

/-- Evaluates the children of a group from the child with the given number on, up to the first one
whose result decides the group. Gives the number of that child and the steps. -/
def runChildren (aliases : List String) (c : Case) (address : Address) (connective : Connective)
    (number : Nat) : List Condition → Option Nat × List Step
  | [] => (none, [])
  | child :: rest =>
    let run := child.run aliases c (address ++ [number])
    if run.matched = connective.decisive then (some number, run.steps)
    else
      let (decider, steps) := runChildren aliases c address connective (number + 1) rest
      (decider, run.steps ++ steps)

end

/-- Evaluates the conditions of a rule. -/
def runConditions (aliases : List String) (c : Case) : Option Group → Run
  | none => ⟨true, [.unconditional]⟩
  | some root => (Condition.group root.connective root.children).run aliases c []

end RiskDecision
