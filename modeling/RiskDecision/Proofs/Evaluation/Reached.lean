import Mathlib.Data.List.Basic
import RiskDecision.Proofs.Evaluation.Truth

/-!
# The clauses that are reached

Evaluation leaves a group as soon as it is decided, so not every clause is compared. Which ones are
follows from truth alone: the children of a group are gone through up to the first decisive one. A
run compares each clause that is reached once, in their order, and what the comparison comes to
depends on the clause and the case only (`Condition.comparisons_run`). So the faults that a run
swallows are those of the clauses that are reached (`faults_runConditions`).
-/

namespace RiskDecision

mutual

/-- The clauses that are reached in a node when the truth of every clause is given. -/
def Condition.reached (v : Clause → Bool) : Condition → List Clause
  | .clause clause => [clause]
  | .group connective children => reachedAmong v connective children

/-- The clauses that are reached among the children of a group. -/
def reachedAmong (v : Clause → Bool) (connective : Connective) : List Condition → List Clause
  | [] => []
  | child :: rest =>
    child.reached v ++
      if child.truth v = connective.decisive then [] else reachedAmong v connective rest

end

/-- The clauses that are reached in the conditions of a rule. -/
def Group.reached? (v : Clause → Bool) : Option Group → List Clause
  | none => []
  | some root => reachedAmong v root.connective root.children

/-- A clause with what was found for it and what the comparison came to. -/
structure Comparison where
  clause : Clause
  lookup : Lookup
  outcome : Except Fault Bool

/-- The comparison of a clause in a case. -/
def Clause.comparison (aliases : List String) (c : Case) (clause : Clause) : Comparison :=
  let lookup := c.resolve aliases clause.field
  ⟨clause, lookup, Clause.test clause.operator lookup.value clause.literal⟩

/-- The fault that a comparison ended with. -/
def Comparison.fault? (comparison : Comparison) : Option Fault :=
  match comparison.outcome with
  | .ok _ => none
  | .error fault => some fault

/-- The comparison that a step made. -/
def Step.comparison? : Step → Option Comparison
  | .clause _ compared lookup outcome => some ⟨compared, lookup, outcome⟩
  | _ => none

/-- The comparisons of a run, in their order. -/
def Run.comparisons (r : Run) : List Comparison := r.steps.filterMap Step.comparison?

/-- Only comparisons have faults. -/
theorem Run.faults_eq (r : Run) : r.faults = r.comparisons.filterMap Comparison.fault? := by
  rw [faults, comparisons, List.filterMap_filterMap]
  refine List.filterMap_congr ?_
  intro step _
  cases step with
  | clause address clause lookup outcome => cases outcome <;> rfl
  | _ => rfl

/-! ## The comparisons of a run -/

variable {aliases : List String} {c : Case}

mutual

/-- **NODES**: a run compares the clauses that are reached, each once. -/
theorem Condition.comparisons_run :
    ∀ (t : Condition) (address : Address),
      (t.run aliases c address).comparisons
        = (t.reached (Clause.holds aliases c)).map (Clause.comparison aliases c)
  | .clause clause, address => rfl
  | .group k [], address => by
      rw [Condition.run, Condition.reached, reachedAmong]
      rfl
  | .group k (first :: rest), address => by
      have hchildren := comparisons_runChildren (first :: rest) address k 0
      rw [Condition.run, Condition.reached, ← hchildren, Run.comparisons]
      simp only [List.filterMap_cons, List.filterMap_append, Step.comparison?, List.filterMap_nil,
        List.append_nil]

/-- The children of a group are gone through up to the first decisive one. -/
theorem comparisons_runChildren :
    ∀ (children : List Condition) (address : Address) (k : Connective) (number : Nat),
      (runChildren aliases c address k number children).2.filterMap Step.comparison?
        = (reachedAmong (Clause.holds aliases c) k children).map (Clause.comparison aliases c)
  | [], address, k, number => rfl
  | child :: rest, address, k, number => by
      have hchild := Condition.comparisons_run child (address ++ [number])
      have hrest := comparisons_runChildren rest address k (number + 1)
      rw [Run.comparisons] at hchild
      rw [runChildren, reachedAmong, Condition.run_matched, List.map_append, ← hchild]
      by_cases hd : child.truth (Clause.holds aliases c) = k.decisive
      · rw [if_pos hd, if_pos hd, List.map_nil, List.append_nil]
      · rw [if_neg hd, if_neg hd, ← hrest]
        exact List.filterMap_append

end

/-- **CONDITIONS OF A RULE**: the faults that are swallowed are those of the clauses reached. -/
theorem faults_runConditions (root : Option Group) :
    (runConditions aliases c root).faults
      = ((Group.reached? (Clause.holds aliases c) root).map
          (Clause.comparison aliases c)).filterMap Comparison.fault? := by
  rw [Run.faults_eq]
  cases root with
  | none => rfl
  | some root =>
      exact congrArg (List.filterMap Comparison.fault?)
        (Condition.comparisons_run (.group root.connective root.children) [])

end RiskDecision
