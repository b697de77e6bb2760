import RiskDecision.Proofs.Evaluation.Reached
import RiskDecision.Proofs.Rule.Clauses

/-!
# Evaluating by asking

An evaluator need not hold the case: it can ask someone who does, path by path, and give up as soon
as an answer is refused. `Condition.ask` is that evaluator. It is asked of a case that refuses blank
paths (`Case.findNamed`), so it shows which questions come up. They are those of the clauses that
are reached: asking gives the run if all of them name a field, and the first blank path if not
(`Condition.ask_findNamed`). Where no clause at any depth has a blank field, no question is refused
(`askConditions_of_named`).
-/

namespace RiskDecision

/-- Someone to ask for the value of a path, who may refuse to answer. -/
abbrev Finder := String → Except String Lookup

/-- The case answers for every path that is not blank; a blank one is refused. -/
def Case.findNamed (aliases : List String) (c : Case) : Finder := fun path =>
  if Text.isAllBlank path then .error path else .ok (c.resolve aliases path)

/-- Evaluates a clause on the answer for its field. -/
def Clause.ask (find : Finder) (address : Address) (clause : Clause) : Except String Run := do
  let lookup ← find clause.field
  let outcome := Clause.test clause.operator lookup.value clause.literal
  return ⟨verdictOf outcome, [.clause address clause lookup outcome]⟩

mutual

/-- Evaluates a node, asking for what it needs. -/
def Condition.ask (find : Finder) (address : Address) : Condition → Except String Run
  | .clause clause => clause.ask find address
  | .group connective children =>
    match children with
    | [] => return ⟨true, [.emptyGroup address]⟩
    | first :: rest => do
      let (decider, steps) ← askChildren find address connective 0 (first :: rest)
      return ⟨match decider with
        | some _ => connective.decisive
        | none => !connective.decisive,
        .opened address connective (first :: rest).length ::
          (steps ++ [.closed address connective decider])⟩

/-- Goes through the children of a group from the child with the given number on; behind the first
one that decides the group nothing is asked any more. -/
def askChildren (find : Finder) (address : Address) (connective : Connective) (number : Nat) :
    List Condition → Except String (Option Nat × List Step)
  | [] => return (none, [])
  | child :: rest => do
    let run ← child.ask find (address ++ [number])
    if run.matched = connective.decisive then return (some number, run.steps)
    else
      let (decider, steps) ← askChildren find address connective (number + 1) rest
      return (decider, run.steps ++ steps)

end

/-- Evaluates the conditions of a rule, asking for what it needs. -/
def askConditions (find : Finder) : Option Group → Except String Run
  | none => return ⟨true, [.unconditional]⟩
  | some root => (Condition.group root.connective root.children).ask find []

/-! ## The questions -/

/-- A result that is had if all clauses name a field; if not, the first blank field. -/
def ifNamed {α : Type} (clauses : List Clause) (a : α) : Except String α :=
  match clauses.find? fun clause => Text.isAllBlank clause.field with
  | none => .ok a
  | some clause => .error clause.field

section IfNamed

variable {α β : Type} {clauses : List Clause}

theorem ifNamed_nil (a : α) : ifNamed [] a = .ok a := rfl

theorem ifNamed_of_named (h : ∀ clause ∈ clauses, Text.isAllBlank clause.field = false) (a : α) :
    ifNamed clauses a = .ok a := by
  have hnone : clauses.find? (fun clause => Text.isAllBlank clause.field) = none :=
    List.find?_eq_none.mpr fun clause hmem => by rw [h clause hmem]; exact Bool.false_ne_true
  rw [ifNamed, hnone]

/-- What is asked later comes behind what is asked first. -/
theorem ifNamed_bind (clauses later : List Clause) (a : α) (b : β) {next : α → Except String β}
    (h : next a = ifNamed later b) :
    ifNamed clauses a >>= next = ifNamed (clauses ++ later) b := by
  rw [ifNamed, ifNamed, List.find?_append]
  cases hfirst : clauses.find? fun clause => Text.isAllBlank clause.field with
  | none => exact h
  | some clause => rfl

theorem ifNamed_map (clauses : List Clause) (a : α) {b : β} {next : α → Except String β}
    (h : next a = .ok b) : ifNamed clauses a >>= next = ifNamed clauses b := by
  have hbind := ifNamed_bind clauses [] a b (h.trans (ifNamed_nil b).symm)
  rwa [List.append_nil] at hbind

/-- Asking for one thing after the other. -/
theorem mapM_ifNamed {ask : α → Except String β} {asked : α → List Clause} {answer : α → β}
    (h : ∀ a, ask a = ifNamed (asked a) (answer a)) (as : List α) :
    as.mapM ask = ifNamed (as.flatMap asked) (as.map answer) := by
  induction as with
  | nil => rfl
  | cons a rest ih =>
      rw [List.mapM_cons, h, ih, List.flatMap_cons]
      exact ifNamed_bind _ _ _ _ (ifNamed_map _ _ rfl)

end IfNamed

variable {aliases : List String} {c : Case}

theorem Clause.ask_findNamed (clause : Clause) (address : Address) :
    clause.ask (c.findNamed aliases) address = ifNamed [clause] (clause.run aliases c address) := by
  rw [ask, Case.findNamed, ifNamed, List.find?_cons]
  cases Text.isAllBlank clause.field <;> rfl

mutual

/-- **NODES**: asking gives the run, unless a clause that is reached has a blank field. -/
theorem Condition.ask_findNamed :
    ∀ (t : Condition) (address : Address),
      t.ask (c.findNamed aliases) address
        = ifNamed (t.reached (Clause.holds aliases c)) (t.run aliases c address)
  | .clause clause, address => Clause.ask_findNamed clause address
  | .group k [], address => by
      rw [Condition.ask, Condition.run, Condition.reached, reachedAmong, ifNamed_nil]
      rfl
  | .group k (first :: rest), address => by
      rw [Condition.ask, Condition.run, Condition.reached,
        askChildren_findNamed (first :: rest) address k 0]
      exact ifNamed_map _ _ rfl

/-- The children of a group: the questions of a child come before those of the next one. -/
theorem askChildren_findNamed :
    ∀ (children : List Condition) (address : Address) (k : Connective) (number : Nat),
      askChildren (c.findNamed aliases) address k number children
        = ifNamed (reachedAmong (Clause.holds aliases c) k children)
            (runChildren aliases c address k number children)
  | [], address, k, number => rfl
  | child :: rest, address, k, number => by
      rw [askChildren, runChildren, reachedAmong,
        Condition.ask_findNamed child (address ++ [number])]
      refine ifNamed_bind _ _ _ _ ?_
      rw [Condition.run_matched]
      -- behind a decisive child neither evaluator looks at anything
      by_cases hd : child.truth (Clause.holds aliases c) = k.decisive
      · rw [if_pos hd, if_pos hd, if_pos hd]
        rfl
      · rw [if_neg hd, if_neg hd, if_neg hd, askChildren_findNamed rest address k (number + 1)]
        exact ifNamed_map _ _ rfl

end

/-- **CONDITIONS OF A RULE**: asking gives the run, unless a clause that is reached has a blank
field. -/
theorem askConditions_findNamed (root : Option Group) :
    askConditions (c.findNamed aliases) root
      = ifNamed (Group.reached? (Clause.holds aliases c) root) (runConditions aliases c root) := by
  cases root with
  | none => rfl
  | some root => exact Condition.ask_findNamed (.group root.connective root.children) []

/-! ## Clauses that are reached stand in the tree -/

mutual

theorem Condition.has_of_mem_reached {v : Clause → Bool} {clause : Clause} :
    ∀ t : Condition, clause ∈ t.reached v → t.Has clause
  | .clause other, h => by
      cases List.mem_singleton.mp h
      exact .here
  | .group k children, h => by
      obtain ⟨child, hmem, hchild⟩ := has_of_mem_reachedAmong k children h
      exact .inside hmem hchild

theorem has_of_mem_reachedAmong {v : Clause → Bool} {clause : Clause} (k : Connective) :
    ∀ children : List Condition, clause ∈ reachedAmong v k children →
      ∃ child ∈ children, child.Has clause
  | [], h => absurd h List.not_mem_nil
  | child :: rest, h => by
      rw [reachedAmong, List.mem_append] at h
      rcases h with h | h
      · exact ⟨child, List.mem_cons_self, Condition.has_of_mem_reached child h⟩
      · split at h
        · exact absurd h List.not_mem_nil
        · obtain ⟨other, hmem, hother⟩ := has_of_mem_reachedAmong k rest h
          exact ⟨other, List.mem_cons_of_mem child hmem, hother⟩

end

theorem Rule.has_of_mem_reached {v : Clause → Bool} {r : Rule} {clause : Clause}
    (h : clause ∈ Group.reached? v r.conditions) : r.Has clause := by
  rw [Rule.Has]
  cases hroot : r.conditions with
  | none =>
      rw [hroot] at h
      exact absurd h List.not_mem_nil
  | some root =>
      rw [hroot] at h
      exact ⟨root, rfl, has_of_mem_reachedAmong root.connective root.children h⟩

/-- **NAMED FIELDS**: if every clause of a rule names a field, no question is refused. -/
theorem askConditions_of_named {r : Rule}
    (h : ∀ clause, r.Has clause → Text.isAllBlank clause.field = false) :
    askConditions (c.findNamed aliases) r.conditions
      = .ok (runConditions aliases c r.conditions) := by
  rw [askConditions_findNamed]
  exact ifNamed_of_named (fun clause hmem => h clause (Rule.has_of_mem_reached hmem)) _

end RiskDecision
