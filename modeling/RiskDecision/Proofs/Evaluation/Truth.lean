import RiskDecision.Evaluation.Condition

/-!
# The truth of a condition tree

Evaluation stops as soon as a group is decided. `Condition.truth` does not: it asks every clause and
joins the answers, a conjunction by "all", a disjunction by "some", and a group without children
holds. The main statement, `Condition.run_matched`, says that stopping early never changes the
result, so everything about results can be argued on `Condition.truth` alone.
-/

namespace RiskDecision

/-- The joint truth of the children of a group. -/
def Connective.join : Connective → List Bool → Bool
  | _, [] => true
  | .and, truths => truths.all id
  | .or, truths => truths.any id

mutual

/-- The truth of a node when the truth of every clause is given. -/
def Condition.truth (v : Clause → Bool) : Condition → Bool
  | .clause clause => v clause
  | .group connective children => connective.join (truths v children)

/-- The truth of several nodes, one by one. -/
def truths (v : Clause → Bool) : List Condition → List Bool
  | [] => []
  | child :: rest => child.truth v :: truths v rest

end

theorem truths_eq_map (v : Clause → Bool) (children : List Condition) :
    truths v children = children.map (Condition.truth v) := by
  induction children with
  | nil => rfl
  | cons child rest ih => rw [truths, List.map_cons, ih]

/-- The truth of the conditions of a rule; there are none in a rule without conditions. -/
def Group.truth? (v : Clause → Bool) : Option Group → Bool
  | none => true
  | some root => root.connective.join (truths v root.children)

/-- A clause holds in a case: its comparison is possible and comes out true. -/
def Clause.holds (aliases : List String) (c : Case) (clause : Clause) : Bool :=
  verdictOf (Clause.test clause.operator (c.resolve aliases clause.field).value clause.literal)

/-- A rule applies to a case: its conditions hold. -/
def Rule.applies (aliases : List String) (c : Case) (r : Rule) : Bool :=
  Group.truth? (Clause.holds aliases c) r.conditions

/-! ## Stopping early -/

/-- A group with children holds unless the decisive truth occurs, in the case of a conjunction, and
only if it occurs, in the case of a disjunction. -/
theorem Connective.join_cons (k : Connective) (b : Bool) (bs : List Bool) :
    k.join (b :: bs) = if (b :: bs).any (· == k.decisive) then k.decisive else !k.decisive := by
  cases k with
  | and =>
      have hnot : (fun t : Bool => t == false) = fun t => !id t := by
        funext t
        cases t <;> rfl
      show (b :: bs).all id = if (b :: bs).any (· == false) then false else true
      rw [List.all_eq_not_any_not, hnot]
      cases (b :: bs).any fun t => !id t <;> rfl
  | or =>
      have hid : (fun t : Bool => t == true) = id := by
        funext t
        cases t <;> rfl
      show (b :: bs).any id = if (b :: bs).any (· == true) then true else false
      rw [hid]
      cases (b :: bs).any id <;> rfl

/-- The result of a group with children, read off the child that decided it. -/
theorem Condition.run_group_matched (aliases : List String) (c : Case) (address : Address)
    (k : Connective) (first : Condition) (rest : List Condition) :
    ((Condition.group k (first :: rest)).run aliases c address).matched
      = if (runChildren aliases c address k 0 (first :: rest)).1.isSome then k.decisive
        else !k.decisive := by
  rw [Condition.run]
  obtain ⟨decider, steps⟩ := runChildren aliases c address k 0 (first :: rest)
  cases decider <;> rfl

mutual

/-- **STOPPING EARLY IS INVISIBLE** in the result of a node. -/
theorem Condition.run_matched (aliases : List String) (c : Case) :
    ∀ (t : Condition) (address : Address),
      (t.run aliases c address).matched = t.truth (Clause.holds aliases c)
  | .clause clause, address => rfl
  | .group connective [], address => by
      rw [Condition.run, Condition.truth, truths]
      cases connective <;> rfl
  | .group connective (first :: rest), address => by
      rw [Condition.run_group_matched, Condition.truth, truths, Connective.join_cons, ← truths,
        runChildren_isSome aliases c (first :: rest) address connective 0]

/-- Some child decides a group exactly if the decisive truth occurs among the children. -/
theorem runChildren_isSome (aliases : List String) (c : Case) :
    ∀ (children : List Condition) (address : Address) (connective : Connective) (number : Nat),
      (runChildren aliases c address connective number children).1.isSome
        = (truths (Clause.holds aliases c) children).any (· == connective.decisive)
  | [], address, connective, number => rfl
  | child :: rest, address, connective, number => by
      have hchild := Condition.run_matched aliases c child (address ++ [number])
      have hrest := runChildren_isSome aliases c rest address connective (number + 1)
      rw [runChildren, truths, List.any_cons, ← hchild, ← hrest]
      -- a decisive child ends the run; after any other one the rest decides
      by_cases hd : (child.run aliases c (address ++ [number])).matched = connective.decisive
      · rw [if_pos hd, hd, beq_self_eq_true, Bool.true_or]
        rfl
      · rw [if_neg hd, beq_eq_false_iff_ne.mpr hd, Bool.false_or]

end

/-- A rule applies exactly if the evaluation of its conditions says so. -/
theorem runConditions_matched (aliases : List String) (c : Case) (r : Rule) :
    (runConditions aliases c r.conditions).matched = r.applies aliases c := by
  rw [Rule.applies]
  cases r.conditions with
  | none => rfl
  | some root =>
      exact Condition.run_matched aliases c (.group root.connective root.children) []

end RiskDecision
