import RiskDecision.Proofs.Evaluation.Address
import RiskDecision.Proofs.Evaluation.Nodes

/-!
# The steps of a run

A run notes a step whenever it comes to a clause or to an empty group, and two steps for a group with
children, one when it goes in and one when it comes out. Which steps there are and where they stand
is said by two facts. The steps of a run are, in some order, the steps about the evaluated nodes, one
or two for each (`Condition.perm_steps_run`), so nothing is missing, nothing is noted twice and
nothing else is noted. And the run of an evaluated node is one block of the run of the tree
(`Condition.isBlock_run`), so the steps of a group are not torn apart.
-/

namespace RiskDecision

/-- The number of the first child that decides a group. -/
def decider? (v : Clause → Bool) (k : Connective) (children : List Condition) : Option Nat :=
  children.findIdx? fun child => child.truth v == k.decisive

/-- The children of a group that are evaluated: all up to the first one that decides it. -/
def evaluatedChildren (v : Clause → Bool) (k : Connective) (children : List Condition) :
    List Condition :=
  match decider? v k children with
  | some number => children.take (number + 1)
  | none => children

/-- The steps that are about a node itself and not about what is below it. -/
def Occurrence.steps (aliases : List String) (c : Case) (o : Occurrence) : List Step :=
  match o.node with
  | .clause clause => (clause.run aliases c o.address).steps
  | .group _ [] => [.emptyGroup o.address]
  | .group k (first :: rest) =>
    [.opened o.address k (first :: rest).length,
      .closed o.address k (decider? (Clause.holds aliases c) k (first :: rest))]

/-! ## The children of a group -/

section Children

variable {v : Clause → Bool} {k : Connective} {child : Condition} {rest : List Condition}

theorem decider?_cons_of_decisive (hd : child.truth v = k.decisive) :
    decider? v k (child :: rest) = some 0 := by
  rw [decider?, List.findIdx?_cons, if_pos (beq_iff_eq.mpr hd)]

theorem decider?_cons_of_ne (hd : child.truth v ≠ k.decisive) :
    decider? v k (child :: rest) = (decider? v k rest).map (· + 1) := by
  rw [decider?, List.findIdx?_cons, if_neg (fun h => hd (beq_iff_eq.mp h))]
  rfl

theorem evaluatedChildren_cons_of_decisive (hd : child.truth v = k.decisive) :
    evaluatedChildren v k (child :: rest) = [child] := by
  rw [evaluatedChildren, decider?_cons_of_decisive hd]
  rfl

theorem evaluatedChildren_cons_of_ne (hd : child.truth v ≠ k.decisive) :
    evaluatedChildren v k (child :: rest) = child :: evaluatedChildren v k rest := by
  rw [evaluatedChildren, evaluatedChildren, decider?_cons_of_ne hd]
  cases decider? v k rest <;> rfl

end Children

variable {aliases : List String} {c : Case}

/-- **CHILDREN** run one after the other, up to the first one that decides the group. -/
theorem runChildren_eq (address : Address) (k : Connective) (children : List Condition)
    (number : Nat) :
    runChildren aliases c address k number children
      = ((decider? (Clause.holds aliases c) k children).map (· + number),
        ((evaluatedChildren (Clause.holds aliases c) k children).zipIdx number).flatMap fun e =>
          (e.1.run aliases c (address ++ [e.2])).steps) := by
  induction children generalizing number with
  | nil => rfl
  | cons child rest ih =>
      rw [runChildren, Condition.run_matched]
      by_cases hd : child.truth (Clause.holds aliases c) = k.decisive
      · rw [if_pos hd, decider?_cons_of_decisive hd, evaluatedChildren_cons_of_decisive hd,
          List.zipIdx_singleton, List.flatMap_singleton, Option.map_some, Nat.zero_add]
      · have hshift : (fun i => i + (number + 1)) = (fun i => i + number) ∘ fun i => i + 1 := by
          funext i
          exact Nat.add_right_comm i number 1
        rw [if_neg hd, decider?_cons_of_ne hd, evaluatedChildren_cons_of_ne hd, ih,
          List.zipIdx_cons, List.flatMap_cons, Option.map_map, hshift]

/-- The decider of a group is found by the evaluation. -/
theorem runChildren_fst (address : Address) (k : Connective) (children : List Condition) :
    (runChildren aliases c address k 0 children).1
      = decider? (Clause.holds aliases c) k children := by
  rw [runChildren_eq]
  exact Option.map_id'

/-- The steps of a group with children, in their order. -/
theorem Condition.steps_run_group (address : Address) (k : Connective) (first : Condition)
    (rest : List Condition) :
    ((Condition.group k (first :: rest)).run aliases c address).steps
      = .opened address k (first :: rest).length ::
        ((runChildren aliases c address k 0 (first :: rest)).2 ++
          [.closed address k (decider? (Clause.holds aliases c) k (first :: rest))]) := by
  rw [Condition.run, ← runChildren_fst address k (first :: rest)]

/-! ## Which steps there are -/

mutual

/-- **COMPLETE AND WITHOUT REPETITION**: the steps of a run are those about the evaluated nodes. -/
theorem Condition.perm_steps_run :
    ∀ (t : Condition) (address : Address),
      (t.run aliases c address).steps.Perm
        ((t.visited (Clause.holds aliases c)).flatMap fun o => (o.under address).steps aliases c)
  | .clause clause, address => by
      rw [Condition.visited, List.flatMap_singleton, Occurrence.under, List.append_nil]
      exact List.Perm.refl _
  | .group k [], address => by
      rw [Condition.visited, visitedFrom, List.flatMap_singleton, Occurrence.under,
        List.append_nil, Condition.run]
      exact List.Perm.refl _
  | .group k (first :: rest), address => by
      have hchildren := perm_steps_runChildren (first :: rest) address k 0
      rw [Condition.steps_run_group, Condition.visited, List.flatMap_cons, Occurrence.under,
        List.append_nil]
      -- only the closing step is out of place: it comes last, not right behind the opening one
      refine List.Perm.cons _ ?_
      exact (List.perm_append_singleton _ _).trans (hchildren.cons _)

theorem perm_steps_runChildren :
    ∀ (children : List Condition) (address : Address) (k : Connective) (number : Nat),
      (runChildren aliases c address k number children).2.Perm
        ((visitedFrom (Clause.holds aliases c) k number children).flatMap fun o =>
          (o.under address).steps aliases c)
  | [], address, k, number => List.Perm.refl _
  | child :: rest, address, k, number => by
      have hchild := Condition.perm_steps_run child (address ++ [number])
      have hunder : (fun o : Occurrence => (o.under (address ++ [number])).steps aliases c)
          = fun o => ((o.under [number]).under address).steps aliases c := by
        funext o
        rw [Occurrence.under, Occurrence.under, Occurrence.under, List.append_assoc]
      rw [hunder] at hchild
      rw [runChildren, visitedFrom, List.flatMap_append, List.flatMap_map, Condition.run_matched]
      by_cases hd : child.truth (Clause.holds aliases c) = k.decisive
      · rw [if_pos hd, if_pos hd, List.flatMap_nil, List.append_nil]
        exact hchild
      · rw [if_neg hd, if_neg hd]
        exact hchild.append (perm_steps_runChildren rest address k (number + 1))

end

theorem Occurrence.address_of_mem_steps {o : Occurrence} {step : Step}
    (h : step ∈ o.steps aliases c) : step.address? = some o.address := by
  obtain ⟨address, node⟩ := o
  cases node with
  | clause clause =>
      obtain rfl := List.mem_singleton.mp h
      rfl
  | group k children =>
      cases children with
      | nil =>
          obtain rfl := List.mem_singleton.mp h
          rfl
      | cons first rest =>
          rcases List.mem_cons.mp h with rfl | h
          · rfl
          · obtain rfl := List.mem_singleton.mp h
            rfl

/-- The steps of a run are about an evaluated node each. -/
theorem Condition.address_of_mem_run {t : Condition} {address : Address} {step : Step}
    (h : step ∈ (t.run aliases c address).steps) :
    ∃ o ∈ t.visited (Clause.holds aliases c), step.address? = some (address ++ o.address) := by
  obtain ⟨o, ho, hstep⟩ :=
    List.mem_flatMap.mp ((Condition.perm_steps_run t address).mem_iff.mp h)
  exact ⟨o, ho, Occurrence.address_of_mem_steps hstep⟩

theorem visitedFrom_sublist (v : Clause → Bool) (k : Connective) (children : List Condition)
    (number : Nat) : (visitedFrom v k number children).Sublist (nodesFrom number children) := by
  induction children generalizing number with
  | nil => exact List.Sublist.refl _
  | cons child rest ih =>
      rw [visitedFrom, nodesFrom, Condition.visited_eq]
      refine (List.filter_sublist.map _).append ?_
      split
      · exact List.nil_sublist _
      · exact ih (number + 1)

theorem exists_number_of_mem_visitedFrom {v : Clause → Bool} {k : Connective} {o : Occurrence}
    {number : Nat} {children : List Condition} (h : o ∈ visitedFrom v k number children) :
    ∃ i rest, o.address = i :: rest ∧ number ≤ i :=
  exists_number_of_mem_nodesFrom ((visitedFrom_sublist v k children number).subset h)

/-- The steps of the children of a group are about nodes in these children. -/
theorem address_of_mem_runChildren {children : List Condition} {address : Address}
    {k : Connective} {number : Nat} {step : Step}
    (h : step ∈ (runChildren aliases c address k number children).2) :
    ∃ i rest, step.address? = some (address ++ i :: rest) ∧ number ≤ i := by
  obtain ⟨o, ho, hstep⟩ :=
    List.mem_flatMap.mp ((perm_steps_runChildren children address k number).mem_iff.mp h)
  obtain ⟨i, rest, hi, hle⟩ := exists_number_of_mem_visitedFrom ho
  refine ⟨i, rest, ?_, hle⟩
  rw [← hi]
  exact Occurrence.address_of_mem_steps hstep

/-- The step is not about the node at the address, nor about anything below it. -/
def Step.Outside (address : Address) (step : Step) : Prop :=
  ∀ below, step.address? ≠ some (address ++ below)

theorem Step.outside_of_number_ne {address rest rest' : Address} {i j : Nat} {step : Step}
    (h : step.address? = some (address ++ i :: rest)) (hne : i ≠ j) :
    step.Outside (address ++ j :: rest') := by
  intro below heq
  rw [h, List.append_assoc] at heq
  have htail := List.append_cancel_left (Option.some.inj heq)
  exact hne (List.cons.inj htail).1

/-- The part is one block of the whole, and everything in the whole that is about the node at the
address or about what is below it stands in the part. -/
def IsBlock (address : Address) (part whole : List Step) : Prop :=
  ∃ before behind, whole = before ++ (part ++ behind) ∧
    ∀ step ∈ before ++ behind, step.Outside address

theorem IsBlock.refl (address : Address) (steps : List Step) : IsBlock address steps steps :=
  ⟨[], [], by rw [List.append_nil, List.nil_append], fun _ h => absurd h List.not_mem_nil⟩

theorem IsBlock.widen {address : Address} {part whole : List Step}
    (h : IsBlock address part whole) (front back : List Step)
    (hfront : ∀ step ∈ front, step.Outside address)
    (hback : ∀ step ∈ back, step.Outside address) :
    IsBlock address part (front ++ (whole ++ back)) := by
  obtain ⟨before, behind, rfl, houtside⟩ := h
  refine ⟨front ++ before, behind ++ back, by simp only [List.append_assoc], ?_⟩
  intro step hstep
  simp only [List.mem_append] at hstep houtside
  rcases hstep with (h | h) | h | h
  · exact hfront step h
  · exact houtside step (Or.inl h)
  · exact houtside step (Or.inr h)
  · exact hback step h

mutual

/-- **IN ONE PIECE**: the run of an evaluated node is a block of the run of the tree. -/
theorem Condition.isBlock_run :
    ∀ (t : Condition) (address : Address), ∀ o ∈ t.visited (Clause.holds aliases c),
      IsBlock (address ++ o.address) (o.node.run aliases c (address ++ o.address)).steps
        (t.run aliases c address).steps
  | .clause clause, address, o, ho => by
      obtain rfl := List.mem_singleton.mp ho
      rw [List.append_nil]
      exact IsBlock.refl _ _
  | .group k [], address, o, ho => by
      obtain rfl := List.mem_singleton.mp ho
      rw [List.append_nil]
      exact IsBlock.refl _ _
  | .group k (first :: rest), address, o, ho => by
      rcases List.mem_cons.mp ho with rfl | hbelow
      · rw [List.append_nil]
        exact IsBlock.refl _ _
      · obtain ⟨i, path, hi, -⟩ := exists_number_of_mem_visitedFrom hbelow
        -- the steps about the group itself stand at an address that is too short
        have hshort : ∀ step : Step, step.address? = some address →
            step.Outside (address ++ o.address) := by
          intro step hstep below heq
          rw [hstep, hi, List.append_assoc] at heq
          exact nomatch List.self_eq_append_right.mp (Option.some.inj heq)
        have hblock := isBlock_runChildren (first :: rest) address k 0 o hbelow
        rw [Condition.steps_run_group, ← List.singleton_append]
        refine hblock.widen _ _ ?_ ?_
        · exact List.forall_mem_singleton.mpr (hshort _ rfl)
        · exact List.forall_mem_singleton.mpr (hshort _ rfl)

theorem isBlock_runChildren :
    ∀ (children : List Condition) (address : Address) (k : Connective) (number : Nat),
      ∀ o ∈ visitedFrom (Clause.holds aliases c) k number children,
        IsBlock (address ++ o.address) (o.node.run aliases c (address ++ o.address)).steps
          (runChildren aliases c address k number children).2
  | [], address, k, number, o, ho => absurd ho List.not_mem_nil
  | child :: rest, address, k, number, o, ho => by
      rw [visitedFrom] at ho
      rw [runChildren, Condition.run_matched]
      by_cases hd : child.truth (Clause.holds aliases c) = k.decisive
      · rw [if_pos hd, List.append_nil] at ho
        obtain ⟨o', ho', rfl⟩ := List.mem_map.mp ho
        have hblock := Condition.isBlock_run child (address ++ [number]) o' ho'
        rw [List.append_assoc] at hblock
        rw [if_pos hd]
        exact hblock
      · rw [if_neg hd] at ho
        rw [if_neg hd]
        rcases List.mem_append.mp ho with hchild | hrest
        · -- all later children stand behind the block
          obtain ⟨o', ho', rfl⟩ := List.mem_map.mp hchild
          have hblock := Condition.isBlock_run child (address ++ [number]) o' ho'
          rw [List.append_assoc] at hblock
          refine hblock.widen [] _ (fun _ h => absurd h List.not_mem_nil) ?_
          intro step hstep
          obtain ⟨i, path, hi, hle⟩ := address_of_mem_runChildren hstep
          exact Step.outside_of_number_ne hi (by omega)
        · -- this child stands in front of the block
          have hblock := isBlock_runChildren rest address k (number + 1) o hrest
          obtain ⟨i, path, hi, hle⟩ := exists_number_of_mem_visitedFrom hrest
          have hwide := hblock.widen (child.run aliases c (address ++ [number])).steps [] ?_
            (fun _ h => absurd h List.not_mem_nil)
          · rw [List.append_nil] at hwide
            exact hwide
          · intro step hstep
            obtain ⟨o', -, ho'⟩ := Condition.address_of_mem_run hstep
            rw [List.append_assoc] at ho'
            rw [hi]
            exact Step.outside_of_number_ne ho' (by omega)

end

end RiskDecision
