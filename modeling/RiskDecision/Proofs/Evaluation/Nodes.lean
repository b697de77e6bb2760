import Mathlib.Data.List.Nodup
import RiskDecision.Proofs.Engine.OnePass
import RiskDecision.Proofs.Evaluation.Reached

/-!
# The nodes that are evaluated

A node of a condition tree is evaluated exactly if no step on the way down to it leads past a child
that decides its group already. `Condition.reaches` says so of addresses, by truth alone, and
`Condition.evaluated` picks these nodes out of all nodes of the tree, in document order. Evaluation
knows nothing of addresses that it does not come to: it goes from child to child and stops. That
both give the same nodes in the same order is `Condition.visited_eq`. The main statement,
`runConditions_shortCircuit`, takes from it that the result is the plain truth of the tree and that
the accessors that are tried are those of the evaluated clauses, one clause after the other.
-/

namespace RiskDecision

/-- A node of a condition tree and the way to it from the root. -/
structure Occurrence where
  address : Address
  node : Condition

namespace Occurrence

/-- What stands in a tree, seen from further up. -/
def under (above : Address) (o : Occurrence) : Occurrence := ⟨above ++ o.address, o.node⟩

/-- The clause, if the node is one. -/
def clause? (o : Occurrence) : Option Clause :=
  match o.node with
  | .clause clause => some clause
  | .group _ _ => none

end Occurrence

mutual

/-- The nodes of a tree in document order: a group before its children, and these from left to
right. -/
def Condition.nodes : Condition → List Occurrence
  | .clause clause => [⟨[], .clause clause⟩]
  | .group connective children => ⟨[], .group connective children⟩ :: nodesFrom 0 children

/-- The nodes of the children of a group, of which the first one has the given number. -/
def nodesFrom (number : Nat) : List Condition → List Occurrence
  | [] => []
  | child :: rest => child.nodes.map (Occurrence.under [number]) ++ nodesFrom (number + 1) rest

end

/-- On the way to the address no child stands in front that decides its group. -/
def Condition.reaches (v : Clause → Bool) : Condition → Address → Bool
  | _, [] => true
  | .clause _, _ :: _ => false
  | .group connective children, number :: rest =>
    (children.take number).all (fun sibling => sibling.truth v != connective.decisive) &&
      match children[number]? with
      | some child => child.reaches v rest
      | none => false

/-- The nodes that are evaluated, in document order. -/
def Condition.evaluated (v : Clause → Bool) (t : Condition) : List Occurrence :=
  t.nodes.filter fun o => t.reaches v o.address

/-- The root as a node. -/
def Group.tree (root : Group) : Condition := .group root.connective root.children

/-- The nodes that are evaluated in the conditions of a rule. -/
def Group.evaluated? (v : Clause → Bool) : Option Group → List Occurrence
  | none => []
  | some root => root.tree.evaluated v

/-! ## Going from child to child -/

mutual

/-- The nodes that are come to when every group is left at the first child that decides it. -/
def Condition.visited (v : Clause → Bool) : Condition → List Occurrence
  | .clause clause => [⟨[], .clause clause⟩]
  | .group connective children =>
    ⟨[], .group connective children⟩ :: visitedFrom v connective 0 children

/-- The nodes that are come to among the children from the one with the given number on. -/
def visitedFrom (v : Clause → Bool) (connective : Connective) (number : Nat) :
    List Condition → List Occurrence
  | [] => []
  | child :: rest =>
    (child.visited v).map (Occurrence.under [number]) ++
      if child.truth v = connective.decisive then []
      else visitedFrom v connective (number + 1) rest

end

/-- The nodes of later children have larger numbers at the head of their addresses. -/
theorem exists_number_of_mem_nodesFrom {o : Occurrence} {number : Nat} {children : List Condition}
    (h : o ∈ nodesFrom number children) : ∃ i rest, o.address = i :: rest ∧ number ≤ i := by
  induction children generalizing number with
  | nil => exact absurd h List.not_mem_nil
  | cons child rest ih =>
      rw [nodesFrom] at h
      rcases List.mem_append.mp h with hchild | hrest
      · obtain ⟨o', -, rfl⟩ := List.mem_map.mp hchild
        exact ⟨number, o'.address, rfl, Nat.le_refl number⟩
      · obtain ⟨i, path, haddress, hi⟩ := ih hrest
        exact ⟨i, path, haddress, Nat.le_of_succ_le hi⟩

variable {v : Clause → Bool}

/-- Behind children that decide nothing the next child is reached, and in it what it reaches. -/
theorem Condition.reaches_next {k : Connective} {done rest : List Condition} {child : Condition}
    (hdone : ∀ sibling ∈ done, sibling.truth v ≠ k.decisive) (address : Address) :
    (Condition.group k (done ++ child :: rest)).reaches v (done.length :: address)
      = child.reaches v address := by
  have hall : done.all (fun sibling => sibling.truth v != k.decisive) = true :=
    List.all_eq_true.mpr fun sibling hs => bne_iff_ne.mpr (hdone sibling hs)
  have hnext : (done ++ child :: rest)[done.length]? = some child := by
    rw [List.getElem?_append_right (Nat.le_refl _), Nat.sub_self]
    rfl
  rw [reaches, List.take_left, hall, Bool.true_and, hnext]

/-- Nothing is reached behind a child that decides the group. -/
theorem Condition.reaches_behind {k : Connective} {done rest : List Condition} {child : Condition}
    (hd : child.truth v = k.decisive) {number : Nat} (hlt : done.length < number)
    (address : Address) :
    (Condition.group k (done ++ child :: rest)).reaches v (number :: address) = false := by
  have hmem : child ∈ (done ++ child :: rest).take number := by
    have hlength : done.length < (done ++ child :: rest).length := by
      rw [List.length_append, List.length_cons]
      omega
    refine List.mem_take_iff_getElem.mpr ⟨done.length, Nat.lt_min.mpr ⟨hlt, hlength⟩, ?_⟩
    exact List.getElem_of_append rfl rfl
  rw [reaches, Bool.and_eq_false_iff]
  refine Or.inl (List.all_eq_false.mpr ⟨child, hmem, ?_⟩)
  rw [bne_iff_ne]
  exact fun hne => hne hd

-- The induction is on the tree. Of the children those already gone through are carried along, since
-- whether an address is reached is said of the whole group and not of what is left of it.
mutual

/-- **GOING FROM CHILD TO CHILD** comes to the nodes that are evaluated and to no other. -/
theorem Condition.visited_eq : ∀ t : Condition, t.visited v = t.evaluated v
  | .clause _ => rfl
  | .group k children => by
      have hchildren := visitedFrom_eq children [] k (fun _ h => absurd h List.not_mem_nil)
      rw [Condition.visited, Condition.evaluated, Condition.nodes, List.filter_cons_of_pos rfl]
      exact congrArg _ hchildren

/-- The children behind some that decide nothing. -/
theorem visitedFrom_eq :
    ∀ (children done : List Condition) (k : Connective),
      (∀ sibling ∈ done, sibling.truth v ≠ k.decisive) →
      visitedFrom v k done.length children
        = (nodesFrom done.length children).filter fun o =>
            (Condition.group k (done ++ children)).reaches v o.address
  | [], done, k, hdone => rfl
  | child :: rest, done, k, hdone => by
      have hchild : ((child.nodes.map (Occurrence.under [done.length])).filter fun o =>
            (Condition.group k (done ++ child :: rest)).reaches v o.address)
          = (child.visited v).map (Occurrence.under [done.length]) := by
        rw [List.filter_map, Condition.visited_eq child, Condition.evaluated]
        congr 2
        funext o
        exact Condition.reaches_next hdone o.address
      rw [visitedFrom, nodesFrom, List.filter_append, hchild]
      congr 1
      by_cases hd : child.truth v = k.decisive
      · -- the walk stops here, and of the later children none is reached
        rw [if_pos hd, eq_comm, List.filter_eq_nil_iff]
        intro o ho
        obtain ⟨i, address, heq, hi⟩ := exists_number_of_mem_nodesFrom ho
        rw [heq, Condition.reaches_behind hd hi]
        exact Bool.false_ne_true
      · -- this child decides nothing and joins those already gone through
        have hdone' : ∀ sibling ∈ done ++ [child], sibling.truth v ≠ k.decisive := by
          intro sibling hs
          rcases List.mem_append.mp hs with hs | hs
          · exact hdone sibling hs
          · rw [List.mem_singleton.mp hs]
            exact hd
        have hrest := visitedFrom_eq rest (done ++ [child]) k hdone'
        rw [List.length_append, List.length_singleton, List.append_assoc,
          List.singleton_append] at hrest
        rw [if_neg hd, hrest]

end

mutual

/-- The clauses that are reached are the clauses among the visited nodes. -/
theorem Condition.reached_eq :
    ∀ t : Condition, t.reached v = (t.visited v).filterMap Occurrence.clause?
  | .clause _ => rfl
  | .group k children => reachedAmong_eq children k 0

theorem reachedAmong_eq :
    ∀ (children : List Condition) (k : Connective) (number : Nat),
      reachedAmong v k children = (visitedFrom v k number children).filterMap Occurrence.clause?
  | [], k, number => rfl
  | child :: rest, k, number => by
      rw [reachedAmong, visitedFrom, List.filterMap_append, List.filterMap_map,
        Condition.reached_eq child]
      congr 1
      by_cases hd : child.truth v = k.decisive
      · rw [if_pos hd, if_pos hd]
        rfl
      · rw [if_neg hd, if_neg hd]
        exact reachedAmong_eq rest k (number + 1)

end

/-! ## Addresses in a tree -/

/-- What stands under different numbers stands at different addresses. -/
theorem nodup_address_append {number : Nat} {here later : List Occurrence}
    (hhere : (here.map Occurrence.address).Nodup) (hlater : (later.map Occurrence.address).Nodup)
    (hnumbers : ∀ o ∈ later, ∃ i rest, o.address = i :: rest ∧ number + 1 ≤ i) :
    ((here.map (Occurrence.under [number]) ++ later).map Occurrence.address).Nodup := by
  have hcons : (Occurrence.address ∘ Occurrence.under [number])
      = (number :: ·) ∘ Occurrence.address := rfl
  rw [List.map_append, List.map_map, hcons, ← List.map_map]
  refine List.nodup_append.mpr ⟨hhere.map List.cons_injective, hlater, ?_⟩
  intro a ha b hb heq
  obtain ⟨a', -, rfl⟩ := List.mem_map.mp ha
  obtain ⟨o, ho, rfl⟩ := List.mem_map.mp hb
  obtain ⟨i, rest, hi, hle⟩ := hnumbers o ho
  rw [hi] at heq
  have hnumber : number = i := (List.cons.inj heq).1
  omega

mutual

/-- Every node has an address of its own. -/
theorem Condition.nodup_address : ∀ t : Condition, (t.nodes.map Occurrence.address).Nodup
  | .clause _ => List.nodup_singleton _
  | .group k children => by
      rw [Condition.nodes, List.map_cons, List.nodup_cons]
      refine ⟨?_, nodup_address_nodesFrom children 0⟩
      -- the group itself has the empty address, and every child has a number in its address
      intro hroot
      obtain ⟨o, ho, hnil⟩ := List.mem_map.mp hroot
      obtain ⟨i, rest, hi, -⟩ := exists_number_of_mem_nodesFrom ho
      rw [hi] at hnil
      exact nomatch hnil

theorem nodup_address_nodesFrom :
    ∀ (children : List Condition) (number : Nat),
      ((nodesFrom number children).map Occurrence.address).Nodup
  | [], _ => List.nodup_nil
  | child :: rest, number =>
      nodup_address_append child.nodup_address (nodup_address_nodesFrom rest (number + 1))
        fun _ ho => exists_number_of_mem_nodesFrom ho

end

theorem Condition.nodup_address_evaluated (v : Clause → Bool) (t : Condition) :
    ((t.evaluated v).map Occurrence.address).Nodup :=
  t.nodup_address.sublist (List.filter_sublist.map Occurrence.address)

/-! ## What is tried on the way -/

variable (aliases : List String) (c : Case)

theorem verdictOf_eq_true_iff {outcome : Except Fault Bool} :
    verdictOf outcome = true ↔ outcome = .ok true := by
  cases outcome with
  | error fault => exact ⟨nofun, nofun⟩
  | ok b => rw [verdictOf, Except.ok.injEq]

/-- Only comparisons try accessors. -/
theorem Run.probes_eq (r : Run) : r.probes = r.comparisons.flatMap (·.lookup.probes) := by
  obtain ⟨matched, steps⟩ := r
  rw [probes, comparisons]
  induction steps with
  | nil => rfl
  | cons step rest ih =>
      rw [List.flatMap_cons, ih]
      cases step <;> rfl

/-- A run tries the accessors of the clauses that are evaluated, in document order. -/
theorem probes_runConditions (root : Option Group) :
    (runConditions aliases c root).probes
      = ((Group.evaluated? (Clause.holds aliases c) root).filterMap Occurrence.clause?).flatMap
          fun clause => (c.resolve aliases clause.field).probes := by
  rw [Run.probes_eq]
  cases root with
  | none => rfl
  | some root =>
      show (root.tree.run aliases c []).comparisons.flatMap _ = _
      rw [Condition.comparisons_run, Condition.reached_eq, Condition.visited_eq, List.flatMap_map]
      rfl

/-- **STOPPING EARLY.** The conditions of a rule come to their plain truth, in which every clause is
asked: a clause holds if its comparison is possible and comes out true. The accessors that are tried
are those of the clauses on whose address no child in front decides its group, clause after clause
in document order. The same is true of a program that notes every accessor at the moment it is
tried, whatever it noted before and whether it is to write a trace or not. -/
theorem runConditions_shortCircuit (root : Option Group) :
    let v := Clause.holds aliases c
    let run := runConditions aliases c root
    let tried := ((Group.evaluated? v root).filterMap Occurrence.clause?).flatMap
      fun clause => (c.resolve aliases clause.field).probes
    (∀ clause, v clause = true ↔
      Clause.test clause.operator (c.resolve aliases clause.field).value clause.literal
        = .ok true) ∧
    run.matched = Group.truth? v root ∧
    run.probes = tried ∧
    ∀ (tracing : Bool) (n : Notes),
      ((noteConditions tracing aliases c root).run n).1 = Group.truth? v root ∧
      ((noteConditions tracing aliases c root).run n).2.probes = n.probes ++ tried := by
  intro v run tried
  have hmatched : run.matched = Group.truth? v root :=
    runConditions_matched aliases c { Rule.named "" with conditions := root }
  have hprobes : run.probes = tried := probes_runConditions aliases c root
  refine ⟨?_, hmatched, hprobes, ?_⟩
  · intro clause
    exact verdictOf_eq_true_iff
  · intro tracing n
    rw [run_noteConditions]
    exact ⟨hmatched, congrArg (n.probes ++ ·) hprobes⟩

end RiskDecision
