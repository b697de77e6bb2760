import RiskDecision.Dictionary
import RiskDecision.Rule.Validity

/-!
# The clauses of a rule, at every depth

`Condition.Has` says that a clause stands somewhere in a condition tree, whatever groups there are
above it. Listing the clauses misses none and adds none (`Condition.mem_clauses_iff`), so a rule is
valid exactly if it has an identifier and each of its clauses names a field
(`Rule.validate_eq_ok_iff`), and the fields of a rule are those of all its clauses
(`Rule.mem_fields_iff`). A program that makes no list goes through the tree twice, once to check it
and once to collect the fields; both walks come to the same (`Rule.check_eq_validate`,
`Rule.collect_eq`).
-/

namespace RiskDecision

/-- The clause stands in the node, at any depth. -/
inductive Condition.Has (clause : Clause) : Condition → Prop
  | here : Has clause (.clause clause)
  | inside {connective : Connective} {children : List Condition} {child : Condition} :
      child ∈ children → Has clause child → Has clause (.group connective children)

/-- The clause stands in the conditions of the rule, at any depth. -/
def Rule.Has (r : Rule) (clause : Clause) : Prop :=
  ∃ root, r.conditions = some root ∧ ∃ child ∈ root.children, child.Has clause

/-- The rule has an identifier, and each of its clauses names a field. -/
structure Rule.Complete (r : Rule) : Prop where
  identified : Text.isAllBlank r.id = false
  named : ∀ clause, r.Has clause → Text.isAllBlank clause.field = false

variable {clause : Clause}

mutual

/-- **NODES**: the clauses that are listed are those that stand in the node. -/
theorem Condition.mem_clauses_iff : ∀ t : Condition, clause ∈ t.clauses ↔ t.Has clause
  | .clause other => by
      rw [Condition.clauses, List.mem_singleton]
      constructor
      · rintro rfl
        exact .here
      · rintro ⟨⟩
        rfl
  | .group k children => by
      rw [Condition.clauses, mem_clausesOfAll_iff children]
      constructor
      · rintro ⟨child, hmem, h⟩
        exact .inside hmem h
      · rintro (_ | ⟨hmem, h⟩)
        exact ⟨_, hmem, h⟩

theorem mem_clausesOfAll_iff :
    ∀ children : List Condition,
      clause ∈ clausesOfAll children ↔ ∃ child ∈ children, child.Has clause
  | [] => by
      rw [clausesOfAll]
      exact iff_of_false List.not_mem_nil fun ⟨_, hmem, _⟩ => absurd hmem List.not_mem_nil
  | child :: rest => by
      rw [clausesOfAll, List.mem_append, Condition.mem_clauses_iff child, mem_clausesOfAll_iff rest]
      simp only [List.mem_cons, exists_eq_or_imp]

end

namespace Rule

theorem mem_clauses_iff {r : Rule} : clause ∈ r.clauses ↔ r.Has clause := by
  rw [clauses, Has]
  cases r.conditions with
  | none => exact iff_of_false List.not_mem_nil fun ⟨_, h, _⟩ => nomatch h
  | some root =>
      rw [mem_clausesOfAll_iff]
      constructor
      · intro h
        exact ⟨root, rfl, h⟩
      · rintro ⟨_, ⟨⟩, h⟩
        exact h

/-- **VALIDITY**: a rule is valid if it is complete. -/
theorem validate_eq_ok_iff {r : Rule} : r.validate = .ok () ↔ r.Complete := by
  rw [validate]
  cases hid : Text.isAllBlank r.id with
  | true =>
      refine iff_of_false nofun fun h => ?_
      rw [h.identified] at hid
      exact nomatch hid
  | false =>
      rw [if_neg Bool.false_ne_true]
      cases hfields : r.clauses.any fun clause => Text.isAllBlank clause.field with
      | true =>
          obtain ⟨clause, hmem, hblank⟩ := List.any_eq_true.mp hfields
          refine iff_of_false nofun fun h => ?_
          rw [h.named clause (mem_clauses_iff.mp hmem)] at hblank
          exact nomatch hblank
      | false =>
          refine iff_of_true rfl ⟨hid, fun clause h => ?_⟩
          rw [← Bool.not_eq_true]
          exact List.any_eq_false.mp hfields clause (mem_clauses_iff.mpr h)

/-- **FIELDS**: the fields that a rule reads are those of its clauses. -/
theorem mem_fields_iff {r : Rule} {f : String} :
    f ∈ r.fields ↔ ∃ clause, r.Has clause ∧ clause.field = f := by
  simp only [fields, List.mem_map, mem_clauses_iff]

end Rule

/-! ## Checking node by node -/

mutual

/-- Goes through a node up to the first clause without a field, which is a fault of the rule with
the given identifier. -/
def Condition.check (id : String) : Condition → Except Fault Unit
  | .clause clause => if Text.isAllBlank clause.field then .error (.blankField id) else .ok ()
  | .group _ children => checkAll id children

/-- Goes through several nodes, one after the other. -/
def checkAll (id : String) : List Condition → Except Fault Unit
  | [] => .ok ()
  | child :: rest => do
    child.check id
    checkAll id rest

end

/-- Goes through the conditions of a rule that has an identifier. -/
def Rule.check (r : Rule) : Except Fault Unit :=
  if Text.isAllBlank r.id then .error .blankRuleId
  else
    match r.conditions with
    | none => .ok ()
    | some root => checkAll r.id root.children

/-- What is wrong with clauses of a rule of which some may be without a field. -/
def faultOf (id : String) (clauses : List Clause) : Except Fault Unit :=
  if clauses.any fun clause => Text.isAllBlank clause.field then .error (.blankField id) else .ok ()

theorem faultOf_append (id : String) (clauses later : List Clause) :
    faultOf id (clauses ++ later) = (do faultOf id clauses; faultOf id later) := by
  rw [faultOf, faultOf, List.any_append]
  cases clauses.any fun clause => Text.isAllBlank clause.field <;> rfl

mutual

theorem Condition.check_eq (id : String) : ∀ t : Condition, t.check id = faultOf id t.clauses
  | .clause clause => by
      rw [Condition.check, Condition.clauses, faultOf, List.any_cons, List.any_nil, Bool.or_false]
  | .group k children => by
      rw [Condition.check, Condition.clauses, checkAll_eq id children]

theorem checkAll_eq (id : String) :
    ∀ children : List Condition, checkAll id children = faultOf id (clausesOfAll children)
  | [] => rfl
  | child :: rest => by
      rw [checkAll, clausesOfAll, faultOf_append, Condition.check_eq id child, checkAll_eq id rest]

end

/-- **CHECKING** a rule node by node finds what is wrong with its clauses. -/
theorem Rule.check_eq_validate (r : Rule) : r.check = r.validate := by
  rw [Rule.check, Rule.validate, Rule.clauses]
  cases r.conditions with
  | none => rfl
  | some root =>
      dsimp only
      rw [checkAll_eq, faultOf]

/-! ## Collecting node by node -/

mutual

/-- Adds the fields of the clauses of a node to what was collected. -/
def Condition.collect (fields : Dictionary Unit) : Condition → Dictionary Unit
  | .clause clause => fields.insert clause.field ()
  | .group _ children => collectAll fields children

/-- Adds the fields of the clauses of several nodes. -/
def collectAll (fields : Dictionary Unit) : List Condition → Dictionary Unit
  | [] => fields
  | child :: rest => collectAll (child.collect fields) rest

end

/-- Adds the fields of the clauses of a rule. -/
def Rule.collect (fields : Dictionary Unit) (r : Rule) : Dictionary Unit :=
  match r.conditions with
  | none => fields
  | some root => collectAll fields root.children

/-- Adds the fields of clauses. -/
def addFields (fields : Dictionary Unit) (clauses : List Clause) : Dictionary Unit :=
  clauses.foldl (fun d clause => d.insert clause.field ()) fields

mutual

theorem Condition.collect_eq :
    ∀ (t : Condition) (fields : Dictionary Unit), t.collect fields = addFields fields t.clauses
  | .clause clause, fields => rfl
  | .group k children, fields => by
      rw [Condition.collect, Condition.clauses, collectAll_eq children]

theorem collectAll_eq :
    ∀ (children : List Condition) (fields : Dictionary Unit),
      collectAll fields children = addFields fields (clausesOfAll children)
  | [], fields => rfl
  | child :: rest, fields => by
      rw [collectAll, clausesOfAll, addFields, List.foldl_append, ← addFields,
        Condition.collect_eq child, collectAll_eq rest]
      rfl

end

/-- **COLLECTING** the fields of a rule node by node adds those of its clauses. -/
theorem Rule.collect_eq (fields : Dictionary Unit) (r : Rule) :
    r.collect fields = addFields fields r.clauses := by
  rw [Rule.collect, Rule.clauses]
  cases r.conditions with
  | none => rfl
  | some root => exact collectAll_eq root.children fields

end RiskDecision
