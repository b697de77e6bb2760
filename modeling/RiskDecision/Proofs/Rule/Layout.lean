import RiskDecision.Proofs.Evaluation.Nodes
import RiskDecision.Proofs.Rule.Json

/-!
# The fields of a rule

A rule is read record by record and a record field by field, by name or by position. `Rule.Layout`
says of each kind of record which fields are known, for which of them a null value says no more than
no value at all, and which of them are read as a part of the rule again. Two records of one kind are
read alike if each known field is (`Rule.Part.read_eq_of_alike`), whatever else is different about
them. The child of a group is the one place where the kind of record has to be found out first, and
one member settles it (`Condition.decode_eq`).
-/

namespace RiskDecision

/-! ## The child of a group -/

/-- The children are the value of one member. -/
theorem decodeChildrenMember_eq (members : List (String × Json)) :
    decodeChildrenMember members
      = Json.withDefault [] decodeChildren (Dictionary.find? "clauses" members) := by
  induction members with
  | nil =>
      rw [decodeChildrenMember]
      rfl
  | cons e rest ih =>
      obtain ⟨key, value⟩ := e
      rw [decodeChildrenMember, Dictionary.find?_cons]
      by_cases hkey : key = "clauses"
      · rw [if_pos hkey, if_pos hkey.symm]
        rfl
      · rw [if_neg hkey, if_neg fun h => hkey h.symm, ih]

theorem decodeConditions_eq_mapM (items : List Json) :
    decodeConditions items = items.mapM Condition.decode := by
  induction items with
  | nil =>
      rw [decodeConditions, List.mapM_nil]
      rfl
  | cons item rest ih => rw [decodeConditions, List.mapM_cons, ih]

/-- **GROUP OR CLAUSE** is settled by one member. -/
theorem Condition.decode_eq (j : Json) :
    Condition.decode j =
      if (j.member? "logicalOperator").isSome then (Group.decode j).map Group.tree
      else (Clause.decode j).map .clause := by
  cases j with
  | object members =>
      rw [Condition.decode, decodeChildrenMember_eq, Group.decode_object]
      rw [Json.member?, Json.member?]
      cases Dictionary.find? "logicalOperator" members with
      | none => rfl
      | some connective =>
          rw [Option.isSome_some, if_pos rfl]
          cases Json.withDefault [] decodeChildren (Dictionary.find? "clauses" members) with
          | error e => rfl
          | ok children =>
              show (Connective.decode connective >>= fun k => _) = Except.map _
                (Connective.decode connective >>= fun k => _)
              cases Connective.decode connective <;> rfl
  | _ => rfl

/-- A child that is read is a group exactly if it is an object with the member. -/
theorem Condition.isGroup_iff_of_decode {j : Json} {t : Condition}
    (h : Condition.decode j = .ok t) :
    (∃ k children, t = .group k children) ↔
      ∃ members, j = .object members ∧ Dictionary.has "logicalOperator" members = true := by
  rw [Condition.decode_eq] at h
  by_cases hmember : (j.member? "logicalOperator").isSome
  · rw [if_pos hmember] at h
    obtain ⟨root, -, rfl⟩ := map_eq_ok_iff.mp h
    refine iff_of_true ⟨root.connective, root.children, rfl⟩ ?_
    cases j with
    | object members => exact ⟨members, rfl, hmember⟩
    | _ => exact absurd hmember Bool.false_ne_true
  · rw [if_neg hmember] at h
    obtain ⟨clause, -, rfl⟩ := map_eq_ok_iff.mp h
    refine iff_of_false nofun ?_
    rintro ⟨members, rfl, hhas⟩
    exact hmember hhas

/-- The null value stands for the disjunction. -/
theorem Condition.decode_of_null {members : List (String × Json)}
    (h : Dictionary.find? "logicalOperator" members = some .null) :
    Condition.decode (.object members)
      = (Json.withDefault [] decodeChildren (Dictionary.find? "clauses" members)).map
        (.group .or) := by
  rw [Condition.decode, h, decodeChildrenMember_eq]
  cases Json.withDefault [] decodeChildren (Dictionary.find? "clauses" members) <;> rfl

namespace Rule

/-! ## What is read -/

/-- What a JSON value in a rule is read as. -/
inductive Part
  | rule
  | conditions
  | children
  | child
  | actions
  | action
  deriving DecidableEq

/-- What is read from the value of a part. -/
def Part.Reading : Part → Type
  | .rule => Rule
  | .conditions => Option Group
  | .children => List Condition
  | .child => Condition
  | .actions => List Action
  | .action => Action

/-- Reads the value of a part. -/
def Part.read : (p : Part) → Json → Except DecodeError p.Reading
  | .rule => Rule.decode
  | .conditions => fun j => Json.optional Group.decode (some j)
  | .children => decodeChildren
  | .child => Condition.decode
  | .actions => fun j => Json.nullable [] Action.decodeAll (some j)
  | .action => Action.decode

/-- The items of a list that is a part. -/
def Part.item? : Part → Option Part
  | .children => some .child
  | .actions => some .action
  | _ => none

/-- The fields of a record: all of them in the order of their declaration, those for which a null
value says no more than no value, and those that are parts again. -/
structure Layout where
  declared : List String
  nullable : List String
  parts : List (String × Part)
  deriving DecidableEq

namespace Layout

/-- The part that a field is. -/
def part? (l : Layout) (name : String) : Option Part := l.parts.lookup name

def rule : Layout :=
  ⟨Rule.fieldNames, Rule.fieldNames, [("conditions", .conditions), ("actions", .actions)]⟩

def root : Layout := ⟨Group.fieldNames, Group.fieldNames, [("clauses", .children)]⟩

/-- A group below the root is known by its connective, so leaving that out says more than a null
value does. -/
def group : Layout := ⟨Group.fieldNames, ["clauses"], [("clauses", .children)]⟩

def clause : Layout := ⟨Clause.fieldNames, ["field", "value", "dataType"], []⟩

def action : Layout := ⟨Action.fieldNames, ["value", "reasonCode"], []⟩

end Layout

/-- The fields of a part that is a record. -/
def Part.layout? : Part → Json → Option Layout
  | .rule, _ => some .rule
  | .conditions, _ => some .root
  | .child, j => some (if (j.member? "logicalOperator").isSome then .group else .clause)
  | .action, _ => some .action
  | .children, _ | .actions, _ => none

/-! ## Records that are read alike -/

/-- The values of a field are read alike. -/
inductive Layout.Agrees (l : Layout) (name : String) : Option Json → Option Json → Prop
  | same (v : Option Json) : l.Agrees name v v
  /-- Both are null or left out. -/
  | blank {v v' : Option Json} (nullable : name ∈ l.nullable) (hv : v = none ∨ v = some .null)
      (hv' : v' = none ∨ v' = some .null) : l.Agrees name v v'
  | part {q : Part} {v v' : Json} (part : l.part? name = some q) (h : q.read v = q.read v') :
      l.Agrees name (some v) (some v')

/-- The known fields of two records are read alike, be they given by name or by position. -/
inductive Layout.Alike (l : Layout) : Json → Json → Prop
  | objects {members members' : List (String × Json)}
      (h : ∀ name ∈ l.declared,
        l.Agrees name (Dictionary.find? name members) (Dictionary.find? name members')) :
      l.Alike (.object members) (.object members')
  | arrays {items items' : List Json} (length : items.length = items'.length)
      (h : ∀ name ∈ l.declared,
        l.Agrees name ((l.declared.zip items).lookup name) ((l.declared.zip items').lookup name)) :
      l.Alike (.array items) (.array items')

variable {α : Type} {l : Layout} {name : String} {v v' : Option Json} {j j' : Json}

/-- **FIELDS** that are read alike give the same, if a null value is told from none only where it
may be. -/
theorem Layout.Agrees.read_eq (h : l.Agrees name v v') (read : Option Json → α)
    (hblank : name ∈ l.nullable → read none = read (some .null))
    (hpart : ∀ q, l.part? name = some q → ∀ j j', q.read j = q.read j' →
      read (some j) = read (some j')) : read v = read v' := by
  cases h with
  | same => rfl
  | blank nullable hv hv' =>
      have hnone : ∀ v, v = none ∨ v = some .null → read v = read none := by
        rintro v (rfl | rfl)
        · rfl
        · exact (hblank nullable).symm
      exact (hnone v hv).trans (hnone v' hv').symm
  | part part h => exact hpart _ part _ _ h

theorem Layout.Agrees.read_eq_of_leaf (h : l.Agrees name v v') (read : Option Json → α)
    (leaf : l.part? name = none) (hblank : name ∈ l.nullable → read none = read (some .null)) :
    read v = read v' :=
  h.read_eq read hblank fun _ hq => absurd (leaf.symm.trans hq) nofun

theorem Layout.Agrees.read_eq_of_part (h : l.Agrees name v v') (read : Option Json → α) {q : Part}
    (part : l.part? name = some q) (hblank : name ∈ l.nullable → read none = read (some .null))
    (hpart : ∀ j j', q.read j = q.read j' → read (some j) = read (some j')) :
    read v = read v' := by
  refine h.read_eq read hblank ?_
  intro q' hq'
  obtain rfl := Option.some.inj (part.symm.trans hq')
  exact hpart

/-- **RECORDS** whose known fields are read alike give the same. -/
theorem Layout.Alike.record_eq (h : l.Alike j j')
    {decode decode' : Json.Fields → Except DecodeError α}
    (hdecode : ∀ get other : Json.Fields,
      (∀ name ∈ l.declared, l.Agrees name (get name) (other name)) → decode get = decode' other) :
    j.record l.declared decode = j'.record l.declared decode' := by
  cases h with
  | objects h =>
      rw [Json.record_object, Json.record_object]
      exact hdecode _ _ h
  | @arrays items items' length h =>
      -- an array may not be longer than the declaration, so its length counts as well
      have hsurplus : (Json.array items).ensureNoSurplus l.declared
          = (Json.array items').ensureNoSurplus l.declared := by
        rw [Json.ensureNoSurplus, Json.ensureNoSurplus, length]
      have hfields := hdecode _ _ h
      show (decode _ >>= fun a => _) = (decode' _ >>= fun a => _)
      rw [hfields, hsurplus]

end Rule

/-! ## Reading the records -/

open Rule (Layout)

variable {l : Layout} {j j' : Json}

theorem Clause.decode_eq_of_alike (h : Layout.clause.Alike j j') :
    Clause.decode j = Clause.decode j' := by
  -- the operator has no default, so it is the one field that has to be the same in both
  refine h.record_eq fun get other hget => ?_
  have hdataType := (hget "dataType" (by decide)).read_eq_of_leaf (Json.optional Json.asText) rfl
    fun _ => rfl
  have hfield := (hget "field" (by decide)).read_eq_of_leaf (Json.nullable "" Json.asText) rfl
    fun _ => rfl
  have hoperator := (hget "operator" (by decide)).read_eq_of_leaf
    (Json.required "operator" Json.asText) rfl fun h => absurd h (by decide)
  have hvalue := (hget "value" (by decide)).read_eq_of_leaf (Json.withDefault .null Value.decode)
    rfl fun _ => rfl
  rw [hdataType, hfield, hoperator, hvalue]

theorem Action.decode_eq_of_alike (h : Layout.action.Alike j j') :
    Action.decode j = Action.decode j' := by
  refine h.record_eq fun get other hget => ?_
  have hreasonCode := (hget "reasonCode" (by decide)).read_eq_of_leaf (Json.optional Json.asText)
    rfl fun _ => rfl
  have hkind := (hget "type" (by decide)).read_eq_of_leaf (Json.required "type" Json.asText) rfl
    fun h => absurd h (by decide)
  have hvalue := (hget "value" (by decide)).read_eq_of_leaf (Json.withDefault .null Value.decode)
    rfl fun _ => rfl
  rw [hreasonCode, hkind, hvalue]

theorem Group.decode_eq_of_alike (h : Layout.root.Alike j j') :
    Group.decode j = Group.decode j' := by
  have hfields : ∀ get other : Json.Fields,
      (∀ name ∈ Layout.root.declared, Layout.root.Agrees name (get name) (other name)) →
      Json.withDefault .or Connective.decode (get "logicalOperator")
          = Json.withDefault .or Connective.decode (other "logicalOperator") ∧
        Json.withDefault [] decodeChildren (get "clauses")
          = Json.withDefault [] decodeChildren (other "clauses") := by
    intro get other hget
    exact ⟨(hget "logicalOperator" (by decide)).read_eq_of_leaf
        (Json.withDefault .or Connective.decode) rfl fun _ => rfl,
      (hget "clauses" (by decide)).read_eq_of_part (Json.withDefault [] decodeChildren) rfl
        (fun _ => rfl) fun _ _ h => h⟩
  -- the connective is read before the children in an array and behind them in an object
  cases h with
  | objects h =>
      refine (Layout.Alike.objects h).record_eq fun get other hget => ?_
      obtain ⟨hconnective, hchildren⟩ := hfields get other hget
      rw [hconnective, hchildren]
  | arrays length h =>
      refine (Layout.Alike.arrays length h).record_eq fun get other hget => ?_
      obtain ⟨hconnective, hchildren⟩ := hfields get other hget
      rw [hconnective, hchildren]

theorem Rule.decodeHead_eq_of_agrees {get other : Json.Fields}
    (hget : ∀ name ∈ Layout.rule.declared, Layout.rule.Agrees name (get name) (other name)) :
    Rule.decodeHead get = Rule.decodeHead other := by
  have hid := (hget "ruleId" (by decide)).read_eq_of_leaf (Json.nullable "" Json.asText) rfl
    fun _ => rfl
  have hdescription := (hget "description" (by decide)).read_eq_of_leaf
    (Json.optional Json.asText) rfl fun _ => rfl
  have hdomain := (hget "domain" (by decide)).read_eq_of_leaf (Json.optional Json.asText) rfl
    fun _ => rfl
  have henabled := (hget "isEnabled" (by decide)).read_eq_of_leaf (Json.nullable true Json.asBool)
    rfl fun _ => rfl
  have hpriority := (hget "priority" (by decide)).read_eq_of_leaf
    (Json.nullable 0 (Json.asInt 32)) rfl fun _ => rfl
  rw [Rule.decodeHead, Rule.decodeHead, hid, hdescription, hdomain, henabled, hpriority]

theorem Rule.decode_eq_of_alike (h : Layout.rule.Alike j j') : Rule.decode j = Rule.decode j' := by
  have hparts : ∀ get other : Json.Fields,
      (∀ name ∈ Layout.rule.declared, Layout.rule.Agrees name (get name) (other name)) →
      Json.optional Group.decode (get "conditions")
          = Json.optional Group.decode (other "conditions") ∧
        Json.nullable [] Action.decodeAll (get "actions")
          = Json.nullable [] Action.decodeAll (other "actions") := by
    intro get other hget
    exact ⟨(hget "conditions" (by decide)).read_eq_of_part (Json.optional Group.decode) rfl
        (fun _ => rfl) fun _ _ h => h,
      (hget "actions" (by decide)).read_eq_of_part (Json.nullable [] Action.decodeAll) rfl
        (fun _ => rfl) fun _ _ h => h⟩
  cases h with
  | objects h =>
      refine (Layout.Alike.objects h).record_eq fun get other hget => ?_
      obtain ⟨hconditions, hactions⟩ := hparts get other hget
      rw [hconditions, hactions, Rule.decodeHead_eq_of_agrees hget]
  | arrays length h =>
      refine (Layout.Alike.arrays length h).record_eq fun get other hget => ?_
      obtain ⟨hconditions, hactions⟩ := hparts get other hget
      rw [hconditions, hactions, Rule.decodeHead_eq_of_agrees hget]

/-- A group below the root is read as the root is. -/
theorem Rule.Layout.Alike.root_of_group (h : Layout.group.Alike j j') : Layout.root.Alike j j' := by
  have hagrees : ∀ {name v v'}, Layout.group.Agrees name v v' → Layout.root.Agrees name v v' := by
    intro name v v' h
    cases h with
    | same => exact .same _
    | blank nullable hv hv' =>
        obtain rfl := List.mem_singleton.mp nullable
        exact .blank (by decide) hv hv'
    | part part h => exact .part part h
  cases h with
  | objects h => exact .objects fun name hname => hagrees (h name hname)
  | arrays length h => exact .arrays length fun name hname => hagrees (h name hname)

/-- The child of a group is a group or a clause, as the one member says. -/
theorem Rule.Part.layout_of_child (layout : Part.child.layout? j = some l) :
    (j.member? "logicalOperator").isSome ∧ l = .group ∨
      ¬(j.member? "logicalOperator").isSome ∧ l = .clause := by
  have hl := Option.some.inj layout
  by_cases hmember : (j.member? "logicalOperator").isSome
  · rw [if_pos hmember] at hl
    exact Or.inl ⟨hmember, hl.symm⟩
  · rw [if_neg hmember] at hl
    exact Or.inr ⟨hmember, hl.symm⟩

/-- **PARTS** that are records with like fields are read alike. -/
theorem Rule.Part.read_eq_of_alike {p : Part} (layout : p.layout? j = some l)
    (layout' : p.layout? j' = some l) (h : l.Alike j j') : p.read j = p.read j' := by
  cases p with
  | rule =>
      obtain rfl := Option.some.inj layout
      exact Rule.decode_eq_of_alike h
  | conditions =>
      obtain rfl := Option.some.inj layout
      have hgroup := Group.decode_eq_of_alike h
      cases h with
      | objects => exact congrArg (Except.map some) hgroup
      | arrays => exact congrArg (Except.map some) hgroup
  | children => exact nomatch layout
  | child =>
      show Condition.decode j = Condition.decode j'
      rw [Condition.decode_eq, Condition.decode_eq]
      rcases Rule.Part.layout_of_child layout with ⟨hmember, rfl⟩ | ⟨hmember, rfl⟩
      · rcases Rule.Part.layout_of_child layout' with ⟨hmember', -⟩ | ⟨-, heq⟩
        · rw [if_pos hmember, if_pos hmember', Group.decode_eq_of_alike h.root_of_group]
        · exact absurd heq (by decide)
      · rcases Rule.Part.layout_of_child layout' with ⟨-, heq⟩ | ⟨hmember', -⟩
        · exact absurd heq (by decide)
        · rw [if_neg hmember, if_neg hmember', Clause.decode_eq_of_alike h]
  | actions => exact nomatch layout
  | action =>
      obtain rfl := Option.some.inj layout
      exact Action.decode_eq_of_alike h

end RiskDecision
