import Mathlib.Logic.Relation
import RiskDecision.Proofs.Rule.Layout

/-!
# Edits that do not show

Whoever writes a rule may say with a null value what could as well be left out, and may add members
that nobody knows. `Rule.Edit` lists these edits, at any depth: of a record by its layout, and of
what stands below it. An edit changes one field of one record, so the layout settles that the record
is read as before, and the induction on the edit carries this up to the rule (`Rule.Edit.read_eq`).
The main statement, `Rule.decode_edited`, goes from single edits to any number of them.
-/

namespace RiskDecision.Rule

/-! ## What is edited -/

/-- A part of a rule is edited once, in a way that does not show. The member that tells a group from
a clause is left alone. -/
inductive Edit : Part → Json → Json → Prop
  /-- A null value is added. -/
  | addNull {p : Part} {l : Layout} {members : List (String × Json)} {key : String}
      (layout : p.layout? (.object members) = some l) (nullable : key ∈ l.nullable)
      (absent : Dictionary.find? key members = none) :
      Edit p (.object members) (.object (Dictionary.insert key .null members))
  /-- A null value is removed. -/
  | dropNull {p : Part} {l : Layout} {members : List (String × Json)} {key : String}
      (layout : p.layout? (.object members) = some l) (nullable : key ∈ l.nullable)
      (null : Dictionary.find? key members = some .null) :
      Edit p (.object members) (.object (Dictionary.erase key members))
  /-- A member that is not known is added or changed. -/
  | put {p : Part} {l : Layout} {members : List (String × Json)} {key : String}
      (layout : p.layout? (.object members) = some l) (unknown : key ∉ l.declared)
      (telling : p = .child → key ≠ "logicalOperator") (value : Json) :
      Edit p (.object members) (.object (Dictionary.insert key value members))
  /-- A member that is not known is removed. -/
  | drop {p : Part} {l : Layout} {members : List (String × Json)} {key : String}
      (layout : p.layout? (.object members) = some l) (unknown : key ∉ l.declared)
      (telling : p = .child → key ≠ "logicalOperator") :
      Edit p (.object members) (.object (Dictionary.erase key members))
  /-- A member that is a part is edited. -/
  | member {p q : Part} {l : Layout} {members : List (String × Json)} {key : String} {v v' : Json}
      (layout : p.layout? (.object members) = some l) (part : l.part? key = some q)
      (found : Dictionary.find? key members = some v) (edit : Edit q v v') :
      Edit p (.object members) (.object (Dictionary.insert key v' members))
  /-- A field that is given by its position is edited. -/
  | entry {p q : Part} {l : Layout} {before after : List Json} {key : String} {v v' : Json}
      (layout : p.layout? (.array (before ++ v :: after)) = some l)
      (position : l.declared[before.length]? = some key) (part : l.part? key = some q)
      (edit : Edit q v v') : Edit p (.array (before ++ v :: after)) (.array (before ++ v' :: after))
  /-- An item of a list is edited. -/
  | item {p q : Part} {before after : List Json} {v v' : Json} (item : p.item? = some q)
      (edit : Edit q v v') : Edit p (.array (before ++ v :: after)) (.array (before ++ v' :: after))

/-! ## One edit -/

variable {p : Part} {l : Layout} {members members' : List (String × Json)} {key : String}

/-- Members that do not tell a group from a clause leave the layout as it is. -/
theorem Part.layout?_eq
    (telling : p = .child → Dictionary.find? "logicalOperator" members'
      = Dictionary.find? "logicalOperator" members) :
    p.layout? (.object members') = p.layout? (.object members) := by
  cases p with
  | child => rw [layout?, layout?, Json.member?, Json.member?, telling rfl]
  | _ => rfl

/-- The member that tells a group from a clause is no part, and its null value says something. -/
theorem Part.ne_telling (layout : p.layout? (.object members) = some l)
    (hkey : key ∈ l.nullable ∨ ∃ q, l.part? key = some q) :
    p = .child → key ≠ "logicalOperator" := by
  rintro rfl rfl
  have hlayout : l = .group ∨ l = .clause :=
    (Part.layout_of_child layout).imp And.right And.right
  have hnone : "logicalOperator" ∉ l.nullable ∧ l.part? "logicalOperator" = none := by
    rcases hlayout with rfl | rfl <;> decide
  rcases hkey with hnullable | ⟨q, hq⟩
  · exact hnone.1 hnullable
  · exact nomatch hnone.2.symm.trans hq

/-- **ONE MEMBER**: a record whose other members stay is read alike if this one is. -/
theorem Part.read_eq_of_member (layout : p.layout? (.object members) = some l)
    (telling : p = .child → key ≠ "logicalOperator")
    (others : ∀ other, other ≠ key →
      Dictionary.find? other members' = Dictionary.find? other members)
    (own : key ∈ l.declared →
      l.Agrees key (Dictionary.find? key members) (Dictionary.find? key members')) :
    p.read (.object members) = p.read (.object members') := by
  have layout' : p.layout? (.object members') = some l := by
    rw [← layout]
    exact Part.layout?_eq fun hp => others _ (telling hp).symm
  refine Part.read_eq_of_alike layout layout' (.objects fun name hname => ?_)
  by_cases heq : name = key
  · subst heq
    exact own hname
  · rw [others name heq]
    exact .same _

/-- Of the fields that are given by position only the one with the position of the item differs. -/
theorem lookup_zip_entry {declared : List String} {before after : List Json} {v v' : Json}
    (position : declared[before.length]? = some key) (name : String) :
    (declared.zip (before ++ v :: after)).lookup name
        = (declared.zip (before ++ v' :: after)).lookup name ∨
      name = key ∧ (declared.zip (before ++ v :: after)).lookup name = some v ∧
        (declared.zip (before ++ v' :: after)).lookup name = some v' := by
  induction before generalizing declared with
  | nil =>
      cases declared with
      | nil => exact nomatch position
      | cons first rest =>
          obtain rfl := Option.some.inj position
          simp only [List.nil_append, List.zip_cons_cons, List.lookup_cons]
          cases hname : name == first with
          | true => exact Or.inr ⟨beq_iff_eq.mp hname, rfl, rfl⟩
          | false => exact Or.inl rfl
  | cons item before ih =>
      cases declared with
      | nil => exact nomatch position
      | cons first rest =>
          simp only [List.cons_append, List.zip_cons_cons, List.lookup_cons]
          cases name == first with
          | true => exact Or.inl rfl
          | false => exact ih position

/-- Items are read one by one. -/
theorem mapM_eq_of_item {α β : Type} {f : α → Except DecodeError β} {a a' : α} (h : f a = f a')
    (before after : List α) : (before ++ a :: after).mapM f = (before ++ a' :: after).mapM f := by
  rw [List.mapM_append, List.mapM_append, List.mapM_cons, List.mapM_cons, h]

/-- **ONE EDIT** does not show. -/
theorem Edit.read_eq {p : Part} {j j' : Json} (h : Edit p j j') : p.read j = p.read j' := by
  -- each case changes one field of one record, or one item of a list; where the edit is further
  -- down, the induction hypothesis says that this field or item is read as before
  induction h with
  | addNull layout nullable absent =>
      refine Part.read_eq_of_member layout (Part.ne_telling layout (Or.inl nullable))
        (fun other hne => Dictionary.find?_insert_of_ne hne _ _) fun _ => ?_
      rw [absent, Dictionary.find?_insert_self]
      exact .blank nullable (Or.inl rfl) (Or.inr rfl)
  | dropNull layout nullable null =>
      refine Part.read_eq_of_member layout (Part.ne_telling layout (Or.inl nullable))
        (fun other hne => Dictionary.find?_erase_of_ne hne _) fun _ => ?_
      rw [null, Dictionary.find?_erase_self]
      exact .blank nullable (Or.inr rfl) (Or.inl rfl)
  | put layout unknown telling value =>
      exact Part.read_eq_of_member layout telling
        (fun other hne => Dictionary.find?_insert_of_ne hne _ _) fun known => absurd known unknown
  | drop layout unknown telling =>
      exact Part.read_eq_of_member layout telling
        (fun other hne => Dictionary.find?_erase_of_ne hne _) fun known => absurd known unknown
  | member layout part found _ ih =>
      refine Part.read_eq_of_member layout (Part.ne_telling layout (Or.inr ⟨_, part⟩))
        (fun other hne => Dictionary.find?_insert_of_ne hne _ _) fun _ => ?_
      rw [found, Dictionary.find?_insert_self]
      exact .part part ih
  | @entry p q l before after key v v' layout position part _ ih =>
      -- an array has the same layout whatever its items are
      have layout' : p.layout? (.array (before ++ v' :: after)) = some l := by
        rw [← layout]
        cases p <;> rfl
      refine Part.read_eq_of_alike layout layout' (.arrays ?_ fun name _ => ?_)
      · rw [List.length_append, List.length_append, List.length_cons, List.length_cons]
      · rcases lookup_zip_entry position name with h | ⟨rfl, h, h'⟩
        · rw [h]
          exact .same _
        · rw [h, h']
          exact .part part ih
  | @item p q before after v v' item _ ih =>
      cases p with
      | children =>
          obtain rfl := Option.some.inj item
          show decodeConditions _ = decodeConditions _
          rw [decodeConditions_eq_mapM, decodeConditions_eq_mapM]
          exact mapM_eq_of_item ih before after
      | actions =>
          obtain rfl := Option.some.inj item
          exact mapM_eq_of_item ih before after
      | _ => exact nomatch item

/-- **ANY NUMBER OF EDITS** does not show. -/
theorem Part.read_eq_of_edits {p : Part} {j j' : Json} (h : Relation.ReflTransGen (Edit p) j j') :
    p.read j = p.read j' := by
  induction h with
  | refl => rfl
  | tail _ edit ih => exact ih.trans edit.read_eq

/-- **WHAT DOES NOT SHOW IN A RULE.** Null values for fields that may be left out and members that
nobody knows, in any number and at any depth, change nothing about the rule that is read, nor about
the error if there is one. What a child of a group is read as depends on one member only: it is a
group exactly if it is an object with this member, and a disjunction if the member is null. -/
theorem decode_edited :
    (∀ j j' : Json, Relation.ReflTransGen (Edit .rule) j j' → Rule.decode j = Rule.decode j') ∧
    (∀ j : Json, Condition.decode j =
      if (j.member? "logicalOperator").isSome then (Group.decode j).map Group.tree
      else (Clause.decode j).map .clause) ∧
    (∀ (j : Json) (t : Condition), Condition.decode j = .ok t →
      ((∃ k children, t = .group k children) ↔
        ∃ members, j = .object members ∧ Dictionary.has "logicalOperator" members = true)) ∧
    ∀ members : List (String × Json), Dictionary.find? "logicalOperator" members = some .null →
      Condition.decode (.object members)
        = (Json.withDefault [] decodeChildren (Dictionary.find? "clauses" members)).map
          (.group .or) := by
  refine ⟨?_, Condition.decode_eq, ?_, ?_⟩
  · intro j j' h
    exact Part.read_eq_of_edits h
  · intro j t h
    exact Condition.isGroup_iff_of_decode h
  · intro members h
    exact Condition.decode_of_null h

/-- A rule is given null actions and loses a null description, and a clause deep inside it is given
a note. The group around the clause is a disjunction because its connective is null. -/
theorem decode_edited_note :
    let clause := [("field", Json.text "amount"), ("operator", .text "IS_NULL")]
    let clause' :=
      [("field", Json.text "amount"), ("note", .bool true), ("operator", .text "IS_NULL")]
    let group (clause : Dictionary Json) :=
      [("clauses", Json.array [.object clause]), ("logicalOperator", .null)]
    let root (clause : Dictionary Json) :=
      [("clauses", Json.array [.object (group clause)])]
    let rule := [("conditions", Json.object (root clause)), ("description", .null),
      ("ruleId", .text "R-1")]
    let j := Json.object rule
    let j' := Json.object [("actions", .null), ("conditions", .object (root clause')),
      ("ruleId", .text "R-1")]
    let t : Condition := .group .or [.clause ⟨"amount", .isNull, .null, none⟩]
    Relation.ReflTransGen (Edit .rule) j j' ∧ Rule.decode j = Rule.decode j' ∧
      Dictionary.find? "logicalOperator" (group clause) = some .null ∧
      Condition.decode (.object (group clause)) = .ok t ∧ ∃ k children, t = .group k children := by
  intro clause clause' group root rule j j' t
  have hclause : Edit .child (.object clause) (.object clause') := by
    let noted := Dictionary.insert "note" (.bool true) clause
    have hnoted : Edit .child (.object clause) (.object noted) :=
      .put rfl (by decide) (fun _ => by decide) _
    exact hnoted
  have hgroup : Edit .child (.object (group clause)) (.object (group clause')) :=
    @Edit.member _ _ _ (group clause) "clauses" _ _ rfl rfl rfl
      (@Edit.item .children .child [] [] _ _ rfl hclause)
  have hroot : Edit .conditions (.object (root clause)) (.object (root clause')) :=
    @Edit.member _ _ _ (root clause) "clauses" _ _ rfl rfl rfl
      (@Edit.item .children .child [] [] _ _ rfl hgroup)
  have hedits : Relation.ReflTransGen (Edit .rule) j j' := by
    let noted := Dictionary.insert "conditions" (.object (root clause')) rule
    let shorter := Dictionary.erase "description" noted
    let longer := Dictionary.insert "actions" .null shorter
    have hnoted : Edit .rule j (.object noted) :=
      @Edit.member _ _ _ rule "conditions" _ _ rfl rfl rfl hroot
    have hshorter : Edit .rule (.object noted) (.object shorter) :=
      .dropNull rfl (by decide) rfl
    have hlonger : Edit .rule (.object shorter) (.object longer) :=
      .addNull rfl (by decide) rfl
    exact ((Relation.ReflTransGen.single hnoted).tail hshorter).tail hlonger
  have main := decode_edited
  have ht : Condition.decode (.object (group clause)) = .ok t := by
    rw [main.2.2.2 (group clause) rfl]
    rfl
  exact ⟨hedits, main.1 j j' hedits, rfl, ht, (main.2.2.1 _ t ht).mpr ⟨group clause, rfl, rfl⟩⟩

end RiskDecision.Rule
