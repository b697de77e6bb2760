import RiskDecision.Proofs.Decoding.Fields
import RiskDecision.Proofs.Rule.Names
import RiskDecision.Proofs.Value.Json
import RiskDecision.Rule.Json

/-!
# Rules survive being written

A rule is `Canonical` if its names are as reading makes them, its literals hold finite numbers and
its priority fits its word. Two facts make up the round trip: whatever is decoded from JSON in range
is canonical, be it written by name or by position, with absent or null fields; and a canonical rule
is decoded from what it is written as. Both go by induction on the tree, the first one on that of
the JSON value and the second one on that of the conditions.
-/

namespace RiskDecision

/-- The clause is as reading makes one. -/
structure Clause.Canonical (c : Clause) : Prop where
  operator : Operator.ofName c.operator.name = c.operator
  literal  : c.literal.isFinite = true

/-- The action is as reading makes one. -/
structure Action.Canonical (a : Action) : Prop where
  kind  : ActionKind.ofName a.kind.name = a.kind
  value : a.value.isFinite = true

/-- The rule is as reading makes one. -/
structure Rule.Canonical (r : Rule) : Prop where
  priority : Decimal.fitsSigned 32 r.priority = true
  clauses  : ∀ c ∈ r.clauses, c.Canonical
  actions  : ∀ a ∈ r.actions, a.Canonical

/-! ## What is decoded is canonical -/

/-- A literal that may be absent has finite numbers. -/
theorem isFinite_of_withDefault {field : Option Json} {v : Value}
    (hfield : ∀ j, field = some j → j.inRange = true)
    (h : Json.withDefault .null Value.decode field = .ok v) : v.isFinite = true := by
  rcases Json.withDefault_eq_ok h with rfl | ⟨j, hj, hv⟩
  · rfl
  · exact Value.isFinite_of_decode j v (hfield j hj) hv

theorem Clause.canonical_of_decode {j : Json} {c : Clause} (hj : j.inRange = true)
    (h : Clause.decode j = .ok c) : c.Canonical := by
  obtain ⟨get, hget, h⟩ := Json.record_eq_ok h
  obtain ⟨dataType, -, h⟩ := bind_eq_ok_iff.mp h
  obtain ⟨field, -, h⟩ := bind_eq_ok_iff.mp h
  obtain ⟨name, -, h⟩ := bind_eq_ok_iff.mp h
  obtain ⟨literal, hliteral, h⟩ := bind_eq_ok_iff.mp h
  obtain rfl := Except.ok.inj h
  constructor
  · dsimp only
    exact Operator.ofName_name name
  · exact isFinite_of_withDefault (fun v hv => Json.inRange_of_fields hj hget hv) hliteral

theorem Action.canonical_of_decode {j : Json} {a : Action} (hj : j.inRange = true)
    (h : Action.decode j = .ok a) : a.Canonical := by
  obtain ⟨get, hget, h⟩ := Json.record_eq_ok h
  obtain ⟨reasonCode, -, h⟩ := bind_eq_ok_iff.mp h
  obtain ⟨kind, -, h⟩ := bind_eq_ok_iff.mp h
  obtain ⟨value, hvalue, h⟩ := bind_eq_ok_iff.mp h
  obtain rfl := Except.ok.inj h
  constructor
  · dsimp only
    exact ActionKind.ofName_name kind
  · exact isFinite_of_withDefault (fun v hv => Json.inRange_of_fields hj hget hv) hvalue

theorem Action.canonical_of_decodeAll {j : Json} {actions : List Action} (hj : j.inRange = true)
    (h : Action.decodeAll j = .ok actions) : ∀ a ∈ actions, a.Canonical := by
  cases j with
  | array items =>
      refine forall_mem_of_mapM_eq_ok h ?_
      intro item hitem a ha
      exact Action.canonical_of_decode (Json.itemsInRange_iff.mp hj item hitem) ha
  | _ => exact nomatch h

-- The induction is on the JSON value, with one statement for each of the four decoders: children
-- are looked for among the members of an object, then in an array, then one by one.
mutual

/-- **NODES** of a condition tree. -/
theorem Condition.canonical_of_decode :
    ∀ (j : Json) (t : Condition), j.inRange = true → Condition.decode j = .ok t →
      ∀ c ∈ t.clauses, c.Canonical
  | .object members, t, hj, h => by
      rw [Condition.decode] at h
      split at h
      · -- the connective plays no part: it is canonical by its type
        obtain ⟨children, hchildren, h⟩ := bind_eq_ok_iff.mp h
        obtain ⟨k, -, h⟩ := bind_eq_ok_iff.mp h
        cases h
        exact canonical_of_decodeChildrenMember members children hj hchildren
      · obtain ⟨c, hc, h⟩ := bind_eq_ok_iff.mp h
        cases h
        exact List.forall_mem_singleton.mpr (Clause.canonical_of_decode hj hc)
  | .null, t, hj, h => nomatch h
  | .bool b, t, hj, h => nomatch h
  | .int n, t, hj, h => nomatch h
  | .float x, t, hj, h => nomatch h
  | .text s, t, hj, h => nomatch h
  | .array items, t, hj, h => by
      rw [Condition.decode] at h
      · obtain ⟨c, hc, h⟩ := bind_eq_ok_iff.mp h
        cases h
        exact List.forall_mem_singleton.mpr (Clause.canonical_of_decode hj hc)
      · intro members heq
        exact nomatch heq

theorem canonical_of_decodeChildrenMember :
    ∀ (members : List (String × Json)) (children : List Condition),
      Json.membersInRange members = true → decodeChildrenMember members = .ok children →
      ∀ c ∈ clausesOfAll children, c.Canonical
  | [], children, _, h => by
      cases h
      intro c hc
      exact absurd hc List.not_mem_nil
  | (key, value) :: rest, children, hj, h => by
      rw [Json.membersInRange, Bool.and_eq_true] at hj
      rw [decodeChildrenMember] at h
      split at h
      · exact canonical_of_decodeChildren value children hj.1 h
      · exact canonical_of_decodeChildrenMember rest children hj.2 h

theorem canonical_of_decodeChildren :
    ∀ (j : Json) (children : List Condition), j.inRange = true →
      decodeChildren j = .ok children → ∀ c ∈ clausesOfAll children, c.Canonical
  | .null, children, _, h => by
      cases h
      intro c hc
      exact absurd hc List.not_mem_nil
  | .array items, children, hj, h => canonical_of_decodeConditions items children hj h
  | .bool b, children, hj, h => nomatch h
  | .int n, children, hj, h => nomatch h
  | .float x, children, hj, h => nomatch h
  | .text s, children, hj, h => nomatch h
  | .object members, children, hj, h => nomatch h

theorem canonical_of_decodeConditions :
    ∀ (items : List Json) (children : List Condition), Json.itemsInRange items = true →
      decodeConditions items = .ok children → ∀ c ∈ clausesOfAll children, c.Canonical
  | [], children, _, h => by
      cases h
      intro c hc
      exact absurd hc List.not_mem_nil
  | item :: rest, children, hj, h => by
      rw [Json.itemsInRange, Bool.and_eq_true] at hj
      rw [decodeConditions] at h
      obtain ⟨child, hchild, h⟩ := bind_eq_ok_iff.mp h
      obtain ⟨children', hchildren, h⟩ := bind_eq_ok_iff.mp h
      cases h
      intro c hc
      rcases List.mem_append.mp hc with hc | hc
      · exact Condition.canonical_of_decode item child hj.1 hchild c hc
      · exact canonical_of_decodeConditions rest children' hj.2 hchildren c hc

end

theorem Group.canonical_of_decode {j : Json} {g : Group} (hj : j.inRange = true)
    (h : Group.decode j = .ok g) : ∀ c ∈ clausesOfAll g.children, c.Canonical := by
  obtain ⟨get, hget, h⟩ := Json.record_eq_ok h
  have hchildren : Json.withDefault [] decodeChildren (get "clauses") = .ok g.children := by
    split at h
    · obtain ⟨k, -, h⟩ := bind_eq_ok_iff.mp h
      obtain ⟨children, hchildren, h⟩ := bind_eq_ok_iff.mp h
      obtain rfl := Except.ok.inj h
      exact hchildren
    · obtain ⟨children, hchildren, h⟩ := bind_eq_ok_iff.mp h
      obtain ⟨k, -, h⟩ := bind_eq_ok_iff.mp h
      obtain rfl := Except.ok.inj h
      exact hchildren
  rcases Json.withDefault_eq_ok hchildren with hnil | ⟨v, hv, hchildren⟩
  · rw [hnil]
    intro c hc
    exact absurd hc List.not_mem_nil
  · exact canonical_of_decodeChildren v g.children (Json.inRange_of_fields hj hget hv) hchildren

/-- The priority that is read fits its word. -/
theorem Rule.fitsSigned_of_decodeHead {get : Json.Fields} {r : Rule}
    (h : Rule.decodeHead get = .ok r) : Decimal.fitsSigned 32 r.priority = true := by
  obtain ⟨id, -, h⟩ := bind_eq_ok_iff.mp h
  obtain ⟨description, -, h⟩ := bind_eq_ok_iff.mp h
  obtain ⟨domain, -, h⟩ := bind_eq_ok_iff.mp h
  obtain ⟨enabled, -, h⟩ := bind_eq_ok_iff.mp h
  obtain ⟨priority, hpriority, h⟩ := bind_eq_ok_iff.mp h
  obtain rfl := Except.ok.inj h
  rcases Json.nullable_eq_ok hpriority with rfl | ⟨j, -, hint⟩
  · rfl
  · cases j with
    | int n =>
        rw [Json.asInt] at hint
        split at hint
        · next hfits =>
            cases hint
            exact hfits
        · exact nomatch hint
    | _ => exact nomatch hint

/-- The parts of a decoded rule are decoded from its fields. -/
theorem Rule.parts_of_decode {j : Json} {r : Rule} (h : Rule.decode j = .ok r) :
    ∃ get head, j.fields Rule.fieldNames = .ok get ∧ Rule.decodeHead get = .ok head ∧
      Json.optional Group.decode (get "conditions") = .ok r.conditions ∧
      Json.nullable [] Action.decodeAll (get "actions") = .ok r.actions ∧
      r.priority = head.priority := by
  obtain ⟨get, hget, h⟩ := Json.record_eq_ok h
  refine ⟨get, ?_⟩
  -- an array is decoded in the order of the declaration, an object in that of its keys
  split at h
  · obtain ⟨head, hhead, h⟩ := bind_eq_ok_iff.mp h
    obtain ⟨conditions, hconditions, h⟩ := bind_eq_ok_iff.mp h
    obtain ⟨actions, hactions, h⟩ := bind_eq_ok_iff.mp h
    obtain rfl := Except.ok.inj h
    exact ⟨head, hget, hhead, hconditions, hactions, rfl⟩
  · obtain ⟨actions, hactions, h⟩ := bind_eq_ok_iff.mp h
    obtain ⟨conditions, hconditions, h⟩ := bind_eq_ok_iff.mp h
    obtain ⟨head, hhead, h⟩ := bind_eq_ok_iff.mp h
    obtain rfl := Except.ok.inj h
    exact ⟨head, hget, hhead, hconditions, hactions, rfl⟩

/-- **DECODED RULES** are canonical. -/
theorem Rule.canonical_of_decode {j : Json} {r : Rule} (hj : j.inRange = true)
    (h : Rule.decode j = .ok r) : r.Canonical := by
  obtain ⟨get, head, hget, hhead, hconditions, hactions, hpriority⟩ := Rule.parts_of_decode h
  refine ⟨?_, ?_, ?_⟩
  · rw [hpriority]
    exact Rule.fitsSigned_of_decodeHead hhead
  · rw [Rule.clauses]
    rcases Json.optional_eq_ok hconditions with hnone | ⟨v, root, hv, hroot, hsome⟩
    · rw [hnone]
      intro c hc
      exact absurd hc List.not_mem_nil
    · rw [hsome]
      exact Group.canonical_of_decode (Json.inRange_of_fields hj hget hv) hroot
  · rcases Json.nullable_eq_ok hactions with hnil | ⟨v, hv, hall⟩
    · rw [hnil]
      intro a ha
      exact absurd ha List.not_mem_nil
    · exact Action.canonical_of_decodeAll (Json.inRange_of_fields hj hget hv) hall

/-! ## What is canonical is decoded from what it is written as -/

theorem Clause.decode_toJson {c : Clause} (hc : c.Canonical) : Clause.decode c.toJson = .ok c := by
  obtain ⟨field, operator, literal, dataType⟩ := c
  obtain ⟨hoperator, hliteral⟩ := hc
  have hsteps : Clause.decode (Clause.toJson ⟨field, operator, literal, dataType⟩) = do
      let v ← Value.decode literal.toJson
      return ⟨field, .ofName operator.name, v, dataType⟩ := by
    rw [Clause.decode, Clause.toJson, Json.record_object]
    cases dataType <;> rfl
  dsimp only at hoperator hliteral
  rw [hsteps, Value.decode_toJson literal hliteral, hoperator]
  rfl

theorem Action.decode_toJson {a : Action} (ha : a.Canonical) : Action.decode a.toJson = .ok a := by
  obtain ⟨kind, value, reasonCode⟩ := a
  obtain ⟨hkind, hvalue⟩ := ha
  have hsteps : Action.decode (Action.toJson ⟨kind, value, reasonCode⟩) = do
      let v ← Value.decode value.toJson
      return ⟨.ofName kind.name, v, reasonCode⟩ := by
    rw [Action.decode, Action.toJson, Json.record_object]
    cases reasonCode <;> rfl
  dsimp only at hkind hvalue
  rw [hsteps, Value.decode_toJson value hvalue, hkind]
  rfl

theorem Connective.decode_name (k : Connective) : Connective.decode (.text k.name) = .ok k := by
  rw [Connective.decode, Connective.ofName?_name]

/-- A clause is told apart from a group by the member that it lacks. -/
theorem Condition.decode_clause_toJson (c : Clause) :
    Condition.decode c.toJson = do return .clause (← Clause.decode c.toJson) := by
  obtain ⟨field, operator, literal, dataType⟩ := c
  -- no key of a clause is `logicalOperator`, with or without a data type
  cases dataType <;> rfl

mutual

/-- **NODES.** A node of a condition tree is decoded from what it is written as. -/
theorem Condition.decode_toJson :
    ∀ t : Condition, (∀ c ∈ t.clauses, c.Canonical) → Condition.decode t.toJson = .ok t
  | .clause c, h => by
      rw [Condition.toJson, Condition.decode_clause_toJson,
        Clause.decode_toJson (h c List.mem_cons_self)]
      rfl
  | .group k children, h => by
      have hsteps : Condition.decode (Condition.group k children).toJson = do
          let children ← decodeConditions (conditionsToJson children)
          return .group (← Connective.decode (.text k.name)) children := by
        rw [Condition.toJson]
        rfl
      rw [hsteps, decodeConditions_toJson children h, Connective.decode_name]
      rfl

theorem decodeConditions_toJson :
    ∀ children : List Condition, (∀ c ∈ clausesOfAll children, c.Canonical) →
      decodeConditions (conditionsToJson children) = .ok children
  | [], _ => rfl
  | child :: rest, h => by
      rw [conditionsToJson, decodeConditions,
        Condition.decode_toJson child fun c hc => h c (List.mem_append.mpr (Or.inl hc)),
        decodeConditions_toJson rest fun c hc => h c (List.mem_append.mpr (Or.inr hc))]
      rfl

end

/-- A group that is written as an object is decoded from its members. -/
theorem Group.decode_object (members : List (String × Json)) :
    Group.decode (.object members) = do
      let children ←
        Json.withDefault [] decodeChildren ((Json.object members).member? "clauses")
      let connective ←
        Json.withDefault .or Connective.decode ((Json.object members).member? "logicalOperator")
      return ⟨connective, children⟩ := by
  rw [Group.decode, Json.record_object]
  rfl

theorem Group.decode_toJson {g : Group} (h : ∀ c ∈ clausesOfAll g.children, c.Canonical) :
    Group.decode g.toJson = .ok g := by
  have hchildren : Json.withDefault [] decodeChildren (g.toJson.member? "clauses")
      = .ok g.children := decodeConditions_toJson g.children h
  have hname : g.toJson.member? "logicalOperator" = some (.text g.connective.name) := rfl
  have hconnective : Json.withDefault .or Connective.decode (g.toJson.member? "logicalOperator")
      = .ok g.connective := by
    rw [hname, Json.withDefault, Connective.decode_name]
  rw [Group.toJson, Condition.toJson] at hchildren hconnective ⊢
  rw [Group.decode_object, hchildren, hconnective]
  rfl

/-- A rule that is written as an object is decoded from its members. -/
theorem Rule.decode_object (members : List (String × Json)) :
    Rule.decode (.object members) = do
      let actions ← Json.nullable [] Action.decodeAll ((Json.object members).member? "actions")
      let conditions ← Json.optional Group.decode ((Json.object members).member? "conditions")
      let head ← Rule.decodeHead fun name => (Json.object members).member? name
      return { head with conditions, actions } := by
  rw [Rule.decode, Json.record_object]
  rfl

/-- The fields of a rule other than its conditions and actions come back. -/
theorem Rule.decodeHead_toJson {r : Rule} (hpriority : Decimal.fitsSigned 32 r.priority = true) :
    Rule.decodeHead (fun name => r.toJson.member? name)
      = .ok { r with conditions := none, actions := [] } := by
  have hid : r.toJson.member? "ruleId" = some (.text r.id) := rfl
  have hdescription : r.toJson.member? "description" = some (Json.ofText? r.description) := rfl
  have hdomain : r.toJson.member? "domain" = some (Json.ofText? r.domain) := rfl
  have henabled : r.toJson.member? "isEnabled" = some (.bool r.enabled) := rfl
  have hpriority' : r.toJson.member? "priority" = some (.int r.priority) := rfl
  have hint : Json.nullable 0 (Json.asInt 32) (some (.int r.priority)) = .ok r.priority :=
    if_pos hpriority
  rw [Rule.decodeHead, hid, hdescription, hdomain, henabled, hpriority', Json.optional_ofText?,
    Json.optional_ofText?, hint]
  rfl

/-- The conditions of a rule come back, and so does their absence. -/
theorem Rule.conditions_toJson {r : Rule} (hclauses : ∀ c ∈ r.clauses, c.Canonical) :
    Json.optional Group.decode (r.toJson.member? "conditions") = .ok r.conditions := by
  obtain ⟨id, description, domain, enabled, priority, conditions, actions⟩ := r
  cases conditions with
  | none => rfl
  | some root =>
      show (Group.decode root.toJson).map some = .ok (some root)
      rw [Group.decode_toJson hclauses]
      rfl

/-- **WRITTEN RULES.** A canonical rule is decoded from what it is written as. -/
theorem Rule.decode_toJson {r : Rule} (hr : r.Canonical) : Rule.decode r.toJson = .ok r := by
  have hactions : Json.nullable [] Action.decodeAll (r.toJson.member? "actions") = .ok r.actions :=
    mapM_map_eq_ok fun a ha => Action.decode_toJson (hr.actions a ha)
  have hconditions := Rule.conditions_toJson hr.clauses
  have hhead := Rule.decodeHead_toJson hr.priority
  rw [Rule.toJson] at hactions hconditions hhead ⊢
  rw [Rule.decode_object, hactions, hconditions, hhead]
  rfl

end RiskDecision
