import RiskDecision.Rule.Basic
import RiskDecision.Value.Json

/-!
# Rules and JSON

Rules are written as objects or positional arrays. Inside a group, an object with the member
`logicalOperator` is a group itself and everything else is a clause.

When a rule has several errors, the first one is reported: the members of an object are looked at in
the order of their keys, the items of an array in the order of the declaration.
-/

namespace RiskDecision

/-- The fields of a clause in the order of their declaration. -/
def Clause.fieldNames : List String := ["field", "operator", "value", "dataType"]

/-- Reads a clause. -/
def Clause.decode (j : Json) : Except DecodeError Clause :=
  j.record Clause.fieldNames fun get => do
    let dataType ← Json.optional Json.asText (get "dataType")
    let field ← Json.nullable "" Json.asText (get "field")
    let operator ← Json.required "operator" Json.asText (get "operator")
    let literal ← Json.withDefault .null Value.decode (get "value")
    return ⟨field, .ofName operator, literal, dataType⟩

/-- The fields of an action in the order of their declaration. -/
def Action.fieldNames : List String := ["type", "value", "reasonCode"]

/-- Reads an action. -/
def Action.decode (j : Json) : Except DecodeError Action :=
  j.record Action.fieldNames fun get => do
    let reasonCode ← Json.optional Json.asText (get "reasonCode")
    let kind ← Json.required "type" Json.asText (get "type")
    let value ← Json.withDefault .null Value.decode (get "value")
    return ⟨.ofName kind, value, reasonCode⟩

/-- Reads a list of actions. -/
def Action.decodeAll : Json → Except DecodeError (List Action)
  | .array items => items.mapM Action.decode
  | j => .error (.wrongKind "array" j.kind)

/-- Reads a connective; the null value stands for the disjunction. -/
def Connective.decode : Json → Except DecodeError Connective
  | .null => .ok .or
  | .text name =>
    match Connective.ofName? name with
    | some c => .ok c
    | none => .error (.unknownConnective name)
  | j => .error (.wrongKind "string" j.kind)

mutual

/-- Reads a child of a group. -/
def Condition.decode : Json → Except DecodeError Condition
  | .object members =>
    match Dictionary.find? "logicalOperator" members with
    | some connective => do
      let children ← decodeChildrenMember members
      return .group (← Connective.decode connective) children
    | none => return .clause (← Clause.decode (.object members))
  | j => return .clause (← Clause.decode j)

/-- Reads the children of a group from the members of its object. -/
def decodeChildrenMember : List (String × Json) → Except DecodeError (List Condition)
  | [] => .ok []
  | (key, value) :: rest =>
    if key = "clauses" then decodeChildren value else decodeChildrenMember rest

/-- Reads the children of a group. -/
def decodeChildren : Json → Except DecodeError (List Condition)
  | .null => .ok []
  | .array items => decodeConditions items
  | j => .error (.wrongKind "array" j.kind)

/-- Reads several children. -/
def decodeConditions : List Json → Except DecodeError (List Condition)
  | [] => .ok []
  | item :: rest => do
    let child ← Condition.decode item
    return child :: (← decodeConditions rest)

end

/-- The fields of a group in the order of their declaration. -/
def Group.fieldNames : List String := ["logicalOperator", "clauses"]

/-- Reads the root of a condition tree. -/
def Group.decode (j : Json) : Except DecodeError Group :=
  j.record Group.fieldNames fun get => do
    let connective := Json.withDefault .or Connective.decode (get "logicalOperator")
    let children := Json.withDefault [] decodeChildren (get "clauses")
    match j with
    | .array _ => return ⟨← connective, ← children⟩
    | _ => do
      let children ← children
      return ⟨← connective, children⟩

/-- The fields of a rule in the order of their declaration. -/
def Rule.fieldNames : List String :=
  ["ruleId", "description", "domain", "isEnabled", "priority", "conditions", "actions"]

/-- Reads the fields of a rule other than its conditions and actions. -/
def Rule.decodeHead (get : Json.Fields) : Except DecodeError Rule := do
  let id ← Json.nullable "" Json.asText (get "ruleId")
  let description ← Json.optional Json.asText (get "description")
  let domain ← Json.optional Json.asText (get "domain")
  let enabled ← Json.nullable true Json.asBool (get "isEnabled")
  let priority ← Json.nullable 0 (Json.asInt 32) (get "priority")
  return ⟨id, description, domain, enabled, priority, none, []⟩

/-- Reads a rule. -/
def Rule.decode (j : Json) : Except DecodeError Rule :=
  j.record Rule.fieldNames fun get => do
    let head := Rule.decodeHead get
    let conditions := Json.optional Group.decode (get "conditions")
    let actions := Json.nullable [] Action.decodeAll (get "actions")
    match j with
    | .array _ => do
      let head ← head
      return { head with conditions := ← conditions, actions := ← actions }
    | _ => do
      let actions ← actions
      let conditions ← conditions
      return { ← head with conditions, actions }

/-- Writes a clause; an absent data type is left out. -/
def Clause.toJson (c : Clause) : Json :=
  .object ((c.dataType.map fun s => ("dataType", Json.text s)).toList ++
    [("field", .text c.field), ("operator", .text c.operator.name), ("value", c.literal.toJson)])

/-- Writes an action; an absent reason code is left out. -/
def Action.toJson (a : Action) : Json :=
  .object ((a.reasonCode.map fun s => ("reasonCode", Json.text s)).toList ++
    [("type", .text a.kind.name), ("value", a.value.toJson)])

mutual

/-- Writes a node of a condition tree. -/
def Condition.toJson : Condition → Json
  | .clause c => c.toJson
  | .group connective children =>
    .object [("clauses", .array (conditionsToJson children)),
      ("logicalOperator", .text connective.name)]

/-- Writes several nodes. -/
def conditionsToJson : List Condition → List Json
  | [] => []
  | child :: rest => child.toJson :: conditionsToJson rest

end

/-- Writes the root of a condition tree. -/
def Group.toJson (g : Group) : Json := (Condition.group g.connective g.children).toJson

/-- Writes a rule. -/
def Rule.toJson (r : Rule) : Json :=
  .object [("actions", .array (r.actions.map Action.toJson)),
    ("conditions", match r.conditions with
      | none => .null
      | some root => root.toJson),
    ("description", Json.ofText? r.description),
    ("domain", Json.ofText? r.domain),
    ("isEnabled", .bool r.enabled),
    ("priority", .int r.priority),
    ("ruleId", .text r.id)]

end RiskDecision
