import RiskDecision.Catalog.Load

/-!
# Configuration payloads

A configuration payload brings the catalogs of several domains in one object, under the member
`rules`. A domain whose catalog cannot be loaded is passed over. The others come in the order in
which the members are gone through, and nothing is promised about that order: each `Enumeration` is
as good as any other. Without a reason for another one, members are taken by their keys.
-/

namespace RiskDecision

/-- A way to go through the members of an object: each member comes up once. -/
structure Enumeration where
  order : List (String × Json) → List (String × Json)
  perm : ∀ members, (order members).Perm members

/-- The members as they stand, that is by their keys. -/
def Enumeration.byKey : Enumeration := ⟨id, fun _ => .refl _⟩

/-- The catalogs of a configuration payload with their reports. -/
structure Bundle where
  catalogs : List (Catalog × LoadReport)

namespace Bundle

/-- There are no catalogs. -/
def isEmpty (b : Bundle) : Bool := b.catalogs.isEmpty

/-- The catalogs of domains and their JSON values, in the given order. -/
def ofEntries (entries : List (String × Json)) : Bundle :=
  ⟨entries.filterMap fun e => (Catalog.ofJson e.1 e.2).toOption⟩

/-- The catalogs of a payload whose rule members are gone through in some way. -/
def ofJsonBy (e : Enumeration) : Json → Except Fault Bundle
  | .object members =>
    match Dictionary.find? "rules" members with
    | none | some .null => .ok ⟨[]⟩
    | some (.object entries) => .ok (ofEntries (e.order entries))
    | some j => .error (.payloadRulesKind j.kind)
  | j => .error (.payloadKind j.kind)

/-- The catalogs of a payload. -/
def ofJson : Json → Except Fault Bundle := ofJsonBy .byKey

/-- The catalogs of a payload text. -/
def ofText (text : String) : Except Fault Bundle := do
  let j ← (Json.ofText text).mapError .jsonText
  ofJson j

end Bundle

end RiskDecision
