import RiskDecision.Catalog.Bundle
import RiskDecision.Proofs.Catalog.Store

/-!
# What can be loaded is an array

Of all JSON values only an array has a catalog. So texts are told apart by the entries that they
list (`entriesOf?`), and the rule members of a payload by the arrays that they bring for a domain
(`arraysFor`). The last of these arrays is the catalog of the domain (`lastOf?_ofEntries`).
-/

namespace RiskDecision

/-- The items of an array. -/
def Json.items? : Json → Option (List Json)
  | .array items => some items
  | _ => none

namespace Catalog

/-- The entries that a text lists. One that is no JSON lists none, nor does one that has another
value than an array. -/
def entriesOf? (text : String) : Option (List Json) := (Json.ofText text).toOption.bind Json.items?

theorem toOption_ofJson (domain : String) (j : Json) :
    (ofJson domain j).toOption = j.items?.map (ofEntries domain) := by
  cases j <;> rfl

theorem toOption_ofText (domain text : String) :
    (ofText domain text).toOption = (entriesOf? text).map (ofEntries domain) := by
  rw [ofText, entriesOf?]
  cases Json.ofText text with
  | error flaw => rfl
  | ok j => exact toOption_ofJson domain j

/-- The spelling of a domain leaves no trace in its catalog. -/
theorem ofEntries_respell {a b : String} (same : Text.normalize a = Text.normalize b)
    (entries : List Json) : ofEntries a entries = ofEntries b entries := by
  rw [ofEntries, ofEntries, ofRules, ofRules, DomainName.ofText_eq_iff.mpr same]

end Catalog

namespace Bundle

/-- The rule members of a payload. One without `rules` has no members; for one of the wrong kind,
or with a value of the wrong kind for `rules`, there is no answer. -/
def members? : Json → Option (List (String × Json))
  | .object members =>
    match Dictionary.find? "rules" members with
    | none | some .null => some []
    | some (.object entries) => some entries
    | some _ => none
  | _ => none

theorem ofJsonBy_of_some {payload : Json} {members : List (String × Json)}
    (h : members? payload = some members) (e : Enumeration) :
    ofJsonBy e payload = .ok (ofEntries (e.order members)) := by
  -- there is only one way to go through no members
  have hnil : (⟨[]⟩ : Bundle) = ofEntries (e.order []) := by
    rw [(e.perm []).eq_nil]
    rfl
  cases payload with
  | object fields =>
      rw [members?] at h
      rw [ofJsonBy]
      cases hrules : Dictionary.find? "rules" fields with
      | none => rw [hrules] at h; cases h; exact congrArg Except.ok hnil
      | some rules =>
          rw [hrules] at h
          cases rules with
          | null => cases h; exact congrArg Except.ok hnil
          | object entries => cases h; rfl
          | _ => cases h
  | _ => cases h

theorem ofJsonBy_of_none {payload : Json} (h : members? payload = none) (e : Enumeration) :
    ∃ f, ofJsonBy e payload = .error f := by
  cases payload with
  | object fields =>
      rw [members?] at h
      rw [ofJsonBy]
      cases hrules : Dictionary.find? "rules" fields with
      | none => rw [hrules] at h; cases h
      | some rules =>
          rw [hrules] at h
          cases rules with
          | null => cases h
          | object entries => cases h
          | _ => exact ⟨_, rfl⟩
  | _ => exact ⟨_, rfl⟩

/-- The arrays that rule members bring for a domain, in their order. -/
def arraysFor (spelling : String) (members : List (String × Json)) : List (List Json) :=
  (members.filter fun m => Text.normalize m.1 = Text.normalize spelling).filterMap fun m =>
    m.2.items?

theorem mem_arraysFor {spelling : String} {members : List (String × Json)} {entries : List Json} :
    entries ∈ arraysFor spelling members ↔
      ∃ key, (key, .array entries) ∈ members ∧ Text.normalize key = Text.normalize spelling := by
  simp only [arraysFor, List.mem_filterMap, List.mem_filter, decide_eq_true_eq]
  constructor
  · rintro ⟨⟨key, j⟩, ⟨hmem, hkey⟩, hitems⟩
    cases j with
    | array items => cases hitems; exact ⟨key, hmem, hkey⟩
    | _ => exact nomatch hitems
  · rintro ⟨key, hmem, hkey⟩
    exact ⟨(key, .array entries), ⟨hmem, hkey⟩, rfl⟩

theorem arraysFor_append (spelling : String) (xs ys : List (String × Json)) :
    arraysFor spelling (xs ++ ys) = arraysFor spelling xs ++ arraysFor spelling ys := by
  rw [arraysFor, List.filter_append, List.filterMap_append]
  rfl

/-- The order of the members does not matter to which arrays there are. -/
theorem arraysFor_perm (spelling : String) {xs ys : List (String × Json)} (h : xs.Perm ys) :
    (arraysFor spelling xs).Perm (arraysFor spelling ys) :=
  (h.filter _).filterMap _

/-- The catalogs of a domain among those of rule members are those of its arrays. -/
theorem filter_ofEntries (spelling : String) (members : List (String × Json)) :
    ((ofEntries members).catalogs.map Prod.fst).filter
        (fun c => c.domain = DomainName.ofText spelling)
      = (arraysFor spelling members).map fun entries =>
          (Catalog.ofEntries spelling entries).1 := by
  induction members with
  | nil => rfl
  | cons m rest ih =>
      obtain ⟨key, j⟩ := m
      simp only [ofEntries, arraysFor] at ih ⊢
      rw [List.filterMap_cons, List.filter_cons, Catalog.toOption_ofJson]
      cases hitems : j.items? with
      | none =>
          rw [Option.map_none]
          dsimp only
          rw [ih]
          split
          · rw [List.filterMap_cons, hitems]
          · rfl
      | some entries =>
          rw [Option.map_some]
          dsimp only
          rw [List.map_cons, List.filter_cons, ih]
          have hdomain : (Catalog.ofEntries key entries).1.domain = .ofText spelling ↔
              Text.normalize key = Text.normalize spelling := DomainName.ofText_eq_iff
          by_cases hkey : Text.normalize key = Text.normalize spelling
          · rw [if_pos (decide_eq_true (hdomain.mpr hkey)), if_pos (decide_eq_true hkey),
              List.filterMap_cons, hitems, List.map_cons, Catalog.ofEntries_respell hkey]
          · rw [if_neg (by simpa using mt hdomain.mp hkey), if_neg (by simpa using hkey)]

/-- **THE LAST ARRAY** for a domain is its catalog. -/
theorem lastOf?_ofEntries (spelling : String) (members : List (String × Json)) :
    Catalog.lastOf? (.ofText spelling) ((ofEntries members).catalogs.map Prod.fst)
      = (arraysFor spelling members).getLast?.map fun entries =>
          (Catalog.ofEntries spelling entries).1 := by
  rw [Catalog.lastOf?, filter_ofEntries, List.getLast?_map]

end Bundle

end RiskDecision
