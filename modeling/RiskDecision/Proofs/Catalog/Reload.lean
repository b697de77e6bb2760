import RiskDecision.Proofs.Catalog.Isolation
import RiskDecision.Proofs.Rule.Json

/-!
# A catalog survives being exported and loaded again

Writing the rules of a catalog gives one spelling of each: an object with upper-case names, without
the members that are absent. However the entries were spelled that the catalog came from, loading
what is written gives the same catalog and rejects nothing. The rules of a loaded catalog are
canonical and valid, so each of them is accepted again as itself, and they are in order already, so
sorting does not move them.
-/

namespace RiskDecision.Catalog

/-- The rules of a catalog as a JSON array, in their order. -/
def exported (c : Catalog) : Json := .array (c.rules.map Rule.toJson)

/-- The rule of an accepted entry is accepted as it is written. -/
theorem accepted?_toJson {entry : Json} {r : Rule} (hentry : entry.inRange = true)
    (h : accepted? entry = some r) : accepted? r.toJson = some r := by
  obtain ⟨hdecode, hvalid⟩ := accepted?_eq_some_iff.mp h
  have hcanonical := Rule.canonical_of_decode hentry hdecode
  exact accepted?_eq_some_iff.mpr ⟨Rule.decode_toJson hcanonical, hvalid⟩

/-- If every rule is accepted as it is written, then all of them are, and none is rejected. -/
theorem ofEntries_toJson (domain : String) {rules : List Rule}
    (h : ∀ r ∈ rules, accepted? r.toJson = some r) :
    ofEntries domain (rules.map Rule.toJson)
      = (ofRules domain rules, ⟨.ofText domain, rules.length, []⟩) := by
  have haccepted : (rules.map Rule.toJson).filterMap accepted? = rules := by
    induction rules with
    | nil => rfl
    | cons r rest ih =>
        rw [List.map_cons, List.filterMap_cons_some (h r List.mem_cons_self),
          ih fun s hs => h s (List.mem_cons_of_mem _ hs)]
  have hrejected : (rules.map Rule.toJson).zipIdx.filterMap rejection? = [] := by
    -- as many are accepted as there are, so none is left over
    have hcount := length_accepted_add_rejected (rules.map Rule.toJson) 0
    rw [haccepted, List.length_map] at hcount
    exact List.eq_nil_of_length_eq_zero (by omega)
  rw [ofEntries, haccepted, hrejected]

/-- A catalog of rules that are in order already. -/
theorem ofRules_rules {c : Catalog} (hpolicy : c.policy = none) :
    ofRules c.domain.text c.rules = c := by
  obtain ⟨domain, rules, policy, sorted⟩ := c
  cases hpolicy
  have horder := Rule.inOrder_eq_self sorted
  simp only [ofRules, DomainName.ofText_text, horder]

/-- A catalog is loaded from its exported rules if each of them is accepted as it is written. -/
theorem ofJson_exported {c : Catalog} (hpolicy : c.policy = none)
    (h : ∀ r ∈ c.rules, accepted? r.toJson = some r) :
    ofJson c.domain.text c.exported = .ok (c, ⟨c.domain, c.size, []⟩) := by
  rw [exported, ofJson, ofEntries_toJson c.domain.text h, ofRules_rules hpolicy,
    DomainName.ofText_text]
  rfl

/-- The rules of a loaded catalog are accepted as they are written, and it has no policy. -/
theorem accepted?_toJson_of_ofJson {domain : String} {j : Json} {c : Catalog} {report : LoadReport}
    (hj : j.inRange = true) (hload : ofJson domain j = .ok (c, report)) :
    c.policy = none ∧ ∀ r ∈ c.rules, accepted? r.toJson = some r := by
  cases j with
  | array entries =>
      rw [ofJson] at hload
      have hc : (ofEntries domain entries).1 = c := congrArg Prod.fst (Except.ok.inj hload)
      subst hc
      refine ⟨rfl, ?_⟩
      intro r hr
      have hmem : r ∈ entries.filterMap accepted? := (Rule.inOrder_perm _).mem_iff.mp hr
      obtain ⟨entry, hentry, haccepted⟩ := List.mem_filterMap.mp hmem
      exact accepted?_toJson (Json.itemsInRange_iff.mp hj entry hentry) haccepted
  | _ => exact nomatch hload

/-- **ROUND TRIP.** However a catalog was spelled, its exported rules load under its domain as the
very same catalog, so with the same rules in the same order, every group, clause and literal in
them, and the same fields; nothing is rejected. -/
theorem reload_exported {domain : String} {j : Json} {c : Catalog} {report : LoadReport}
    (hj : j.inRange = true) (hload : ofJson domain j = .ok (c, report)) :
    ∃ clean, ofJson c.domain.text c.exported = .ok (c, clean) ∧ clean.isClean = true ∧
      clean.loaded = c.size := by
  obtain ⟨hpolicy, haccepted⟩ := accepted?_toJson_of_ofJson hj hload
  refine ⟨⟨c.domain, c.size, []⟩, ?_, rfl, rfl⟩
  exact ofJson_exported hpolicy haccepted

/-- A rule by name, with an unknown action, a group without children and a list in a list; a rule by
position; and an entry that is rejected. -/
theorem reload_exported_three :
    let entries : List Json :=
      [.object [("actions", .array [.object [("type", .text "Escalate"), ("value", .int 3)]]),
          ("conditions", .object
            [("clauses", .array
              [.object [("clauses", .null), ("logicalOperator", .text " and ")],
                .object [("field", .text "amount"), ("operator", .text "between"),
                  ("value", .array [.int (-1), .array [.int 18446744073709551615]])]]),
            ("logicalOperator", .text "Or")]),
          ("ruleId", .text "R1")],
        .array [.text "R2", .null, .text "bank", .bool false, .int (-3)],
        .bool true]
    let load := ofEntries " Bank" entries
    load.2.loaded = 2 ∧ load.2.isClean = false ∧
      ∃ clean, ofJson load.1.domain.text load.1.exported = .ok (load.1, clean) ∧
        clean.isClean = true ∧ clean.loaded = load.1.size := by
  intro entries load
  have hj : (Json.array entries).inRange = true := by
    decide
  have hload : ofJson " Bank" (.array entries) = .ok (load.1, load.2) := rfl
  refine ⟨?_, ?_, ?_⟩
  · rfl
  · rfl
  · exact reload_exported hj hload

/-- A catalog that was loaded from a text comes back as well: what a text denotes is in range. -/
theorem ofJson_exported_of_ofText {domain text : String} {c : Catalog} {report : LoadReport}
    (hload : ofText domain text = .ok (c, report)) :
    ofJson c.domain.text c.exported = .ok (c, ⟨c.domain, c.size, []⟩) := by
  rw [ofText] at hload
  obtain ⟨j, hread, hload⟩ := bind_eq_ok_iff.mp hload
  have hj : j.inRange = true := by
    cases htext : Json.ofText text with
    | error flaw =>
        rw [htext] at hread
        exact nomatch hread
    | ok j' =>
        rw [htext] at hread
        obtain rfl := Except.ok.inj hread
        exact Json.inRange_of_ofText htext
  obtain ⟨hpolicy, haccepted⟩ := accepted?_toJson_of_ofJson hj hload
  exact ofJson_exported hpolicy haccepted

end RiskDecision.Catalog
