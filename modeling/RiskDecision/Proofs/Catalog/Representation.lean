import RiskDecision.Proofs.Catalog.Isolation
import RiskDecision.Proofs.Catalog.Relevance
import RiskDecision.Proofs.Engine.Faults
import RiskDecision.Proofs.Evaluation.Asking

/-!
# What holds of every loaded catalog

Loading takes entries as they come, but what it makes of them is in good order: the rules are
sorted, each one has an identifier, each of their clauses names a field, the domain is in its normal
form, and the fields that are listed are those of the clauses. `Catalog.Loaded` says so. Going
through a tree to check it, to collect its fields and to evaluate it are three different things, and
a depth that one of them passed over would show: an engine that is refused the value of a blank path
would stop there. On a loaded catalog it never does (`Catalog.ofJson_representation`).
-/

namespace RiskDecision

/-! ## Deciding by asking -/

/-- Evaluates the conditions of rules, asking for what it needs. -/
def askRules (find : Finder) (rules : List Rule) : Except String (List RuleRun) :=
  rules.mapM fun rule => do return ⟨rule, ← askConditions find rule.conditions⟩

namespace Engine

/-- Decides a case by a catalog without holding it: the score is given, everything else is asked
for. -/
def askByCatalog (engine : Engine) (catalog : Catalog) (find : Finder) (score : Float) :
    Except String Evaluation := do
  let start := Verdict.start score
  if catalog.rules.isEmpty then return ⟨start.allow Verdict.noRules, []⟩
  else
    let runs ← askRules find ((Rule.inOrder catalog.rules).filter (·.enabled))
    let verdict := (runs.foldl (RuleRun.apply (catalog.policy.getD engine.policy)) start).settle
    return ⟨{ verdict with trace := if engine.tracing then runs.flatMap RuleRun.lines else [] },
      runs⟩

/-- The clauses of the enabled rules of a catalog that are reached in a case. -/
def reached (engine : Engine) (catalog : Catalog) (c : Case) : List Clause :=
  (catalog.rules.filter (·.enabled)).flatMap fun r =>
    Group.reached? (Clause.holds engine.aliases c) r.conditions

/-- **CATALOGS**: an engine that asks arrives where one that holds the case does, unless a clause
that is reached has a blank field. -/
theorem askByCatalog_findNamed (engine : Engine) (catalog : Catalog) (c : Case) :
    engine.askByCatalog catalog (c.findNamed engine.aliases) c.score
      = ifNamed (engine.reached catalog c) (engine.decideByCatalog catalog c) := by
  have hruns : askRules (c.findNamed engine.aliases) (catalog.rules.filter (·.enabled))
      = ifNamed (engine.reached catalog c) (engine.runRules catalog.rules c) := by
    rw [askRules, reached, runRules, Rule.inOrder_eq_self catalog.sorted]
    refine mapM_ifNamed (fun r => ?_) _
    rw [askConditions_findNamed]
    exact ifNamed_map _ _ rfl
  rw [askByCatalog, decideByCatalog, decideUnder, Rule.inOrder_eq_self catalog.sorted]
  cases hrules : catalog.rules.isEmpty with
  | true =>
      rw [reached, List.isEmpty_iff.mp hrules]
      rfl
  | false =>
      rw [if_neg Bool.false_ne_true, if_neg Bool.false_ne_true, hruns]
      exact ifNamed_map _ _ rfl

end Engine

/-! ## Loading -/

/-- No letter of a domain is in upper case. -/
theorem DomainName.isUpper_of_mem_text (d : DomainName) {ch : Char} (h : ch ∈ d.text.toList) :
    ch.isUpper = false := by
  rw [← d.lower_text, Text.lower, String.toList_ofList, List.mem_map] at h
  obtain ⟨original, -, rfl⟩ := h
  exact Text.isUpper_toLower original

namespace Catalog

/-- The fields that the rules read, collected by going through them node by node. -/
def collectedFields (catalog : Catalog) : List String :=
  (catalog.rules.foldl Rule.collect []).keys

/-- What is collected is what is listed. -/
theorem collectedFields_eq (catalog : Catalog) :
    catalog.collectedFields = catalog.referencedFields := by
  have hcollect : Rule.collect = fun d r => r.fields.foldl (fun d f => d.insert f ()) d := by
    funext d r
    rw [Rule.collect_eq, addFields, Rule.fields, List.foldl_map]
  rw [collectedFields, referencedFields, Dictionary.ofList, List.foldl_map, List.foldl_flatMap,
    hcollect]
  rfl

/-- What holds of the catalog that is loaded from entries. -/
structure Loaded (domain : String) (entries : List Json) (catalog : Catalog) : Prop where
  /-- The rules are those of the accepted entries, sorted; those of one priority in their order. -/
  ordered : Rule.StableOrder (entries.filterMap accepted?) catalog.rules
  complete : ∀ r ∈ catalog.rules, r.Complete
  checked : ∀ r ∈ catalog.rules, r.check = .ok ()
  domain : catalog.domain.text = Text.normalize domain
  trimmed : Text.trim catalog.domain.text = catalog.domain.text
  lowered : ∀ ch ∈ catalog.domain.text.toList, ch.isUpper = false
  /-- Disabled rules count as well. -/
  fields : ∀ f, f ∈ catalog.referencedFields ↔
    ∃ r ∈ catalog.rules, ∃ clause, r.Has clause ∧ clause.field = f
  collected : catalog.collectedFields = catalog.referencedFields

/-- The rules of a loaded catalog are valid. -/
theorem validate_of_mem_rules {domain : String} {entries : List Json} {r : Rule}
    (h : r ∈ (ofEntries domain entries).1.rules) : r.validate = .ok () := by
  have haccepted : r ∈ entries.filterMap accepted? := (Rule.inOrder_perm _).mem_iff.mp h
  obtain ⟨entry, -, hentry⟩ := List.mem_filterMap.mp haccepted
  exact (accepted?_eq_some_iff.mp hentry).2

theorem loaded_ofEntries (domain : String) (entries : List Json) :
    Loaded domain entries (ofEntries domain entries).1 where
  ordered := Rule.stableOrder_inOrder _
  complete _ hr := Rule.validate_eq_ok_iff.mp (validate_of_mem_rules hr)
  checked r hr := (Rule.check_eq_validate r).trans (validate_of_mem_rules hr)
  domain := rfl
  trimmed := DomainName.trim_text _
  lowered _ h := DomainName.isUpper_of_mem_text _ h
  fields f := by simp only [mem_referencedFields, Rule.mem_fields_iff]
  collected := collectedFields_eq _

/-- **REPRESENTATION.** An entry is accepted if it is a rule with an identifier whose clauses name
fields, at every depth. Every array gives a catalog that has these rules, sorted, a domain in its
normal form, and the fields of all their clauses. So whichever case its conditions are evaluated in,
no question for a blank path comes up: not in a rule, enabled or not, and not when an engine
decides. -/
theorem ofJson_representation (domain : String) (entries : List Json) :
    (∀ entry r, accepted? entry = some r ↔ Rule.decode entry = .ok r ∧ r.Complete) ∧
    ∃ catalog report, ofJson domain (.array entries) = .ok (catalog, report) ∧
      Loaded domain entries catalog ∧
      (∀ aliases c, ∀ r ∈ catalog.rules,
        askConditions (c.findNamed aliases) r.conditions
          = .ok (runConditions aliases c r.conditions)) ∧
      ∀ (engine : Engine) c,
        engine.askByCatalog catalog (c.findNamed engine.aliases) c.score
          = .ok (engine.decideByCatalog catalog c) := by
  have hloaded := loaded_ofEntries domain entries
  refine ⟨?_, (ofEntries domain entries).1, (ofEntries domain entries).2, rfl, hloaded, ?_, ?_⟩
  · intro entry r
    rw [accepted?_eq_some_iff, Rule.validate_eq_ok_iff]
  · intro aliases c r hr
    exact askConditions_of_named (hloaded.complete r hr).named
  · intro engine c
    rw [Engine.askByCatalog_findNamed]
    refine ifNamed_of_named (fun clause hmem => ?_) _
    obtain ⟨r, hr, hreached⟩ := List.mem_flatMap.mp hmem
    exact (hloaded.complete r (List.mem_filter.mp hr).1).named clause
      (Rule.has_of_mem_reached hreached)

end Catalog

end RiskDecision
