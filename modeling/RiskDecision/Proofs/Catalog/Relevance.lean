import Mathlib.Data.List.Dedup
import RiskDecision.Catalog.Basic
import RiskDecision.Proofs.Dictionary.Keys
import RiskDecision.Proofs.Engine.Account
import RiskDecision.Proofs.Evaluation.Relevance

/-!
# What a decision depends on

A catalog lists the fields that its rules read. That list is complete: two cases with the same score
in which these fields lead to the same values are decided alike, down to the last line of the trace,
whatever else there is in their records, features and client contexts. Descriptions, domain tags and
declared data types play no part either.
-/

namespace RiskDecision

namespace Rule

/-- The rule without what nothing depends on. -/
def bare (r : Rule) : Rule :=
  { r with description := none, domain := none, conditions := r.conditions.map Group.bare }

end Rule

/-- Bare rules have the same effect on a verdict. -/
theorem Verdict.afterRules_map_bare (policy : ScorePolicy) (v : Verdict) (rules : List Rule) :
    v.afterRules policy (rules.map Rule.bare) = v.afterRules policy rules := by
  simp only [afterRules, List.flatMap_map, List.map_map]
  rfl

namespace Engine

variable {c c' : Case}

/-- A rule applies in one case exactly if the bare rule applies in another one that gives the fields
of the rule the same values. -/
theorem applies_bare {aliases : List String} (r : Rule)
    (h : c.SameValues aliases c' r.fields) :
    r.bare.applies aliases c' = r.applies aliases c := by
  rw [← runConditions_matched, ← runConditions_matched]
  exact (congrArg Prod.fst (shown_runConditions r h)).symm

/-- The trace of a rule is that of the bare rule in such a case. -/
theorem lines_bare {aliases : List String} (r : Rule) (h : c.SameValues aliases c' r.fields) :
    RuleRun.lines ⟨r.bare, runConditions aliases c' r.bare.conditions⟩
      = RuleRun.lines ⟨r, runConditions aliases c r.conditions⟩ := by
  have hshown := shown_runConditions r h
  have hmatched : (runConditions aliases c r.conditions).matched
      = (runConditions aliases c' r.bare.conditions).matched := congrArg Prod.fst hshown
  have hlines : (runConditions aliases c r.conditions).lines
      = (runConditions aliases c' r.bare.conditions).lines := congrArg Prod.snd hshown
  rw [RuleRun.lines, RuleRun.lines, hmatched, hlines]
  rfl

/-- The enabled bare rules in order are the enabled rules in order, made bare. -/
theorem enabledInOrder_map_bare (rules : List Rule) :
    (Rule.inOrder (rules.map Rule.bare)).filter (·.enabled)
      = ((Rule.inOrder rules).filter (·.enabled)).map Rule.bare := by
  have hpriority : ∀ r : Rule, r.bare.priority = r.priority := fun _ => rfl
  rw [Rule.inOrder_map rules hpriority, List.filter_map]
  rfl

theorem mem_of_mem_enabledInOrder {rules : List Rule} {r : Rule}
    (h : r ∈ (Rule.inOrder rules).filter (·.enabled)) : r ∈ rules :=
  (Rule.inOrder_perm rules).mem_iff.mp (List.mem_filter.mp h).1

section

variable (engine : Engine) {rules : List Rule}
  (h : ∀ r ∈ rules, c.SameValues engine.aliases c' r.fields)
include h

/-- The bare rules that apply in one case are those that apply in the other, made bare. -/
theorem appliedRules_bare :
    engine.appliedRules (rules.map Rule.bare) c' = (engine.appliedRules rules c).map Rule.bare := by
  rw [appliedRules, appliedRules, enabledInOrder_map_bare, List.filter_map]
  congr 1
  refine List.filter_congr ?_
  intro r hr
  exact applies_bare r (h r (mem_of_mem_enabledInOrder hr))

/-- Bare rules leave the same trace. -/
theorem traceOf_bare :
    engine.traceOf (rules.map Rule.bare) c' = engine.traceOf rules c := by
  have hlines : ∀ l : List Rule, (∀ r ∈ l, r ∈ rules) →
      ((l.map Rule.bare).map fun r =>
          RuleRun.mk r (runConditions engine.aliases c' r.conditions)).flatMap RuleRun.lines
        = (l.map fun r =>
          RuleRun.mk r (runConditions engine.aliases c r.conditions)).flatMap RuleRun.lines := by
    intro l hl
    induction l with
    | nil => rfl
    | cons r rest ih =>
        simp only [List.map_cons, List.flatMap_cons]
        rw [lines_bare r (h r (hl r List.mem_cons_self)),
          ih fun s hs => hl s (List.mem_cons_of_mem r hs)]
  rw [traceOf, traceOf, runRules, runRules, enabledInOrder_map_bare,
    hlines _ fun r hr => mem_of_mem_enabledInOrder hr]

/-- **RULES**: of a case, rules see nothing but the score and the values of their fields. -/
theorem decideUnder_bare (policy : ScorePolicy) (hscore : c.score = c'.score) :
    (engine.decideUnder policy (rules.map Rule.bare) c').verdict
      = (engine.decideUnder policy rules c).verdict := by
  by_cases hne : rules = []
  · subst hne
    show (Verdict.start c'.score).allow _ = (Verdict.start c.score).allow _
    rw [hscore]
  · have hne' : rules.map Rule.bare ≠ [] := fun he => hne (List.map_eq_nil_iff.mp he)
    rw [decideUnder_verdict engine policy hne', decideUnder_verdict engine policy hne,
      appliedRules_bare engine h, traceOf_bare engine h, Verdict.afterRules_map_bare, hscore]

end

/-- Cases with the same score in which every path leads to the same value by the same accessors are
evaluated alike, steps and all. -/
theorem decideByCatalog_congr (engine : Engine) (catalog : Catalog) (hscore : c.score = c'.score)
    (h : c.resolve engine.aliases = c'.resolve engine.aliases) :
    engine.decideByCatalog catalog c = engine.decideByCatalog catalog c' := by
  have hruns : engine.runRules catalog.rules c = engine.runRules catalog.rules c' := by
    simp only [runRules, runConditions_congr h]
  simp only [decideByCatalog, decideUnder, hscore, hruns]

end Engine

/-! ## Catalogs -/

namespace Catalog

/-- The fields of a catalog are those of its rules, at every depth. -/
theorem mem_referencedFields {catalog : Catalog} {f : String} :
    f ∈ catalog.referencedFields ↔ ∃ r ∈ catalog.rules, f ∈ r.fields := by
  rw [referencedFields, ← Dictionary.keys, Dictionary.mem_keys_ofList, List.map_map]
  simp only [Function.comp_def, List.map_id', List.mem_flatMap]

/-- As many fields are listed as there are different ones in the rules. -/
theorem length_referencedFields (catalog : Catalog) :
    catalog.referencedFields.length = (catalog.rules.flatMap Rule.fields).dedup.length := by
  have hnodup : catalog.referencedFields.Nodup := (Dictionary.sorted_ofList _).nodup_keys
  refine List.Perm.length_eq ((List.perm_ext_iff_of_nodup hnodup (List.nodup_dedup _)).mpr ?_)
  intro f
  rw [mem_referencedFields, List.mem_dedup, List.mem_flatMap]

/-- Two catalogs whose rules are the same but for descriptions, domain tags and data types, and that
have the same policy. -/
structure SameRules (catalog catalog' : Catalog) : Prop where
  rules : catalog.rules.map Rule.bare = catalog'.rules.map Rule.bare
  policy : catalog.policy = catalog'.policy

end Catalog

/-- Two cases with the same score in which the fields lead to the same values. -/
structure Case.AgreesOn (aliases : List String) (fields : List String) (c c' : Case) : Prop where
  score : c.score = c'.score
  values : c.SameValues aliases c' fields

namespace Engine

/-- **RELEVANCE.** The verdict on a case by a catalog, its trace included, depends on the score, on
the values of the fields that the catalog lists, on its policy and on its bare rules; on nothing
else. -/
theorem decideByCatalog_relevance (engine : Engine) {catalog catalog' : Catalog} {c c' : Case}
    (hcatalog : catalog.SameRules catalog')
    (hcase : c.AgreesOn engine.aliases catalog.referencedFields c') :
    (engine.decideByCatalog catalog c).verdict = (engine.decideByCatalog catalog' c').verdict := by
  have hvalues : ∀ r ∈ catalog.rules, c.SameValues engine.aliases c' r.fields := by
    intro r hr f hf
    exact hcase.values f (Catalog.mem_referencedFields.mpr ⟨r, hr, hf⟩)
  have hself : ∀ r ∈ catalog'.rules, c'.SameValues engine.aliases c' r.fields :=
    fun _ _ _ _ => rfl
  rw [decideByCatalog, decideByCatalog, ← decideUnder_bare engine hvalues _ hcase.score,
    ← decideUnder_bare engine hself _ rfl, hcatalog.rules, hcatalog.policy]

/-- One catalog describes and types what the other one does not, and the cases come from records of
different types with different further features; both are decided alike. -/
theorem decideByCatalog_relevance_night :
    let night (description dataType : Option String) : Rule :=
      ⟨"R-NIGHT", description, none, true, 0,
        some ⟨.and, [.clause ⟨"preprocessed.is_night", .equals, .bool true, dataType⟩]⟩,
        [Action.addFlag "NIGHT"]⟩
    let catalog := Catalog.ofRules "bank" [night (some "after dark") (some "BOOLEAN")]
    let catalog' := Catalog.ofRules "bank" [night none none]
    let c : Case := ⟨.mk "Transfer" [], 0.5, [("is_night", .bool true)], none⟩
    let c' : Case := ⟨.mk "Payment" [("getAmount", .scalar (.number 3))], 0.5,
      [("hour", .number 23), ("is_night", .bool true)], some []⟩
    let engine : Engine := { tracing := true }
    catalog.SameRules catalog' ∧ c.AgreesOn engine.aliases catalog.referencedFields c' ∧
      (engine.decideByCatalog catalog c).verdict = (engine.decideByCatalog catalog' c').verdict := by
  intro night catalog catalog' c c' engine
  have hsame : catalog.SameRules catalog' := by
    refine ⟨?_, rfl⟩
    simp only [catalog, catalog', Catalog.ofRules, Rule.inOrder, List.mergeSort_singleton]
    rfl
  have hagree : c.AgreesOn engine.aliases catalog.referencedFields c' := by
    refine ⟨rfl, ?_⟩
    intro f hf
    obtain ⟨r, hr, hfr⟩ := Catalog.mem_referencedFields.mp hf
    simp only [catalog, Catalog.ofRules, Rule.inOrder, List.mergeSort_singleton,
      List.mem_singleton] at hr
    subst hr
    have hfield : f = Case.featureStart ++ "is_night" := List.mem_singleton.mp hfr
    rw [hfield, Case.resolve_feature, Case.resolve_feature]
    rfl
  exact ⟨hsame, hagree, decideByCatalog_relevance engine hsame hagree⟩

end Engine

end RiskDecision
