import Mathlib.Data.List.Basic
import RiskDecision.Proofs.Engine.Account
import RiskDecision.Proofs.Evaluation.Relevance

/-!
# Missing data never triggers a rule

Only a test for absence holds of absent data. A rule that makes no such test can therefore lose its
effect when data go missing, but never gain it: conditions are joined by "all" and "some" only, so
their truth grows with that of their clauses (`Condition.truth_mono`), and the truth of a clause
grows with what is known (`Clause.holds_mono`). The main statement, `triggered_sublist_of_part`,
puts this together for two cases of which one knows a part of what the other knows.
-/

namespace RiskDecision

/-- A test that does not hold of absent data. -/
def Clause.IsPositive (clause : Clause) : Prop := clause.operator ≠ .isNull

/-- A rule that nowhere tests for absence. -/
def Rule.IsPositive (r : Rule) : Prop := ∀ clause ∈ r.clauses, clause.IsPositive

/-- The first case knows a part of what the second one knows: each of the fields leads to nothing or
to the same value. Each case is read with aliases of its own. -/
def Case.PartOf (aliases : List String) (c : Case) (aliases' : List String) (c' : Case)
    (fields : List String) : Prop :=
  ∀ f ∈ fields, (c.resolve aliases f).value = .null ∨
    (c.resolve aliases f).value = (c'.resolve aliases' f).value

mutual

/-- No group in the tree is empty. -/
def Condition.isFilled : Condition → Bool
  | .clause _ => true
  | .group _ children => !children.isEmpty && allFilled children

/-- No group in several trees is empty. -/
def allFilled : List Condition → Bool
  | [] => true
  | child :: rest => child.isFilled && allFilled rest

end

/-! ## Clauses -/

/-- **NULL**: no comparison but the test for absence holds of absent data. -/
theorem Clause.verdictOf_test_null {operator : Operator} (h : operator ≠ .isNull)
    (literal : Value) : verdictOf (Clause.test operator .null literal) = false := by
  cases operator with
  | isNull => exact absurd rfl h
  | unknown name => rfl
  | _ => rfl

variable {aliases aliases' : List String} {c c' : Case}

theorem Clause.holds_eq_false {clause : Clause} (positive : clause.IsPositive)
    (absent : (c.resolve aliases clause.field).value = .null) :
    clause.holds aliases c = false := by
  rw [holds, absent]
  exact verdictOf_test_null positive clause.literal

/-- **CLAUSES**: what holds by a part of the data holds by all of them. -/
theorem Clause.holds_mono {clause : Clause} (positive : clause.IsPositive)
    (part : c.PartOf aliases aliases' c' [clause.field])
    (h : clause.holds aliases c = true) : clause.holds aliases' c' = true := by
  rcases part clause.field List.mem_cons_self with absent | same
  · rw [holds_eq_false positive absent] at h
    exact nomatch h
  · rw [holds, same] at h
    exact h

/-! ## Condition trees -/

/-- A group that holds still holds when more of its children do. -/
theorem Connective.join_mono (k : Connective) {children : List Condition}
    {p q : Condition → Bool} (h : ∀ child ∈ children, p child = true → q child = true)
    (hjoin : k.join (children.map p) = true) : k.join (children.map q) = true := by
  cases children with
  | nil => exact hjoin
  | cons first rest =>
      cases k with
      | and =>
          have hall : ((first :: rest).map p).all id = true := hjoin
          show ((first :: rest).map q).all id = true
          rw [List.all_map, List.all_eq_true] at hall ⊢
          exact fun child hc => h child hc (hall child hc)
      | or =>
          have hany : ((first :: rest).map p).any id = true := hjoin
          show ((first :: rest).map q).any id = true
          rw [List.any_map, List.any_eq_true] at hany ⊢
          obtain ⟨child, hc, hp⟩ := hany
          exact ⟨child, hc, h child hc hp⟩

/-- A group with children fails when all of them do. -/
theorem Connective.join_eq_false (k : Connective) {children : List Condition}
    {p : Condition → Bool} (hne : children ≠ []) (h : ∀ child ∈ children, p child = false) :
    k.join (children.map p) = false := by
  cases children with
  | nil => exact absurd rfl hne
  | cons first rest =>
      cases k with
      | and =>
          show ((first :: rest).map p).all id = false
          rw [List.map_cons, List.all_cons, h first List.mem_cons_self]
          rfl
      | or =>
          show ((first :: rest).map p).any id = false
          rw [List.any_map, List.any_eq_false]
          intro child hc
          rw [Function.comp_apply, h child hc]
          exact Bool.false_ne_true

mutual

/-- **NODES**: the truth of a tree grows with that of its clauses. -/
theorem Condition.truth_mono {v v' : Clause → Bool} :
    ∀ t : Condition, (∀ clause ∈ t.clauses, v clause = true → v' clause = true) →
      t.truth v = true → t.truth v' = true
  | .clause clause, h => h clause List.mem_cons_self
  | .group k children, h => by
      rw [Condition.truth, Condition.truth, truths_eq_map, truths_eq_map]
      exact k.join_mono (forall_truth_mono children h)

/-- The children of a group, one by one. -/
theorem forall_truth_mono {v v' : Clause → Bool} :
    ∀ children : List Condition,
      (∀ clause ∈ clausesOfAll children, v clause = true → v' clause = true) →
      ∀ child ∈ children, child.truth v = true → child.truth v' = true
  | [], _, _, hmem => absurd hmem List.not_mem_nil
  | first :: rest, h, child, hmem => by
      rcases List.mem_cons.mp hmem with heq | hmem
      · rw [heq]
        exact first.truth_mono fun clause hc => h clause (List.mem_append.mpr (Or.inl hc))
      · exact forall_truth_mono rest
          (fun clause hc => h clause (List.mem_append.mpr (Or.inr hc))) child hmem

end

mutual

/-- **NOTHING HOLDS** in a tree without empty groups if no clause of it holds. -/
theorem Condition.truth_eq_false {v : Clause → Bool} :
    ∀ t : Condition, t.isFilled = true → (∀ clause ∈ t.clauses, v clause = false) →
      t.truth v = false
  | .clause clause, _, h => h clause List.mem_cons_self
  | .group k children, hfilled, h => by
      obtain ⟨hne, hall⟩ := Bool.and_eq_true_iff.mp hfilled
      have hne : children ≠ [] := by
        rintro rfl
        exact nomatch hne
      rw [Condition.truth, truths_eq_map]
      exact k.join_eq_false hne (forall_truth_eq_false children hall h)

theorem forall_truth_eq_false {v : Clause → Bool} :
    ∀ children : List Condition, allFilled children = true →
      (∀ clause ∈ clausesOfAll children, v clause = false) →
      ∀ child ∈ children, child.truth v = false
  | [], _, _, _, hmem => absurd hmem List.not_mem_nil
  | first :: rest, hfilled, h, child, hmem => by
      obtain ⟨hfirst, hrest⟩ := Bool.and_eq_true_iff.mp hfilled
      rcases List.mem_cons.mp hmem with heq | hmem
      · rw [heq]
        exact first.truth_eq_false hfirst
          fun clause hc => h clause (List.mem_append.mpr (Or.inl hc))
      · exact forall_truth_eq_false rest hrest
          (fun clause hc => h clause (List.mem_append.mpr (Or.inr hc))) child hmem

end

/-! ## Rules -/

/-- **ONE RULE**: what applies by a part of the data applies by all of them. -/
theorem Rule.applies_mono {r : Rule} (positive : r.IsPositive)
    (part : c.PartOf aliases aliases' c' r.fields) (h : r.applies aliases c = true) :
    r.applies aliases' c' = true := by
  have hclauses : ∀ clause ∈ r.clauses,
      clause.holds aliases c = true → clause.holds aliases' c' = true := by
    intro clause hc
    refine Clause.holds_mono (positive clause hc) ?_
    intro f hf
    obtain rfl := List.mem_singleton.mp hf
    exact part clause.field (List.mem_map_of_mem hc)
  rw [applies] at h ⊢
  rw [clauses] at hclauses
  cases hconditions : r.conditions with
  | none => rfl
  | some root =>
      rw [hconditions] at h hclauses
      exact Condition.truth_mono (.group root.connective root.children) hclauses h

namespace Engine

/-- **MISSING DATA NEVER TRIGGER A RULE.** Of two cases let one know a part of what the other knows
of the fields of some rules. If no rule tests for absence, the rules triggered in the first case are
triggered in the second one too, and in the same order, whatever else there is in the two cases and
however the two engines are configured. And conditions without a test for absence and without empty
groups fail where nothing is known of their fields. -/
theorem triggered_sublist_of_part (engine engine' : Engine) (policy policy' : ScorePolicy)
    (c c' : Case) :
    (∀ rules : List Rule, (∀ r ∈ rules, r.IsPositive) →
      (∀ r ∈ rules, c.PartOf engine.aliases engine'.aliases c' r.fields) →
      (engine.decideUnder policy rules c).verdict.triggered.Sublist
        (engine'.decideUnder policy' rules c').verdict.triggered) ∧
    ∀ (t : Condition) (address : Address), t.isFilled = true →
      (∀ clause ∈ t.clauses, clause.IsPositive) →
      (∀ clause ∈ t.clauses, (c.resolve engine.aliases clause.field).value = .null) →
      (t.run engine.aliases c address).matched = false := by
  constructor
  · intro rules positive part
    rw [triggered_decideUnder, triggered_decideUnder, appliedRules, appliedRules]
    refine List.Sublist.map _ ?_
    -- the rules that apply in the first case are picked from those that apply in the second one
    have hpick : ∀ r ∈ (Rule.inOrder rules).filter (·.enabled), r.applies engine.aliases c
        = (r.applies engine.aliases c && r.applies engine'.aliases c') := by
      intro r hr
      have hmem : r ∈ rules := (Rule.inOrder_perm rules).mem_iff.mp (List.mem_filter.mp hr).1
      cases happlies : r.applies engine.aliases c with
      | false => rw [Bool.false_and]
      | true => rw [Rule.applies_mono (positive r hmem) (part r hmem) happlies, Bool.and_self]
    rw [List.filter_congr hpick, ← List.filter_filter]
    exact List.filter_sublist
  · intro t address filled positive absent
    rw [Condition.run_matched]
    refine t.truth_eq_false filled ?_
    intro clause hc
    exact Clause.holds_eq_false (positive clause hc) (absent clause hc)

/-- The country of a transfer is known in one case only. The rule that asks for a foreign country
does not apply in the other one, although the null value is not equal to the home country either. -/
theorem triggered_sublist_of_part_country :
    let amount : Condition := .clause ⟨"preprocessed.amount", .greaterThan, .number 100, none⟩
    let foreign : Condition := .clause ⟨"preprocessed.country", .notEquals, .text "GB", none⟩
    let rules : List Rule :=
      [⟨"R-AMOUNT", none, none, true, 1, some ⟨.or, [foreign, amount]⟩, []⟩,
        ⟨"R-FOREIGN", none, none, true, 2, some ⟨.and, [foreign, amount]⟩, []⟩]
    let c : Case := ⟨.mk "Transfer" [], 0.5, [("amount", .number 150)], none⟩
    let c' : Case := ⟨.mk "Transfer" [], 0.5, [("amount", .number 150), ("country", .text "FR")],
      none⟩
    let engine : Engine := {}
    (∀ r ∈ rules, r.IsPositive) ∧
      (∀ r ∈ rules, c.PartOf engine.aliases engine.aliases c' r.fields) ∧
      (engine.decide rules c).verdict.triggered.Sublist
        (engine.decide rules c').verdict.triggered ∧
      foreign.isFilled = true ∧ (∀ clause ∈ foreign.clauses, clause.IsPositive) ∧
      (∀ clause ∈ foreign.clauses, (c.resolve engine.aliases clause.field).value = .null) ∧
      (foreign.run engine.aliases c []).matched = false := by
  intro amount foreign rules c c' engine
  have hcountry : (c.resolve engine.aliases "preprocessed.country").value = .null := by
    rw [show "preprocessed.country" = Case.featureStart ++ "country" from rfl,
      Case.resolve_feature]
    rfl
  have hamount : (c.resolve engine.aliases "preprocessed.amount").value
      = (c'.resolve engine.aliases "preprocessed.amount").value := by
    rw [show "preprocessed.amount" = Case.featureStart ++ "amount" from rfl, Case.resolve_feature,
      Case.resolve_feature]
    rfl
  have positive : ∀ r ∈ rules, r.IsPositive := by
    intro r hr clause hc
    have hoperators : ∀ r ∈ rules, ∀ clause ∈ r.clauses, clause.operator ≠ .isNull := by
      decide
    exact hoperators r hr clause hc
  have part : ∀ r ∈ rules, c.PartOf engine.aliases engine.aliases c' r.fields := by
    intro r hr f hf
    have hfields : ∀ r ∈ rules, ∀ f ∈ r.fields,
        f = "preprocessed.country" ∨ f = "preprocessed.amount" := by decide
    rcases hfields r hr f hf with rfl | rfl
    · exact Or.inl hcountry
    · exact Or.inr hamount
  have filled : foreign.isFilled = true := rfl
  have tests : ∀ clause ∈ foreign.clauses, clause.IsPositive := by
    intro clause hc
    obtain rfl := List.mem_singleton.mp hc
    rw [Clause.IsPositive]
    decide
  have absent : ∀ clause ∈ foreign.clauses,
      (c.resolve engine.aliases clause.field).value = .null := by
    intro clause hc
    obtain rfl := List.mem_singleton.mp hc
    exact hcountry
  have main := triggered_sublist_of_part engine engine engine.policy engine.policy c c'
  exact ⟨positive, part, main.1 rules positive part, filled, tests, absent,
    main.2 foreign [] filled tests absent⟩

end Engine

end RiskDecision
