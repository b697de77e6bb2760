import Mathlib.Data.List.Forall2
import RiskDecision.Proofs.Engine.Account
import RiskDecision.Proofs.Evaluation.Exchange
import RiskDecision.Proofs.Evaluation.Relevance

/-!
# Comparisons that are impossible

Some operators ask for operands of a certain kind. `Clause.Impossible` lists what they cannot do
with, and nothing else is a fault. Such a fault goes no further than its clause: to a condition tree
the clause is one that fails, so clauses that cannot be compared may be exchanged for others that
fail, in any rule and at any depth (`Rule.Repaired`), and the case is decided as before. Only the
trace tells.
-/

namespace RiskDecision

namespace Clause

/-! ## What operators cannot do -/

/-- An operator cannot be applied to a value and a literal. -/
inductive Impossible : Operator → Value → Value → Prop
  /-- Nobody knows the operator. -/
  | operator (name : String) (actual literal : Value) : Impossible (.unknown name) actual literal
  /-- Only numbers have an order. -/
  | greater {actual literal : Value} (present : actual.isNull = false)
      (h : actual.number? = none ∨ literal.number? = none) :
      Impossible .greaterThan actual literal
  | less {actual literal : Value} (present : actual.isNull = false)
      (h : actual.number? = none ∨ literal.number? = none) : Impossible .lessThan actual literal
  /-- Members are those of a text or a list. -/
  | members {actual literal : Value} (present : actual.isNull = false)
      (h : literal.kind ≠ .text ∧ literal.kind ≠ .list) : Impossible .inList actual literal
  /-- Only numbers lie between bounds, and the bounds are a list of two numbers. -/
  | range {actual literal : Value} (present : actual.isNull = false)
      (h : actual.number? = none ∨ ¬∃ low high, literal = .list [.number low, .number high]) :
      Impossible .between actual literal

variable {actual literal : Value}

theorem exists_fault_compareNumbers (test : Float → Float → Bool) :
    (∃ f, compareNumbers test actual literal = .error f)
      ↔ actual.number? = none ∨ literal.number? = none := by
  cases actual <;> cases literal <;> simp [compareNumbers, Value.number?]

theorem exists_fault_isMember : (∃ f, isMember actual literal = .error f)
    ↔ literal.kind ≠ .text ∧ literal.kind ≠ .list := by
  cases literal <;> simp [isMember, Value.kind]

theorem exists_fault_isBetween : (∃ f, isBetween actual literal = .error f)
    ↔ actual.number? = none ∨ ¬∃ low high, literal = .list [.number low, .number high] := by
  rw [isBetween.eq_def]
  cases actual with
  | number x =>
      dsimp only [Value.number?]
      split
      · next low high =>
          exact iff_of_false nofun fun h => h.elim nofun fun hne => hne ⟨low, high, rfl⟩
      · next first second hne =>
          refine iff_of_true ⟨_, rfl⟩ (Or.inr ?_)
          rintro ⟨low, high, heq⟩
          cases heq
          exact hne low high rfl rfl
      · next hne =>
          refine iff_of_true ⟨_, rfl⟩ (Or.inr ?_)
          rintro ⟨low, high, rfl⟩
          exact hne _ _ rfl
  | _ => exact iff_of_true ⟨_, rfl⟩ (Or.inl rfl)

/-- An operator that is known comes to its operands only if there are data. -/
theorem exists_fault_ite {b : Bool} {answer : Except Fault Bool} :
    (∃ f, (if b then .ok false else answer) = .error f) ↔ b = false ∧ ∃ f, answer = .error f := by
  cases b <;> simp

/-- **FAULTS** of a comparison are those that the operators are specified to have. -/
theorem exists_fault_test {operator : Operator} :
    (∃ f, test operator actual literal = .error f) ↔ Impossible operator actual literal := by
  cases operator with
  | unknown name => exact iff_of_true ⟨_, rfl⟩ (.operator name actual literal)
  | isNull => exact iff_of_false nofun nofun
  | equals => exact exists_fault_ite.trans (iff_of_false nofun nofun)
  | notEquals => exact exists_fault_ite.trans (iff_of_false nofun nofun)
  | greaterThan =>
      refine exists_fault_ite.trans ?_
      rw [exists_fault_compareNumbers]
      exact ⟨fun h => .greater h.1 h.2, fun (.greater present h) => ⟨present, h⟩⟩
  | lessThan =>
      refine exists_fault_ite.trans ?_
      rw [exists_fault_compareNumbers]
      exact ⟨fun h => .less h.1 h.2, fun (.less present h) => ⟨present, h⟩⟩
  | inList =>
      refine exists_fault_ite.trans ?_
      rw [exists_fault_isMember]
      exact ⟨fun h => .members h.1 h.2, fun (.members present h) => ⟨present, h⟩⟩
  | between =>
      refine exists_fault_ite.trans ?_
      rw [exists_fault_isBetween]
      exact ⟨fun h => .range h.1 h.2, fun (.range present h) => ⟨present, h⟩⟩

/-- **ABSENT DATA** satisfy no known operator but the test for absence, whatever the literal is. -/
theorem test_null {operator : Operator} (known : ∀ name, operator ≠ .unknown name)
    (other : operator ≠ .isNull) (literal : Value) : test operator .null literal = .ok false := by
  cases operator with
  | isNull => exact absurd rfl other
  | unknown name => exact absurd rfl (known name)
  | _ => rfl

end Clause

/-! ## Clauses -/

/-- A clause stays, or it cannot be compared in a case and is exchanged for one whose comparison
comes out false. -/
inductive Clause.Repaired (aliases : List String) (c : Case) : Clause → Clause → Prop
  | keep (clause : Clause) : Clause.Repaired aliases c clause clause
  | exchange {clause clause' : Clause} {fault : Fault}
      (impossible : (clause.comparison aliases c).outcome = .error fault)
      (fails : (clause'.comparison aliases c).outcome = .ok false) :
      Clause.Repaired aliases c clause clause'

/-- Clauses are exchanged in the conditions of a rule, any number of them and at any depth, and
nothing else is. -/
structure Rule.Repaired (aliases : List String) (c : Case) (r r' : Rule) : Prop where
  conditions : r.Exchanged (Clause.Repaired aliases c) r'
  others : r' = { r with conditions := r'.conditions }

variable {aliases : List String} {c : Case}

/-- What a clause comes to in a case. -/
theorem Clause.holds_eq_verdictOf (clause : Clause) :
    clause.holds aliases c = verdictOf (clause.comparison aliases c).outcome := rfl

/-- A clause that cannot be compared counts as one that fails. -/
theorem Clause.Repaired.holds_eq {clause clause' : Clause}
    (h : clause.Repaired aliases c clause') : clause'.holds aliases c = clause.holds aliases c := by
  cases h with
  | keep => rfl
  | exchange impossible fails =>
      rw [Clause.holds_eq_verdictOf, Clause.holds_eq_verdictOf, impossible, fails]
      rfl

/-! ## Rules -/

/-- **ONE RULE** applies as before. -/
theorem Rule.Repaired.applies_eq {r r' : Rule} (h : r.Repaired aliases c r') :
    r'.applies aliases c = r.applies aliases c :=
  h.conditions.applies_eq fun _ _ hclause => hclause.holds_eq

/-- The rule is as before but for its conditions. -/
theorem Rule.Repaired.frame {r r' : Rule} (h : r.Repaired aliases c r') :
    r'.id = r.id ∧ r'.enabled = r.enabled ∧ r'.priority = r.priority ∧ r'.actions = r.actions := by
  rw [h.others]
  exact ⟨rfl, rfl, rfl, rfl⟩

namespace Engine

/-- The rules that apply are those that applied before, with clauses exchanged. -/
theorem appliedRules_of_repaired (engine : Engine) {rules rules' : List Rule}
    (h : List.Forall₂ (Rule.Repaired engine.aliases c) rules rules') :
    ∃ pairs : List (Rule × Rule), (∀ p ∈ pairs, p.1.Repaired engine.aliases c p.2) ∧
      engine.appliedRules rules c = pairs.map Prod.fst ∧
      engine.appliedRules rules' c = pairs.map Prod.snd := by
  obtain ⟨hlength, hzip⟩ := List.forall₂_iff_zip.mp h
  have hrepaired : ∀ p ∈ rules.zip rules', p.1.Repaired engine.aliases c p.2 := fun p hp => hzip hp
  obtain ⟨ordered, hperm, hfst, hsnd⟩ := Rule.inOrder_exchange (rules.zip rules') fun p hp =>
    (hrepaired p hp).frame.2.2.1.symm
  rw [List.map_fst_zip (Nat.le_of_eq hlength)] at hfst
  rw [List.map_snd_zip (Nat.le_of_eq hlength.symm)] at hsnd
  have hordered : ∀ p ∈ ordered, p.1.Repaired engine.aliases c p.2 :=
    fun p hp => hrepaired p (hperm.mem_iff.mp hp)
  refine ⟨(ordered.filter fun p => p.1.enabled).filter fun p => p.1.applies engine.aliases c,
    fun p hp => hordered p (List.mem_of_mem_filter (List.mem_of_mem_filter hp)), ?_, ?_⟩
  · rw [appliedRules, hfst, List.filter_map, List.filter_map]
    rfl
  · rw [appliedRules, hsnd, List.filter_map, List.filter_map]
    refine congrArg (List.map Prod.snd) ?_
    have henabled : ordered.filter ((·.enabled) ∘ Prod.snd) = ordered.filter fun p => p.1.enabled :=
      List.filter_congr fun p hp => (hordered p hp).frame.2.1
    rw [henabled]
    exact List.filter_congr fun p hp => (hordered p (List.mem_of_mem_filter hp)).applies_eq

/-- **ALL RULES** have the effect on a verdict that they had before. -/
theorem afterRules_of_repaired {policy : ScorePolicy} (v : Verdict) {pairs : List (Rule × Rule)}
    (h : ∀ p ∈ pairs, p.1.Repaired aliases c p.2) :
    v.afterRules policy (pairs.map Prod.snd) = v.afterRules policy (pairs.map Prod.fst) := by
  have hids : (pairs.map Prod.snd).map (·.id) = (pairs.map Prod.fst).map (·.id) := by
    rw [List.map_map, List.map_map]
    exact List.map_congr_left fun p hp => (h p hp).frame.1
  have hactions : (pairs.map Prod.snd).flatMap (·.actions)
      = (pairs.map Prod.fst).flatMap (·.actions) := by
    rw [List.flatMap_map, List.flatMap_map]
    exact List.flatMap_congr fun p hp => (h p hp).frame.2.2.2
  rw [Verdict.afterRules, Verdict.afterRules, hids, hactions]

/-- **CONFINEMENT.** A comparison has a fault exactly if the operator is unknown, or there are data
and the operator cannot do with the operands; absent data are no fault of a known operator and
satisfy none but the test for absence. A fault goes no further than its clause: if clauses of some
rules that cannot be compared in a case are exchanged for clauses that come out false there, the
case is decided as before. At most the trace differs. -/
theorem faults_confined :
    (∀ (operator : Operator) (actual literal : Value),
      (∃ f, Clause.test operator actual literal = .error f)
        ↔ Clause.Impossible operator actual literal) ∧
    (∀ (operator : Operator) (literal : Value), (∀ name, operator ≠ .unknown name) →
      operator ≠ .isNull → Clause.test operator .null literal = .ok false) ∧
    ∀ (engine : Engine) (policy : ScorePolicy) (c : Case) (rules rules' : List Rule),
      List.Forall₂ (Rule.Repaired engine.aliases c) rules rules' →
      (engine.decideUnder policy rules' c).verdict
        = { (engine.decideUnder policy rules c).verdict with
          trace := (engine.decideUnder policy rules' c).verdict.trace } := by
  refine ⟨fun _ _ _ => Clause.exists_fault_test, ?_, ?_⟩
  · intro operator literal known other
    exact Clause.test_null known other literal
  · intro engine policy c rules rules' h
    by_cases hne : rules = []
    · subst hne
      rw [List.forall₂_nil_left_iff.mp h]
    · have hne' : rules' ≠ [] := by
        rintro rfl
        exact hne (List.forall₂_nil_right_iff.mp h)
      obtain ⟨pairs, hpairs, hbefore, hafter⟩ := engine.appliedRules_of_repaired h
      rw [decideUnder_verdict engine policy hne, decideUnder_verdict engine policy hne', hbefore,
        hafter, afterRules_of_repaired _ hpairs]

/-- A country is compared by an operator that nobody knows, in a group inside the conditions, and by
one for numbers. Both clauses are exchanged, each for another one. -/
theorem faults_confined_country :
    let clause (operator : Operator) (literal : Value) : Condition :=
      .clause ⟨"preprocessed.country", operator, literal, none⟩
    let rule (first second : Condition) : Rule :=
      ⟨"R-COUNTRY", none, none, true, 1,
        some ⟨.or, [.group .and [clause .notEquals (.text "GB"), first], second]⟩,
        [Action.addFlag "ABROAD"]⟩
    let rules := [rule (clause (.unknown "SOUNDS_LIKE") .null) (clause .greaterThan (.number 3))]
    let rules' := [rule (clause .isNull .null) (clause .equals (.text "GB"))]
    let c : Case := ⟨.mk "Transfer" [], 0.5, [("country", .text "FR")], none⟩
    let engine : Engine := { tracing := true }
    ((∀ name, Operator.between ≠ .unknown name) ∧ Operator.between ≠ .isNull ∧
      Clause.test .between .null (.text "no bounds") = .ok false) ∧
    List.Forall₂ (Rule.Repaired engine.aliases c) rules rules' ∧
      (engine.decideUnder .unclamped rules' c).verdict
        = { (engine.decideUnder .unclamped rules c).verdict with
          trace := (engine.decideUnder .unclamped rules' c).verdict.trace } := by
  intro clause rule rules rules' c engine
  have hcountry : (c.resolve engine.aliases "preprocessed.country").value = .text "FR" := by
    rw [show "preprocessed.country" = Case.featureStart ++ "country" from rfl,
      Case.resolve_feature]
    rfl
  have outcome : ∀ (operator : Operator) (literal : Value),
      (Clause.comparison engine.aliases c ⟨"preprocessed.country", operator, literal, none⟩).outcome
        = Clause.test operator (.text "FR") literal := by
    intro operator literal
    rw [Clause.comparison, hcountry]
  have hknown : ∀ name, Operator.between ≠ .unknown name := nofun
  have hother : Operator.between ≠ .isNull := nofun
  have hrepaired : List.Forall₂ (Rule.Repaired engine.aliases c) rules rules' := by
    refine .cons ⟨.some (.group _ (.cons (.group _ (.cons (.clause (.keep _))
      (.cons (.clause ?_) .nil))) (.cons (.clause ?_) .nil))), rfl⟩ .nil
    · exact .exchange (outcome (.unknown "SOUNDS_LIKE") .null) (outcome .isNull .null)
    · exact .exchange (outcome .greaterThan (.number 3)) (outcome .equals (.text "GB"))
  obtain ⟨-, hnull, hdecided⟩ := faults_confined
  exact ⟨⟨hknown, hother, hnull _ _ hknown hother⟩, hrepaired,
    hdecided engine .unclamped c rules rules' hrepaired⟩

end Engine

end RiskDecision
