import Mathlib.Algebra.GroupWithZero.Nat
import Mathlib.Logic.Basic
import RiskDecision.Metrics.Recording

/-!
# Adding up samples

The value of a counter is the sum of its samples, whatever other samples lie between them, so what
counters say after several recordings is the sum of what they say after each. For each counter of
the service it is said here how much a published catalog and a decision add to it; what is not
mentioned in its labels adds nothing.
-/

namespace RiskDecision.Metrics

/-! ## The counters of the service -/

/-- Decisions for a domain that came out in one way. -/
def evaluations (domain decision : String) : Series :=
  ⟨.evaluations, [("domain", domain), ("decision", decision)]⟩

/-- Applications of a rule of a domain. -/
def triggers (domain ruleId : String) : Series :=
  ⟨.ruleTriggers, [("domain", domain), ("rule_id", ruleId)]⟩

/-- Faults that were swallowed at a stage. -/
def errors (stage : String) : Series := ⟨.evaluationErrors, [("stage", stage)]⟩

/-- Publications for a domain. -/
def loads (domain : String) : Series := ⟨.catalogLoads, [("domain", domain)]⟩

/-- Entries that were rejected in publications for a domain. -/
def rejected (domain : String) : Series := ⟨.rejectedRules, [("domain", domain)]⟩

/-! ## Sums -/

/-- The sum of the samples of a series. -/
def total (m : Metrics) (x : Series) : Nat :=
  ((m.filter fun sample => sample.series = x).map Sample.amount).sum

variable {x : Series}

@[simp] theorem total_nil : total [] x = 0 := rfl

theorem total_cons (sample : Sample) (m : Metrics) :
    total (sample :: m) x = (if sample.series = x then sample.amount else 0) + m.total x := by
  by_cases h : sample.series = x <;> simp [total, h]

@[simp] theorem total_append (m n : Metrics) : total (m ++ n) x = m.total x + n.total x := by
  simp only [total, List.filter_append, List.map_append, List.sum_append]

theorem total_flatMap {α : Type} (f : α → Metrics) (l : List α) :
    total (l.flatMap f) x = (l.map fun a => (f a).total x).sum := by
  induction l with
  | nil => rfl
  | cons a rest ih => rw [List.flatMap_cons, total_append, ih, List.map_cons, List.sum_cons]

/-- The value of a counter is the sum of its samples. -/
theorem value_eq_total (counter : x.metric.kind = .counter) (m : Metrics) :
    m.value x = m.total x := by
  have hfold : ∀ n : Nat, m.foldl (fun v sample =>
      if sample.series = x then combine x.metric.kind v sample.amount else v) n
        = n + m.total x := by
    induction m with
    | nil => intro n; rfl
    | cons sample rest ih =>
        intro n
        rw [List.foldl_cons, ih, total_cons, counter]
        split
        · exact Nat.add_assoc _ _ _
        · rw [Nat.zero_add]
  exact (hfold 0).trans (Nat.zero_add _)

/-- An increment counts for its own series. -/
theorem total_one_cons (metric : Metric) (labels : List (String × String)) (m : Metrics) :
    total (one metric labels :: m) x
      = (if ⟨metric, labels⟩ = x then 1 else 0) + m.total x := total_cons _ _

/-- Increments of one metric are counted by their labels. -/
theorem total_map_one {α : Type} (metric : Metric) (labels : α → List (String × String))
    (l : List α) :
    total (l.map fun a => one metric (labels a)) x
      = l.countP fun a => (⟨metric, labels a⟩ : Series) = x := by
  induction l with
  | nil => rfl
  | cons a rest ih =>
      rw [List.map_cons, total_one_cons, ih]
      by_cases h : (⟨metric, labels a⟩ : Series) = x <;> simp [h, Nat.add_comm]

/-! ## What is recorded -/

theorem errors_ofFaults (stage stage' : String) (faults : List Fault) :
    (ofFaults stage faults).total (errors stage')
      = if stage = stage' then faults.length else 0 := by
  rw [ofFaults, total_map_one]
  by_cases h : stage = stage' <;> simp [errors, h]

/-- Faults do not show in the other counters. -/
theorem total_ofFaults_other {metric : Metric} (h : metric ≠ .evaluationErrors)
    (labels : List (String × String)) (stage : String) (faults : List Fault) :
    (ofFaults stage faults).total ⟨metric, labels⟩ = 0 := by
  rw [ofFaults, total_map_one]
  simp [h.symm]

section

variable (domain : DomainName) (loaded rejections : Nat)

theorem loads_ofLoad (d : String) :
    (ofLoad domain loaded rejections).total (loads d) = if domain.text = d then 1 else 0 := by
  simp [ofLoad, one, loads, total_cons]

theorem rejected_ofLoad (d : String) :
    (ofLoad domain loaded rejections).total (rejected d)
      = if domain.text = d then rejections else 0 := by
  simp [ofLoad, one, rejected, total_cons]

/-- A published catalog shows in no other counter. -/
theorem total_ofLoad_other {metric : Metric} (labels : List (String × String))
    (hloads : metric ≠ .catalogLoads) (hrejected : metric ≠ .rejectedRules)
    (hrules : metric ≠ .catalogRules) :
    (ofLoad domain loaded rejections).total ⟨metric, labels⟩ = 0 := by
  simp [ofLoad, one, total_cons, hloads.symm, hrejected.symm, hrules.symm]

end

section

variable (domain : DomainName) (e : Evaluation)

theorem evaluations_ofEvaluation (d x : String) :
    (ofEvaluation domain e).total (evaluations d x)
      = if domain.text = d ∧ e.verdict.decision.getD "" = x then 1 else 0 := by
  simp [ofEvaluation, evaluations, total_ofFaults_other, total_map_one, total_one_cons]

theorem triggers_ofEvaluation (d r : String) :
    (ofEvaluation domain e).total (triggers d r)
      = if domain.text = d then e.verdict.triggered.count r else 0 := by
  by_cases h : domain.text = d <;>
    simp [ofEvaluation, triggers, total_ofFaults_other, total_map_one, total_one_cons, h,
      List.count_eq_countP, beq_eq_decide]

/-- The faults of both stages are counted apart. -/
theorem errors_ofEvaluation (stage : String) :
    (ofEvaluation domain e).total (errors stage)
      = (if "clause" = stage then e.clauseFaults.length else 0)
        + (if "action" = stage then e.actionFaults.length else 0) := by
  simp only [ofEvaluation, total_append, errors_ofFaults]
  simp [errors, total_map_one, total_one_cons]

/-- A decision shows in no other counter. -/
theorem total_ofEvaluation_other {metric : Metric} (labels : List (String × String))
    (herrors : metric ≠ .evaluationErrors) (hevaluations : metric ≠ .evaluations)
    (hduration : metric ≠ .evaluationDuration) (htriggers : metric ≠ .ruleTriggers) :
    (ofEvaluation domain e).total ⟨metric, labels⟩ = 0 := by
  simp [ofEvaluation, total_ofFaults_other herrors, total_one_cons, total_map_one,
    hevaluations.symm, hduration.symm, htriggers.symm]

end

/-! ## Names -/

/-- A sample that is about a domain has its normal name. -/
def Normal (sample : Sample) : Prop :=
  ∀ d, ("domain", d) ∈ sample.series.labels → Text.normalize d = d

theorem normal_ofLoad (domain : DomainName) (loaded rejections : Nat) :
    ∀ sample ∈ ofLoad domain loaded rejections, Normal sample := by
  simp [ofLoad, one, Normal, domain.normal]

theorem normal_ofEvaluation (domain : DomainName) (e : Evaluation) :
    ∀ sample ∈ ofEvaluation domain e, Normal sample := by
  simp [ofEvaluation, ofFaults, one, Normal, domain.normal, or_imp, forall_and]

end RiskDecision.Metrics
