import Mathlib.Logic.Basic
import RiskDecision.Metrics.Recording

/-!
# Levels

The value of a gauge is its last sample, whatever other samples come after that, so what a gauge
says after several recordings is what it says after the last one that touched it. The one gauge of
the service is touched by the publication of a catalog and not by decisions.
-/

namespace RiskDecision.Metrics

/-- The gauge of the rules of a domain. -/
def rules (domain : String) : Series := ⟨.catalogRules, [("domain", domain)]⟩

/-- The last amount that was recorded of a series. -/
def last? (m : Metrics) (x : Series) : Option Nat :=
  ((m.filter fun sample => sample.series = x).map Sample.amount).getLast?

variable {x : Series}

@[simp] theorem last?_nil : last? [] x = none := rfl

/-- **THE LATER SAMPLES WIN**, unless there are none of the series among them. -/
theorem last?_append (m n : Metrics) : (m ++ n).last? x = (n.last? x).or (m.last? x) := by
  simp only [last?, List.filter_append, List.map_append, List.getLast?_append]

theorem last?_cons (sample : Sample) (m : Metrics) :
    last? (sample :: m) x
      = (m.last? x).or (if sample.series = x then some sample.amount else none) := by
  rw [← List.singleton_append, last?_append]
  by_cases h : sample.series = x <;> simp [last?, h]

/-- A series was recorded if it has a last sample. -/
theorem mem_series_iff {m : Metrics} : x ∈ m.series ↔ (m.last? x).isSome = true := by
  rw [series, List.mem_mergeSort, List.mem_eraseDups, last?, Option.isSome_iff_ne_none,
    List.getLast?_eq_none_iff.ne]
  simp

/-- The value of a gauge is its last sample. -/
theorem value_eq_last? (gauge : x.metric.kind = .gauge) (m : Metrics) :
    m.value x = (m.last? x).getD 0 := by
  have hfold : ∀ n : Nat, m.foldl (fun v sample =>
      if sample.series = x then combine x.metric.kind v sample.amount else v) n
        = (m.last? x).getD n := by
    induction m with
    | nil => intro n; rfl
    | cons sample rest ih =>
        intro n
        rw [List.foldl_cons, ih, last?_cons, gauge]
        cases last? rest x with
        | some amount => rfl
        | none => split <;> rfl
  exact hfold 0

/-- A publication touches the gauge of its domain. -/
theorem last?_ofLoad (domain : DomainName) (loaded rejections : Nat) (d : String) :
    (ofLoad domain loaded rejections).last? (rules d)
      = if domain.text = d then some loaded else none := by
  simp [ofLoad, one, rules, last?_cons]

/-- A decision touches no gauge. -/
theorem last?_ofEvaluation (domain : DomainName) (e : Evaluation) (d : String) :
    (ofEvaluation domain e).last? (rules d) = none := by
  have hother : ∀ sample ∈ ofEvaluation domain e, sample.series ≠ rules d := by
    simp [ofEvaluation, ofFaults, one, rules, or_imp, forall_and]
  rw [last?, List.filter_eq_nil_iff.mpr (by simpa using hother)]
  rfl

end RiskDecision.Metrics
