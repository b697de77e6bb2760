/-!
# Metrics

What the service counts. A series is a metric with values for its labels. Recording appends samples
to a log; the value of a series is what its samples amount to: the sum of the increments of a
counter, the last level of a gauge, the number of observations of a histogram.
-/

namespace RiskDecision

/-- What is measured. -/
inductive Metric
  | evaluations
  | evaluationDuration
  | ruleTriggers
  | evaluationErrors
  | catalogLoads
  | rejectedRules
  | catalogRules
  deriving Repr, DecidableEq

namespace Metric

/-- How the samples of a metric add up. -/
inductive Kind
  | counter
  | gauge
  | histogram
  deriving Repr, DecidableEq

/-- The name of a kind. -/
def Kind.name : Kind → String
  | .counter => "counter"
  | .gauge => "gauge"
  | .histogram => "histogram"

/-- All metrics. -/
def all : List Metric :=
  [.evaluations, .evaluationDuration, .ruleTriggers, .evaluationErrors, .catalogLoads,
    .rejectedRules, .catalogRules]

/-- The name of a metric. -/
def name : Metric → String
  | .evaluations => "decision_evaluations_total"
  | .evaluationDuration => "decision_evaluation_duration_seconds"
  | .ruleTriggers => "rule_triggers_total"
  | .evaluationErrors => "rule_evaluation_errors_total"
  | .catalogLoads => "catalog_loads_total"
  | .rejectedRules => "catalog_rules_rejected_total"
  | .catalogRules => "catalog_rules"

/-- The kind of a metric. -/
def kind : Metric → Kind
  | .evaluationDuration => .histogram
  | .catalogRules => .gauge
  | _ => .counter

/-- What a metric says. -/
def description : Metric → String
  | .evaluations => "Total number of transaction decisions"
  | .evaluationDuration => "Rule catalog evaluation duration in seconds"
  | .ruleTriggers => "Total number of matched rules"
  | .evaluationErrors => "Clause and action errors swallowed during evaluation"
  | .catalogLoads => "Total number of catalog publications"
  | .rejectedRules => "Malformed rules excluded at catalog load"
  | .catalogRules => "Rules in the currently published catalog"

end Metric

/-- A metric with values for its labels. -/
structure Series where
  metric : Metric
  labels : List (String × String)
  deriving Repr, DecidableEq

/-- The text of a series. -/
def Series.text (s : Series) : String :=
  s.metric.name ++ "\x7b" ++ ",".intercalate (s.labels.map fun l => l.1 ++ "=" ++ l.2) ++ "\x7d"

/-- A recorded amount: an increment, a level, or one observation. -/
structure Sample where
  series : Series
  amount : Nat
  deriving Repr, DecidableEq

/-- The samples in the order in which they were recorded. -/
abbrev Metrics := List Sample

namespace Metrics

/-- The value of a series after one more sample of it. -/
def combine (kind : Metric.Kind) (value amount : Nat) : Nat :=
  match kind with
  | .counter => value + amount
  | .gauge => amount
  | .histogram => value + 1

/-- The value of a series. -/
def value (m : Metrics) (s : Series) : Nat :=
  m.foldl (fun v sample => if sample.series = s then combine s.metric.kind v sample.amount else v) 0

/-- The series that were recorded, each once, in ascending order of their texts. -/
def series (m : Metrics) : List Series :=
  (m.map (·.series)).eraseDups.mergeSort fun a b => a.text ≤ b.text

/-- The recorded series with their values. -/
def snapshot (m : Metrics) : List (Series × Nat) := m.series.map fun s => (s, m.value s)

end Metrics

end RiskDecision
