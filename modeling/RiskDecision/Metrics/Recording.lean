import RiskDecision.Catalog.Load
import RiskDecision.Metrics.Basic

/-!
# What is recorded

A published catalog is counted for its domain together with the entries that were rejected, and sets
the number of rules of the domain. A decision is counted by domain and decision, every rule that
applied by domain and rule, and every fault that was swallowed on the way by the stage where it
arose.
-/

namespace RiskDecision.Metrics

/-- One increment of a counter. -/
def one (metric : Metric) (labels : List (String × String)) : Sample := ⟨⟨metric, labels⟩, 1⟩

/-- The samples for a catalog that is published. -/
def ofLoad (domain : DomainName) (loaded rejected : Nat) : Metrics :=
  let labels := [("domain", domain.text)]
  [one .catalogLoads labels, ⟨⟨.rejectedRules, labels⟩, rejected⟩,
    ⟨⟨.catalogRules, labels⟩, loaded⟩]

/-- The samples for faults that were swallowed at a stage. -/
def ofFaults (stage : String) (faults : List Fault) : Metrics :=
  faults.map fun _ => one .evaluationErrors [("stage", stage)]

/-- The samples for a decision by the catalog of a domain. -/
def ofEvaluation (domain : DomainName) (e : Evaluation) : Metrics :=
  ofFaults "clause" e.clauseFaults ++ ofFaults "action" e.actionFaults ++
    [one .evaluations [("domain", domain.text), ("decision", e.verdict.decision.getD "")],
      one .evaluationDuration [("domain", domain.text)]] ++
    e.verdict.triggered.map fun id =>
      one .ruleTriggers [("domain", domain.text), ("rule_id", id)]

end RiskDecision.Metrics
