import RiskDecision.Engine

/-!
# Catalogs

A catalog is the list of rules of one domain, in the order in which they apply. It may bring a score
policy of its own, which then replaces that of the engine.
-/

namespace RiskDecision

/-- The rules of a domain. -/
structure Catalog where
  domain : DomainName
  rules : List Rule
  policy : Option ScorePolicy
  sorted : rules.Pairwise fun r s => r.priority ≤ s.priority

namespace Catalog

/-- The catalog of rules given in any order; those of one priority keep their order. -/
def ofRules (domain : String) (rules : List Rule) : Catalog :=
  ⟨.ofText domain, Rule.inOrder rules, none, Rule.inOrder_sorted rules⟩

/-- The catalog without rules. -/
def empty (domain : String) : Catalog := ofRules domain []

/-- The catalog with a score policy of its own. -/
def withPolicy (c : Catalog) (policy : ScorePolicy) : Catalog := { c with policy := some policy }

/-- The number of rules. -/
def size (c : Catalog) : Nat := c.rules.length

/-- The number of enabled rules. -/
def enabledCount (c : Catalog) : Nat := c.rules.countP (·.enabled)

/-- The fields that the rules read, each once, in ascending order. -/
def referencedFields (c : Catalog) : List String :=
  (Dictionary.ofList ((c.rules.flatMap Rule.fields).map fun f => (f, ()))).map Prod.fst

end Catalog

/-- Decides a case by a catalog. -/
def Engine.decideByCatalog (engine : Engine) (catalog : Catalog) (c : Case) : Evaluation :=
  engine.decideUnder (catalog.policy.getD engine.policy) catalog.rules c

end RiskDecision
