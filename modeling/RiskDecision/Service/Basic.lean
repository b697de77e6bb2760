import RiskDecision.Catalog.Bundle
import RiskDecision.Catalog.Store
import RiskDecision.Features.Derivation
import RiskDecision.Metrics.Recording
import RiskDecision.Service.Request
import RiskDecision.Service.Settings

/-!
# The decision service

The service holds the published catalogs and decides transactions by them. Once it is shut down
nothing is published any more, and every load and every decision fails for that reason before
anything else is looked at.
-/

namespace RiskDecision

/-- The state of a service. -/
structure Service where
  settings : Settings
  store : Store
  closed : Bool
  metrics : Metrics

namespace Service

/-- An operation on a service. It ends with a value or fails; what it changed before it failed stays
changed. -/
abbrev Operation (ε α : Type) := EStateM ε Service α

/-- The service after an operation, whether that failed or not. -/
def after {ε α : Type} (s : Service) (op : Operation ε α) : Service :=
  match op.run s with
  | .ok _ s => s
  | .error _ s => s

/-- A service without catalogs. -/
def start (settings : Settings) : Service := ⟨settings, .empty, false, []⟩

/-- How the service decides. -/
def engine (s : Service) : Engine :=
  { policy := .unclamped, aliases := s.settings.rootAliases, tracing := s.settings.tracing }

/-- The catalog as it is published: one without a policy gets that of its domain. -/
def withDomainPolicy (s : Service) (c : Catalog) : Catalog :=
  match c.policy, s.settings.policyFor? c.domain with
  | none, some policy => c.withPolicy policy
  | _, _ => c

/-- Withdraws the catalog of a domain from the store. -/
def remove (s : Service) (domain : String) : Service :=
  { s with store := s.store.remove domain }

/-- Shuts the service down and withdraws every catalog. -/
def shutdown (s : Service) : Service :=
  if s.closed then s else { s with closed := true, store := .empty }

/-- Fails once the service is shut down. -/
def ensureOpen : Operation Fault Unit := do
  if (← get).closed then throw .serviceClosed

/-- Adds to what is recorded. -/
def record (samples : Metrics) : Operation Fault Unit :=
  modify fun s => { s with metrics := s.metrics ++ samples }

/-- Publishes a catalog. A service that is shut down by then withdraws it again. -/
def publish (c : Catalog) : Operation Fault Unit := do
  modify fun s => { s with store := s.store.publish (s.withDomainPolicy c) }
  if (← get).closed then
    modify (·.remove c.domain.text)
    throw .serviceClosed

/-- Publishes a catalog with the report on its loading. -/
def publishReported (c : Catalog × LoadReport) : Operation Fault Unit := do
  record (Metrics.ofLoad c.2.domain c.2.loaded c.2.rejected.length)
  publish c.1

/-- Publishes catalogs with their reports one after the other. -/
def publishAll : List (Catalog × LoadReport) → Operation Fault Unit
  | [] => return
  | c :: rest => do
    publishReported c
    publishAll rest

/-- Loads a catalog that is there already. -/
def loadCatalog (c : Catalog) : Operation Fault Unit := do
  ensureOpen
  record (Metrics.ofLoad c.domain c.size 0)
  publish c

/-- Loads a catalog from a text. -/
def loadText (domain text : String) : Operation Fault LoadReport := do
  ensureOpen
  let c ← ofExcept (Catalog.ofText domain text)
  publishReported c
  return c.2

/-- Loads the catalogs of a configuration payload in their order. -/
def loadBundle (b : Bundle) : Operation Fault (List LoadReport) := do
  ensureOpen
  publishAll b.catalogs
  return b.catalogs.map Prod.snd

/-- Decides a case by the catalog of a domain. -/
def evaluateCase (domain : String) (c : Case) : Operation Fault Verdict := do
  ensureOpen
  let s ← get
  match s.store.get? domain with
  | none => throw (.domainNotInitialized domain)
  | some catalog =>
    let e := s.engine.decideByCatalog catalog c
    record (Metrics.ofEvaluation catalog.domain e)
    return e.verdict

/-- Decides a transaction of a domain. Without features of the caller they are derived. -/
def evaluateTransaction (domain : BusinessDomain) (t : Transaction) (score : Float)
    (features : Option Features) (clientContext : Option (Dictionary Json)) :
    Operation Fault Verdict := do
  ensureOpen
  if t.domain ≠ domain then throw (.domainMismatch domain t.domain)
  if !(← get).store.contains domain.name then throw (.domainNotInitialized domain.name)
  let features ← ofExcept (t.featuresOr features)
  evaluateCase domain.name ⟨t.view, score, features, clientContext⟩

/-- Decides the transaction of a request. -/
def evaluate (r : Request) : Operation Fault Verdict := do
  ensureOpen
  match BusinessDomain.ofText? r.domain with
  | none => throw (.unknownDomain r.domain)
  | some domain =>
    let t ← ofExcept (Transaction.ofJson domain r.transaction)
    evaluateTransaction domain t r.score r.features r.clientContext

end Service

end RiskDecision
