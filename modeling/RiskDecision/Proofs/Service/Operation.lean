import Mathlib
import RiskDecision.Proofs.Catalog.Store
import RiskDecision.Proofs.Features.Names
import RiskDecision.Service.Files

/-!
# What the operations of a service do

One statement for each operation says all that it can do to an open service: a load publishes
catalogs, an evaluation decides by a published one, and what fails changes nothing. An operation on
a service that is shut down fails before it does anything else (`run_ensureOpen_bind_of_closed`).
Whatever is proved of runs of a service rests on these statements; no other file opens an operation.
-/

namespace RiskDecision.Service

variable {ε α β : Type} {s : Service}

/-- A step that depends on nothing but its input. -/
@[simp] theorem run_ofExcept (x : Except ε α) :
    (ofExcept x : Operation ε α).run s
      = match x with
        | .ok a => .ok a s
        | .error e => .error e s := by
  cases x <;> rfl

/-- What is done about a failure starts from the state that the failure left. -/
@[simp] theorem run_tryCatch (op : Operation ε α) (handler : ε → Operation ε α) :
    (tryCatch op handler).run s
      = match op.run s with
        | .ok a s => .ok a s
        | .error e s => (handler e).run s := by
  rw [EStateM.run_tryCatch]
  cases op.run s <;> rfl

/-- A policy changes nothing about the domain of a catalog. -/
@[simp] theorem domain_withDomainPolicy (s : Service) (c : Catalog) :
    (s.withDomainPolicy c).domain = c.domain := by
  rw [withDomainPolicy]
  split <;> rfl

/-- Nor about its rules. -/
@[simp] theorem rules_withDomainPolicy (s : Service) (c : Catalog) :
    (s.withDomainPolicy c).rules = c.rules := by
  rw [withDomainPolicy]
  split <;> rfl

/-- A policy that a catalog brings itself stays. -/
theorem policy_withDomainPolicy (s : Service) (c : Catalog) :
    (s.withDomainPolicy c).policy = c.policy.or (s.settings.policyFor? c.domain) := by
  obtain ⟨domain, rules, policy, sorted⟩ := c
  rw [withDomainPolicy]
  dsimp only
  cases policy <;> cases s.settings.policyFor? domain <;> rfl

/-! ## Services that are shut down -/

/-- **CLOSED**: what starts by asking whether the service is open ends there. -/
theorem run_ensureOpen_bind_of_closed (closed : s.closed = true)
    (next : Unit → Operation Fault α) :
    (ensureOpen >>= next).run s = .error .serviceClosed s := by
  simp [ensureOpen, closed]

/-- A catalog that is published although the service was shut down is withdrawn again. -/
theorem run_publish_of_closed (closed : s.closed = true) (emptied : s.store = .empty)
    (c : Catalog) : (publish c).run s = .error .serviceClosed s := by
  have hstore : (s.store.publish (s.withDomainPolicy c)).remove c.domain.text = s.store := by
    rw [emptied, ← domain_withDomainPolicy s c, Store.remove_publish_empty]
  have hremove : (s.store.publish (s.withDomainPolicy c)).remove c.domain.text = s.store →
      (publish c).run s = .error .serviceClosed s := by
    intro h
    simp only [publish, EStateM.run_bind, EStateM.run_modify, EStateM.run_get, closed, if_true,
      EStateM.run_throw, remove, h]
    rw [← closed]
  exact hremove hstore

theorem run_loadFile_of_closed (closed : s.closed = true) (name : String) (entry : Option Entry) :
    ∃ f, (loadFile name entry).run s = .error f s := by
  rw [loadFile]
  split
  · exact ⟨_, rfl⟩
  · refine ⟨.fault .serviceClosed, ?_⟩
    rw [EStateM.run_adaptExcept, loadText, run_ensureOpen_bind_of_closed closed]

/-- A directory that can be read is gone through, but no file of it is loaded. -/
theorem run_loadFiles_of_closed (closed : s.closed = true) (files : List (String × Entry)) :
    (loadFiles files).run s = .ok [] s := by
  induction files with
  | nil => rfl
  | cons e rest ih =>
      obtain ⟨f, hf⟩ := run_loadFile_of_closed closed e.1 (some e.2)
      simp only [loadFiles, EStateM.run_bind, run_tryCatch, EStateM.run_map, hf,
        EStateM.Result.map, EStateM.run_pure, ih]
      rfl

/-! ## Publishing -/

/-- The service with a catalog published and its loading recorded. -/
def withCatalog (s : Service) (c : Catalog × LoadReport) : Service :=
  { s with
    store := s.store.publish (s.withDomainPolicy c.1)
    metrics := s.metrics ++ Metrics.ofLoad c.2.domain c.2.loaded c.2.rejected.length }

/-- The service with catalogs published one after the other. -/
def withCatalogs (s : Service) (cs : List (Catalog × LoadReport)) : Service :=
  cs.foldl withCatalog s

/-- The service with more recorded. -/
def withSamples (s : Service) (samples : Metrics) : Service :=
  { s with metrics := s.metrics ++ samples }

@[simp] theorem withSamples_nil (s : Service) : s.withSamples [] = s := by
  rw [withSamples, List.append_nil]

@[simp] theorem settings_withCatalogs (s : Service) (cs : List (Catalog × LoadReport)) :
    (s.withCatalogs cs).settings = s.settings := by
  induction cs generalizing s with
  | nil => rfl
  | cons c rest ih => exact ih (s.withCatalog c)

@[simp] theorem closed_withCatalogs (s : Service) (cs : List (Catalog × LoadReport)) :
    (s.withCatalogs cs).closed = s.closed := by
  induction cs generalizing s with
  | nil => rfl
  | cons c rest ih => exact ih (s.withCatalog c)

/-- The policies that are given to catalogs depend on the settings only. -/
theorem store_withCatalogs (s : Service) (cs : List (Catalog × LoadReport)) :
    (s.withCatalogs cs).store
      = s.store.publishEach (cs.map fun c => s.withDomainPolicy c.1) := by
  induction cs generalizing s with
  | nil => rfl
  | cons c rest ih => exact ih (s.withCatalog c)

theorem run_publishReported (isOpen : s.closed = false) (c : Catalog × LoadReport) :
    (publishReported c).run s = .ok () (s.withCatalog c) := by
  obtain ⟨settings, store, closed, metrics⟩ := s
  obtain rfl : closed = false := isOpen
  rfl

theorem run_publishAll (isOpen : s.closed = false) (cs : List (Catalog × LoadReport)) :
    (publishAll cs).run s = .ok () (s.withCatalogs cs) := by
  induction cs generalizing s with
  | nil => rfl
  | cons c rest ih =>
      rw [publishAll, EStateM.run_bind, run_publishReported isOpen]
      exact ih isOpen

/-! ## Loads by an open service -/

/-- The question whether the service is open does not hold anything up. -/
theorem run_ensureOpen_bind (isOpen : s.closed = false) (next : Unit → Operation Fault α) :
    (ensureOpen >>= next).run s = (next ()).run s := by
  simp [ensureOpen, isOpen]

/-- The report on a catalog that was not read from anything. -/
def reportOf (c : Catalog) : LoadReport := ⟨c.domain, c.size, []⟩

theorem run_loadCatalog (isOpen : s.closed = false) (c : Catalog) :
    (loadCatalog c).run s = .ok () (s.withCatalog (c, reportOf c)) := by
  rw [loadCatalog, run_ensureOpen_bind isOpen]
  exact run_publishReported isOpen (c, reportOf c)

/-- How a load ends whose source may have a catalog or none. -/
def loaded (s : Service) :
    Except ε (Catalog × LoadReport) → EStateM.Result ε Service LoadReport
  | .ok c => .ok c.2 (s.withCatalog c)
  | .error f => .error f s

theorem run_loadText (isOpen : s.closed = false) (domain text : String) :
    (loadText domain text).run s = s.loaded (Catalog.ofText domain text) := by
  rw [loadText, run_ensureOpen_bind isOpen]
  cases h : Catalog.ofText domain text with
  | ok c => simp [run_publishReported isOpen, loaded]
  | error f => simp [loaded]

theorem run_loadBundle (isOpen : s.closed = false) (b : Bundle) :
    (loadBundle b).run s = .ok (b.catalogs.map Prod.snd) (s.withCatalogs b.catalogs) := by
  rw [loadBundle, run_ensureOpen_bind isOpen, EStateM.run_bind, run_publishAll isOpen]
  rfl

/-- The catalog of a file. -/
def catalogOfFile (name : String) (entry : Option Entry) :
    Except FileFault (Catalog × LoadReport) :=
  match entry.bind Entry.text? with
  | none => .error .unreadable
  | some text => (Catalog.ofText (Path.stem name) text).mapError .fault

theorem run_loadFile (isOpen : s.closed = false) (name : String) (entry : Option Entry) :
    (loadFile name entry).run s = s.loaded (catalogOfFile name entry) := by
  rw [loadFile, catalogOfFile]
  cases entry.bind Entry.text? with
  | none => rfl
  | some text =>
      simp only [EStateM.run_adaptExcept, run_loadText isOpen]
      cases Catalog.ofText (Path.stem name) text <;> rfl

/-- The catalogs of those files that have one. -/
def catalogsOfFiles (files : List (String × Entry)) : List (Catalog × LoadReport) :=
  files.filterMap fun e => (catalogOfFile e.1 (some e.2)).toOption

theorem run_loadFiles (isOpen : s.closed = false) (files : List (String × Entry)) :
    (loadFiles files).run s
      = .ok ((catalogsOfFiles files).map Prod.snd) (s.withCatalogs (catalogsOfFiles files)) := by
  induction files generalizing s with
  | nil => rfl
  | cons e rest ih =>
      cases h : catalogOfFile e.1 (some e.2) with
      | ok c =>
          have hcons : catalogsOfFiles (e :: rest) = c :: catalogsOfFiles rest := by
            rw [catalogsOfFiles, List.filterMap_cons, h]
            rfl
          have hrest := ih (s := s.withCatalog c) isOpen
          simp only [loadFiles, EStateM.run_bind, run_tryCatch, EStateM.run_map,
            run_loadFile isOpen, h, loaded, EStateM.Result.map, hrest, EStateM.run_pure, hcons]
          rfl
      | error f =>
          have hcons : catalogsOfFiles (e :: rest) = catalogsOfFiles rest := by
            rw [catalogsOfFiles, List.filterMap_cons, h]
            rfl
          simp only [loadFiles, EStateM.run_bind, run_tryCatch, EStateM.run_map,
            run_loadFile isOpen, h, loaded, EStateM.Result.map, EStateM.run_pure, ih isOpen, hcons]
          rfl

/-- The catalogs of a directory. -/
def catalogsOfDirectory (directory : Option Entry) : List (Catalog × LoadReport) :=
  match directory.bind Entry.entries? with
  | none => []
  | some entries => catalogsOfFiles (catalogFiles entries)

/-! ## Evaluations by an open service -/

theorem run_evaluateCase (isOpen : s.closed = false) (domain : String) (c : Case) :
    (evaluateCase domain c).run s
      = match s.store.get? domain with
        | none => .error (.domainNotInitialized domain) s
        | some catalog =>
          .ok (s.engine.decideByCatalog catalog c).verdict
            (s.withSamples (Metrics.ofEvaluation catalog.domain
              (s.engine.decideByCatalog catalog c))) := by
  rw [evaluateCase, run_ensureOpen_bind isOpen, EStateM.run_bind, EStateM.run_get]
  dsimp only
  cases s.store.get? domain with
  | none => rfl
  | some catalog =>
      dsimp only
      rw [EStateM.run_bind]
      rfl

theorem run_evaluateTransaction (isOpen : s.closed = false) (domain : BusinessDomain)
    (t : Transaction) (score : Float) (features : Option Features)
    (clientContext : Option (Dictionary Json)) :
    (evaluateTransaction domain t score features clientContext).run s
      = if t.domain ≠ domain then .error (.domainMismatch domain t.domain) s
        else if !s.store.contains domain.name then .error (.domainNotInitialized domain.name) s
        else match t.featuresOr features with
          | .error f => .error f s
          | .ok features =>
            (evaluateCase domain.name ⟨t.view, score, features, clientContext⟩).run s := by
  rw [evaluateTransaction, run_ensureOpen_bind isOpen]
  by_cases hdomain : t.domain ≠ domain
  · rw [if_pos hdomain, if_pos hdomain]
    rfl
  · rw [if_neg hdomain, if_neg hdomain, EStateM.run_bind, EStateM.run_get]
    dsimp only
    by_cases hcatalog : (!s.store.contains domain.name) = true
    · rw [if_pos hcatalog, if_pos hcatalog]
      rfl
    · rw [if_neg hcatalog, if_neg hcatalog, EStateM.run_bind, run_ofExcept]
      cases t.featuresOr features <;> rfl

theorem run_evaluate (isOpen : s.closed = false) (r : Request) :
    (evaluate r).run s
      = match BusinessDomain.ofText? r.domain with
        | none => .error (.unknownDomain r.domain) s
        | some domain =>
          match Transaction.ofJson domain r.transaction with
          | .error f => .error f s
          | .ok t => (evaluateTransaction domain t r.score r.features r.clientContext).run s := by
  rw [evaluate, run_ensureOpen_bind isOpen]
  cases BusinessDomain.ofText? r.domain with
  | none => rfl
  | some domain =>
      dsimp only
      rw [EStateM.run_bind, run_ofExcept]
      cases Transaction.ofJson domain r.transaction <;> rfl

/-! ## What an evaluation can come to -/

/-- The case that a transaction makes, unless its features cannot be derived. -/
def caseOf? (t : Transaction) (score : Float) (features : Option Features)
    (clientContext : Option (Dictionary Json)) : Option Case :=
  (t.featuresOr features).toOption.map fun features => ⟨t.view, score, features, clientContext⟩

/-- The case that a request makes, unless there is no transaction of its domain in it. -/
def caseOfRequest? (r : Request) : Option Case :=
  (BusinessDomain.ofText? r.domain).bind fun domain =>
    (Transaction.ofJson domain r.transaction).toOption.bind fun t =>
      caseOf? t r.score r.features r.clientContext

/-- What an evaluation for a domain comes to: if there is a case it may be a verdict on that by the
catalog that is published for the domain, else it is a fault and no change. -/
inductive Evaluated (s : Service) (domain : String) :
    Option Case → EStateM.Result Fault Service Verdict → Prop
  | verdict {catalog : Catalog} (published : s.store.get? domain = some catalog) (c : Case) :
      Evaluated s domain (some c)
        (.ok (s.engine.decideByCatalog catalog c).verdict
          (s.withSamples (Metrics.ofEvaluation catalog.domain
            (s.engine.decideByCatalog catalog c))))
  | fault {given : Option Case} {f : Fault} (ne : f ≠ .serviceClosed) :
      Evaluated s domain given (.error f s)

namespace Evaluated

/-- The domain may be spelled in any way that finds the same catalog. -/
theorem respell {domain other : String} {given : Option Case}
    {result : EStateM.Result Fault Service Verdict} (h : Evaluated s domain given result)
    (same : s.store.get? domain = s.store.get? other) : Evaluated s other given result := by
  cases h with
  | verdict published c => exact .verdict (same ▸ published) c
  | fault ne => exact .fault ne

end Evaluated

theorem evaluated_evaluateCase (isOpen : s.closed = false) (domain : String) (c : Case) :
    Evaluated s domain (some c) ((evaluateCase domain c).run s) := by
  rw [run_evaluateCase isOpen]
  cases h : s.store.get? domain with
  | none => exact .fault (by simp)
  | some catalog => exact .verdict h c

/-- Features that cannot be derived are not the fault of a service that is shut down. -/
theorem ne_serviceClosed_of_featuresOr {t : Transaction} {given : Option Features} {f : Fault}
    (h : t.featuresOr given = .error f) : f ≠ .serviceClosed := by
  rintro rfl
  cases given with
  | some features => exact nomatch h
  | none =>
      have hf : t.features = .error .serviceClosed := h
      cases hcontext : t.contextView? with
      | none =>
          rw [Transaction.features_of_none hcontext] at hf
          exact nomatch hf
      | some v =>
          obtain ⟨features, hfeatures⟩ := Transaction.features_of_some hcontext
          rw [hfeatures] at hf
          exact nomatch hf

theorem evaluated_evaluateTransaction (isOpen : s.closed = false) (domain : BusinessDomain)
    (t : Transaction) (score : Float) (features : Option Features)
    (clientContext : Option (Dictionary Json)) :
    Evaluated s domain.name (caseOf? t score features clientContext)
      ((evaluateTransaction domain t score features clientContext).run s) := by
  rw [run_evaluateTransaction isOpen, caseOf?]
  split
  · exact .fault (by simp)
  · split
    · exact .fault (by simp)
    · cases hf : t.featuresOr features with
      | error f => exact .fault (ne_serviceClosed_of_featuresOr hf)
      | ok features =>
          exact evaluated_evaluateCase isOpen domain.name ⟨t.view, score, features, clientContext⟩

theorem ne_serviceClosed_of_ofJson {domain : BusinessDomain} {j : Json} {f : Fault}
    (h : Transaction.ofJson domain j = .error f) : f ≠ .serviceClosed := by
  rintro rfl
  rw [Transaction.ofJson] at h
  cases hd : Transaction.decode domain j with
  | ok t => rw [hd] at h; exact nomatch h
  | error e => rw [hd] at h; exact nomatch h

/-- A text names a business domain if it is a spelling of its name. -/
theorem ofText?_eq_some_iff {spelling : String} {domain : BusinessDomain} :
    BusinessDomain.ofText? spelling = some domain ↔ Text.normalize spelling = domain.name := by
  rw [BusinessDomain.ofText?]
  constructor
  · intro h
    split at h
    · cases h; assumption
    · cases h; assumption
    · cases h; assumption
    · exact nomatch h
  · intro h
    rw [h]
    cases domain <;> rfl

/-- A spelling of a business domain finds the catalog that its name finds. -/
theorem get?_name {spelling : String} {domain : BusinessDomain}
    (h : BusinessDomain.ofText? spelling = some domain) (store : Store) :
    store.get? domain.name = store.get? spelling := by
  rw [Store.get?, Store.get?, ← ofText?_eq_some_iff.mp h, Text.normalize_normalize]

theorem evaluated_evaluate (isOpen : s.closed = false) (r : Request) :
    Evaluated s r.domain (caseOfRequest? r) ((evaluate r).run s) := by
  rw [run_evaluate isOpen, caseOfRequest?]
  cases hd : BusinessDomain.ofText? r.domain with
  | none => exact .fault (by simp)
  | some domain =>
      rw [Option.bind_some]
      dsimp only
      cases ht : Transaction.ofJson domain r.transaction with
      | error f => exact .fault (ne_serviceClosed_of_ofJson ht)
      | ok t =>
          exact (evaluated_evaluateTransaction isOpen domain t _ _ _).respell
            (get?_name hd s.store)

end RiskDecision.Service
