import RiskDecision.Proofs.Catalog.Relevance
import RiskDecision.Proofs.Record.Json
import RiskDecision.Proofs.Service.History

/-!
# The ways to ask for a decision

A decision is asked for by a request, by a record or by a case. A request is decided as the record
that it holds, and a record as the case that it makes with its features. `Answered` says what a
request can come to, with every fault and the condition for it; the conditions exclude each other,
so they also say which fault comes first. The main statement, `entryPoints_afterEvents`, holds at
the end of every history that leaves the service open.
-/

namespace RiskDecision

/-- A request has no features exactly if they were absent or null in writing. -/
theorem Request.features_eq_none_iff {j : Json} {r : Request} {get : Json.Fields}
    (h : decode j = .ok r) (hget : j.fields fieldNames = .ok get) :
    r.features = none ↔ get "features" = none ∨ get "features" = some .null := by
  obtain ⟨get', hget', hr⟩ := Json.record_eq_ok h
  obtain rfl := Except.ok.inj (hget.symm.trans hget')
  obtain ⟨domain, -, hr⟩ := bind_eq_ok_iff.mp hr
  obtain ⟨transaction, -, hr⟩ := bind_eq_ok_iff.mp hr
  obtain ⟨score, -, hr⟩ := bind_eq_ok_iff.mp hr
  obtain ⟨features, hfeatures, hr⟩ := bind_eq_ok_iff.mp hr
  obtain ⟨clientContext, -, hr⟩ := bind_eq_ok_iff.mp hr
  cases hr
  rw [← Json.optional_eq_ok_none_iff, hfeatures]
  exact ⟨congrArg _, Except.ok.inj⟩

namespace Service

variable {s : Service} {writes : List Write}

/-- The service decides a case by a catalog: the verdict, and what is recorded about it. -/
def decidedBy (s : Service) (catalog : Catalog) (c : Case) : EStateM.Result Fault Service Verdict :=
  let e := s.engine.decideByCatalog catalog c
  .ok e.verdict (s.withSamples (Metrics.ofEvaluation catalog.domain e))

/-- What an open service answers to a request, given the writes that made its store. -/
inductive Answered (s : Service) (writes : List Write) (r : Request) :
    EStateM.Result Fault Service Verdict → Prop
  | unknownDomain (unknown : ∀ domain : BusinessDomain, Text.normalize r.domain ≠ domain.name) :
      Answered s writes r (.error (.unknownDomain r.domain) s)
  | undecodable {domain : BusinessDomain} (named : Text.normalize r.domain = domain.name)
      {e : DecodeError} (undecodable : Transaction.decode domain r.transaction = .error e) :
      Answered s writes r (.error (.jsonShape e) s)
  | notInitialized {domain : BusinessDomain} (named : Text.normalize r.domain = domain.name)
      {t : Transaction} (decoded : Transaction.decode domain r.transaction = .ok t)
      (withdrawn : ∀ c, ¬ InForce writes (.ofText domain.name) c) :
      Answered s writes r (.error (.domainNotInitialized domain.name) s)
  | underivable {domain : BusinessDomain} (named : Text.normalize r.domain = domain.name)
      {t : Transaction} (decoded : Transaction.decode domain r.transaction = .ok t)
      {catalog : Catalog} (inForce : InForce writes (.ofText domain.name) catalog)
      (absent : r.features = none) (noContext : t.contextView? = none) :
      Answered s writes r (.error (.missingClientContext domain) s)
  | decided {domain : BusinessDomain} (named : Text.normalize r.domain = domain.name)
      {t : Transaction} (decoded : Transaction.decode domain r.transaction = .ok t)
      {catalog : Catalog} (inForce : InForce writes (.ofText domain.name) catalog)
      {features : Features}
      (given : r.features = some features ∨ r.features = none ∧ t.features = .ok features) :
      Answered s writes r
        (s.decidedBy catalog ⟨t.view, r.score, features, r.clientContext⟩)

/-- The ways to ask for a decision agree with each other. -/
structure EntryPoints (s : Service) (writes : List Write) : Prop where
  answered : ∀ r, Answered s writes r ((evaluate r).run s)
  /-- A request is decided as the record in it, -/
  read : ∀ r domain t, Text.normalize r.domain = domain.name →
    Transaction.decode domain r.transaction = .ok t →
    (evaluate r).run s = (evaluateTransaction domain t r.score r.features r.clientContext).run s
  /-- which may have been written there, -/
  written : ∀ t spelling score features context, Text.normalize spelling = t.domain.name →
    (∀ x ∈ t.floats, x.isFinite = true) → (∀ n ∈ t.integers, Decimal.fitsSigned 64 n = true) →
    (evaluate ⟨spelling, t.toJson, score, features, context⟩).run s
      = (evaluateTransaction t.domain t score features context).run s
  /-- a record without features as the record with those that are derived from it, -/
  derived : ∀ domain t score features context, t.features = .ok features →
    (evaluateTransaction domain t score none context).run s
      = (evaluateTransaction domain t score (some features) context).run s
  /-- and a record with features as the case that they make. -/
  prepared : ∀ t score features context,
    (evaluateTransaction t.domain t score (some features) context).run s
      = (evaluateCase t.domain.name ⟨t.view, score, features, context⟩).run s
  /-- The context that the client sends along makes no difference. -/
  requestContext : ∀ r context,
    (evaluate { r with clientContext := context }).run s = (evaluate r).run s
  recordContext : ∀ domain t score features context,
    (evaluateTransaction domain t score features context).run s
      = (evaluateTransaction domain t score features none).run s
  caseContext : ∀ domain c context,
    (evaluateCase domain { c with clientContext := context }).run s = (evaluateCase domain c).run s

/-! ## Requests -/

theorem run_evaluate_of_decode (isOpen : s.closed = false) {r : Request} {domain : BusinessDomain}
    {t : Transaction} (named : Text.normalize r.domain = domain.name)
    (decoded : Transaction.decode domain r.transaction = .ok t) :
    (evaluate r).run s
      = (evaluateTransaction domain t r.score r.features r.clientContext).run s := by
  have hread : Transaction.ofJson domain r.transaction = .ok t := by
    rw [Transaction.ofJson, decoded]
    rfl
  rw [run_evaluate isOpen, ofText?_eq_some_iff.mpr named]
  dsimp only
  rw [hread]

/-- A record of its own domain is decided by the catalog of that, with the features that it has. -/
theorem run_evaluateTransaction_domain (isOpen : s.closed = false) (t : Transaction) (score : Float)
    (given : Option Features) (context : Option (Dictionary Json)) :
    (evaluateTransaction t.domain t score given context).run s
      = match s.store.get? t.domain.name with
        | none => .error (.domainNotInitialized t.domain.name) s
        | some catalog =>
          match t.featuresOr given with
          | .error f => .error f s
          | .ok features => s.decidedBy catalog ⟨t.view, score, features, context⟩ := by
  rw [run_evaluateTransaction isOpen, if_neg (not_not.mpr rfl), Store.contains]
  cases hfound : s.store.get? t.domain.name with
  | none => rfl
  | some catalog =>
      cases t.featuresOr given with
      | error f => rfl
      | ok features =>
          show (evaluateCase t.domain.name ⟨t.view, score, features, context⟩).run s = _
          rw [run_evaluateCase isOpen, hfound]
          rfl

/-- Requests whose record can be read. -/
theorem answered_of_decode (isOpen : s.closed = false)
    (reflects : ∀ spelling c, s.store.get? spelling = some c ↔
      InForce writes (.ofText spelling) c) {r : Request} {t : Transaction}
    (named : Text.normalize r.domain = t.domain.name)
    (decoded : Transaction.decode t.domain r.transaction = .ok t) :
    Answered s writes r ((evaluate r).run s) := by
  rw [run_evaluate_of_decode isOpen named decoded, run_evaluateTransaction_domain isOpen]
  cases hfound : s.store.get? t.domain.name with
  | none =>
      refine .notInitialized named decoded ?_
      intro c hc
      rw [(reflects _ c).mpr hc] at hfound
      exact nomatch hfound
  | some catalog =>
      have inForce := (reflects _ _).mp hfound
      cases hgiven : r.features with
      | some features => exact .decided named decoded inForce (Or.inl hgiven)
      | none =>
          rw [Transaction.featuresOr]
          cases hcontext : t.contextView? with
          | none =>
              rw [Transaction.features_of_none hcontext]
              exact .underivable named decoded inForce hgiven hcontext
          | some v =>
              obtain ⟨features, hfeatures⟩ := Transaction.features_of_some hcontext
              rw [hfeatures]
              exact .decided named decoded inForce (Or.inr ⟨hgiven, hfeatures⟩)

/-- **REQUESTS**: what an open service answers, if its store reflects the writes. -/
theorem answered_evaluate (isOpen : s.closed = false)
    (reflects : ∀ spelling c, s.store.get? spelling = some c ↔
      InForce writes (.ofText spelling) c) (r : Request) :
    Answered s writes r ((evaluate r).run s) := by
  cases hd : BusinessDomain.ofText? r.domain with
  | none =>
      rw [run_evaluate isOpen, hd]
      refine .unknownDomain ?_
      intro domain named
      rw [ofText?_eq_some_iff.mpr named] at hd
      exact nomatch hd
  | some domain =>
      have named := ofText?_eq_some_iff.mp hd
      cases ht : Transaction.decode domain r.transaction with
      | error e =>
          have hread : Transaction.ofJson domain r.transaction = .error (.jsonShape e) := by
            rw [Transaction.ofJson, ht]
            rfl
          rw [run_evaluate isOpen, hd]
          dsimp only
          rw [hread]
          exact .undecodable named ht
      | ok t =>
          obtain rfl := Transaction.domain_of_decode ht
          exact answered_of_decode isOpen reflects named ht

/-! ## Records -/

/-- A record that was written into a request is read back. -/
theorem run_evaluate_toJson (isOpen : s.closed = false) {t : Transaction}
    (floats : ∀ x ∈ t.floats, x.isFinite = true)
    (integers : ∀ n ∈ t.integers, Decimal.fitsSigned 64 n = true) {spelling : String}
    (named : Text.normalize spelling = t.domain.name) (score : Float) (features : Option Features)
    (context : Option (Dictionary Json)) :
    (evaluate ⟨spelling, t.toJson, score, features, context⟩).run s
      = (evaluateTransaction t.domain t score features context).run s :=
  run_evaluate_of_decode isOpen (r := ⟨spelling, t.toJson, score, features, context⟩) named
    (Transaction.decode_toJson floats integers)

theorem run_evaluateTransaction_derived (isOpen : s.closed = false) (domain : BusinessDomain)
    {t : Transaction} {features : Features} (derived : t.features = .ok features) (score : Float)
    (context : Option (Dictionary Json)) :
    (evaluateTransaction domain t score none context).run s
      = (evaluateTransaction domain t score (some features) context).run s := by
  rw [run_evaluateTransaction isOpen, run_evaluateTransaction isOpen, Transaction.featuresOr,
    Transaction.featuresOr, derived]

theorem run_evaluateTransaction_prepared (isOpen : s.closed = false) (t : Transaction)
    (score : Float) (features : Features) (context : Option (Dictionary Json)) :
    (evaluateTransaction t.domain t score (some features) context).run s
      = (evaluateCase t.domain.name ⟨t.view, score, features, context⟩).run s := by
  rw [run_evaluateTransaction_domain isOpen, run_evaluateCase isOpen]
  rfl

/-! ## The context of the client -/

theorem run_evaluateCase_context (isOpen : s.closed = false) (domain : String) (c : Case)
    (context : Option (Dictionary Json)) :
    (evaluateCase domain { c with clientContext := context }).run s
      = (evaluateCase domain c).run s := by
  rw [run_evaluateCase isOpen, run_evaluateCase isOpen]
  cases s.store.get? domain with
  | none => rfl
  | some catalog =>
      have hcongr : s.engine.decideByCatalog catalog { c with clientContext := context }
          = s.engine.decideByCatalog catalog c :=
        s.engine.decideByCatalog_congr catalog rfl rfl
      simp only [hcongr]

theorem run_evaluateTransaction_context (isOpen : s.closed = false) (domain : BusinessDomain)
    (t : Transaction) (score : Float) (features : Option Features)
    (context : Option (Dictionary Json)) :
    (evaluateTransaction domain t score features context).run s
      = (evaluateTransaction domain t score features none).run s := by
  have hcase : ∀ features, (evaluateCase domain.name ⟨t.view, score, features, context⟩).run s
      = (evaluateCase domain.name ⟨t.view, score, features, none⟩).run s := fun features =>
    run_evaluateCase_context isOpen domain.name ⟨t.view, score, features, none⟩ context
  rw [run_evaluateTransaction isOpen, run_evaluateTransaction isOpen]
  simp only [hcase]

theorem run_evaluate_context (isOpen : s.closed = false) (r : Request)
    (context : Option (Dictionary Json)) :
    (evaluate { r with clientContext := context }).run s = (evaluate r).run s := by
  rw [run_evaluate isOpen, run_evaluate isOpen]
  dsimp only
  cases BusinessDomain.ofText? r.domain with
  | none => rfl
  | some domain =>
      dsimp only
      cases Transaction.ofJson domain r.transaction with
      | error f => rfl
      | ok t =>
          dsimp only
          rw [run_evaluateTransaction_context isOpen domain t r.score r.features context,
            run_evaluateTransaction_context isOpen domain t r.score r.features r.clientContext]

/-! ## Every history -/

/-- What an open service has whose store reflects the writes. -/
theorem entryPoints_of_open (isOpen : s.closed = false)
    (reflects : ∀ spelling c, s.store.get? spelling = some c ↔
      InForce writes (.ofText spelling) c) : s.EntryPoints writes where
  answered := answered_evaluate isOpen reflects
  read _ _ _ named decoded := run_evaluate_of_decode isOpen named decoded
  written _ _ score features context named floats integers :=
    run_evaluate_toJson isOpen floats integers named score features context
  derived domain _ score _ context derived :=
    run_evaluateTransaction_derived isOpen domain derived score context
  prepared := run_evaluateTransaction_prepared isOpen
  requestContext := run_evaluate_context isOpen
  recordContext := run_evaluateTransaction_context isOpen
  caseContext := run_evaluateCase_context isOpen

/-- After calls alone there is a catalog in force for a domain exactly if one was loaded for it. -/
theorem not_inForce_iff {settings : Settings} {calls : List Call}
    (isOpen : ((start settings).afterCalls calls).closed = false) (domain : DomainName) :
    (∀ c, ¬ InForce ((start settings).along Service.writes (calls.map .call)) domain c) ↔
      ∀ c ∈ Call.allLoads calls, c.domain ≠ domain := by
  have hfound := get?_afterEvents_start settings (calls.map .call) domain.text
  rw [DomainName.ofText_text, afterEvents_map_call, get?_afterCalls_start settings isOpen,
    DomainName.ofText_text] at hfound
  rw [← Catalog.lastOf?_eq_none_iff, ← Option.map_eq_none_iff, Option.eq_none_iff_forall_ne_some]
  exact forall_congr' fun c => not_congr (hfound c).symm

/-- **THE ENTRY POINTS AGREE.** At the end of every history of a fresh service that leaves it open,
a request comes to the first fault that applies, or to what the catalog in force makes of its record
with the features that were given or derived; requests, records and cases are decided alike, and the
context of the client plays no part. In a history of calls alone the domains with a catalog in force
are those for which one was loaded. -/
theorem entryPoints_afterEvents (settings : Settings) (events : List Event)
    (isOpen : ((start settings).afterEvents events).closed = false) :
    let writes := (start settings).along Service.writes events
    ((start settings).afterEvents events).EntryPoints writes ∧
      (∀ calls, events = calls.map .call → ∀ domain,
        (∀ c, ¬ InForce writes domain c) ↔ ∀ c ∈ Call.allLoads calls, c.domain ≠ domain) ∧
      ∀ (j : Json) (r : Request) (get : Json.Fields),
        Request.decode j = .ok r → j.fields Request.fieldNames = .ok get →
        (r.features = none ↔ get "features" = none ∨ get "features" = some .null) := by
  intro writes
  refine ⟨entryPoints_of_open isOpen (get?_afterEvents_start settings events), ?_,
    fun _ _ _ => Request.features_eq_none_iff⟩
  rintro calls rfl domain
  rw [afterEvents_map_call] at isOpen
  exact not_inForce_iff isOpen domain

/-- A catalog is loaded for the bank under an odd spelling, and one for orders is withdrawn again
behind the back of the service. A written bank transfer is decided as the transfer itself. -/
theorem entryPoints_afterEvents_bank :
    let settings : Settings := {}
    let bank := Catalog.ofRules " Bank" []
    let events : List Event :=
      [.call (.loadCatalog (.ofRules "ecommerce" [])), .call (.loadCatalog bank),
        .write (.remove "ECommerce ")]
    let s := (start settings).afterEvents events
    let transfer : Transaction := .bank { clientContext := some {} }
    let request : Request := ⟨"BANK", transfer.toJson, 0.5, none, some []⟩
    s.closed = false ∧ s.EntryPoints ((start settings).along Service.writes events) ∧
      (evaluate request).run s = (evaluateTransaction .bank transfer 0.5 none none).run s := by
  intro settings bank events s transfer request
  have isOpen : s.closed = false := rfl
  have points := (entryPoints_afterEvents settings events isOpen).1
  have floats : ∀ x ∈ transfer.floats, x.isFinite = true := by decide +kernel
  have integers : ∀ n ∈ transfer.integers, Decimal.fitsSigned 64 n = true := by decide
  refine ⟨isOpen, points, ?_⟩
  rw [points.written transfer "BANK" 0.5 none (some []) rfl floats integers]
  exact points.recordContext .bank transfer 0.5 none (some [])

end Service

end RiskDecision
