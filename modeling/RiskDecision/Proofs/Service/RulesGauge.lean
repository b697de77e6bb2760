import RiskDecision.Proofs.Metrics.Levels
import RiskDecision.Proofs.Service.Accounting

/-!
# The gauge of the rules in force

For every domain there is a gauge of the rules of its catalog. It is set when a catalog is published
and at no other time: what withdraws a catalog leaves it as it is. So at the end of a history the
gauge says how many rules the last published catalog of the domain has (`level_afterEvents`), which
is the truth exactly as long as a catalog of the domain is in force, or if the last one had no rules
(`rulesGauge_afterEvents`).
-/

namespace RiskDecision

/-- The number of rules that are in force for a domain. -/
def Store.rulesInForce (s : Store) (spelling : String) : Nat :=
  ((s.get? spelling).map Catalog.size).getD 0

namespace Service

/-- The event is a call that brings no payload that was not read, or a withdrawal. -/
def Event.Ordinary : Event → Prop
  | .call c => c.Read
  | .write w => w.catalog? = none

/-- The last level of the gauge of a domain. -/
def level? (s : Service) (domain : DomainName) : Option Nat :=
  s.metrics.last? (Metrics.rules domain.text)

variable {s : Service} {domain : DomainName}

/-! ## Publications -/

/-- What was read or built by the caller is reported in full. -/
theorem Call.Read.loaded {call : Call} (h : call.Read) {c : Catalog × LoadReport}
    (hc : c ∈ call.loads) : c.2.loaded = c.1.size := by
  rcases h.loads hc with ⟨-, hreport⟩ | ⟨domain, entries, rfl⟩
  · rw [hreport]
    rfl
  · exact (Rule.inOrder_perm _).length_eq.symm

theorem size_withDomainPolicy (s : Service) (c : Catalog) : (s.withDomainPolicy c).size = c.size := by
  rw [Catalog.size, rules_withDomainPolicy, Catalog.size]

/-- What an ordinary event publishes comes from a call, and its report is about it. -/
theorem report_of_publication {e : Event} (h : e.Ordinary) {p : Catalog × LoadReport}
    (hp : p ∈ s.publications e) : p.2.domain = p.1.domain ∧ p.2.loaded = p.1.size := by
  cases e with
  | write w => exact absurd hp List.not_mem_nil
  | call call =>
      rw [publications] at hp
      split at hp
      · exact absurd hp List.not_mem_nil
      · exact ⟨Call.Read.domain h hp, Call.Read.loaded h hp⟩

/-- The samples of publications leave the level of the last one. -/
theorem last?_publications {ps : List (Catalog × LoadReport)}
    (h : ∀ p ∈ ps, p.2.domain = p.1.domain ∧ p.2.loaded = p.1.size) (domain : DomainName) :
    Metrics.last? (ps.flatMap samplesOfPublication) (Metrics.rules domain.text)
      = (Catalog.lastOf? domain (ps.map Prod.fst)).map Catalog.size := by
  induction ps with
  | nil => rfl
  | cons p rest ih =>
      obtain ⟨⟨hdomain, hloaded⟩, hrest⟩ := List.forall_mem_cons.mp h
      have hname : p.1.domain.text = domain.text ↔ p.1.domain = domain :=
        ⟨DomainName.ext, congrArg _⟩
      rw [List.flatMap_cons, Metrics.last?_append, ih hrest, samplesOfPublication,
        Metrics.last?_ofLoad, hdomain, hloaded, List.map_cons, Catalog.lastOf?_cons]
      simp only [hname]
      split <;> cases Catalog.lastOf? domain (rest.map Prod.fst) <;> rfl

/-- Decisions leave no level. -/
theorem last?_decisions (engine : Engine) (ds : List (Catalog × Case)) (domain : DomainName) :
    Metrics.last? (ds.flatMap (samplesOfDecision engine)) (Metrics.rules domain.text) = none := by
  induction ds with
  | nil => rfl
  | cons d rest ih =>
      rw [List.flatMap_cons, Metrics.last?_append, ih]
      exact Metrics.last?_ofEvaluation _ _ _

/-! ## One event -/

/-- **ONE EVENT** sets the gauge if it publishes a catalog of the domain. -/
theorem level?_afterEvent {e : Event} (h : e.Ordinary) :
    (s.afterEvent e).level? domain
      = ((Catalog.lastOf? domain ((s.publications e).map Prod.fst)).map Catalog.size).or
          (s.level? domain) := by
  rw [level?, metrics_afterEvent, recorded, Metrics.last?_append, Metrics.last?_append,
    last?_decisions, Option.none_or, last?_publications fun p hp => report_of_publication h hp]
  rfl

/-- **INVARIANT**: the gauge of a domain with a catalog in force has the number of its rules. -/
def Gauged (s : Service) : Prop :=
  ∀ domain c, s.store.get? domain.text = some c → s.level? domain = some c.size

theorem gauged_start (settings : Settings) : (start settings).Gauged := by
  intro domain c hfound
  exact nomatch hfound

/-- **ONE EVENT** keeps the invariant. -/
theorem Gauged.afterEvent (gauged : s.Gauged) {e : Event} (h : e.Ordinary) :
    (s.afterEvent e).Gauged := by
  intro domain c hfound
  rw [level?_afterEvent h]
  cases e with
  | write w =>
      -- a withdrawal leaves a catalog only where it leaves everything
      have hstore : (s.store.perform w).2.get? domain.text = some c := hfound
      rw [Store.get?_perform, show w.catalog? = none from h] at hstore
      split at hstore
      · cases hstore
      · exact gauged domain c hstore
  | call call =>
      have hafter : (s.after call.operation).store.get? domain.text = some c := hfound
      rw [publications]
      cases hclosed : s.closed with
      | true =>
          rw [after_of_closed hclosed] at hafter
          exact gauged domain c hafter
      | false =>
          rw [if_neg Bool.false_ne_true]
          cases hshutdown : call.isShutdown with
          | true =>
              obtain rfl := Call.eq_shutdown hshutdown
              have hempty : (s.after Call.shutdown.operation).store = .empty := by
                rw [after_shutdown, shutdown, hclosed]
                rfl
              rw [hempty, Store.get?_empty] at hafter
              cases hafter
          | false =>
              rw [store_after_of_open hclosed hshutdown, Store.get?_publishEach,
                Catalog.lastOf?_map (domain_withDomainPolicy s), DomainName.ofText_text] at hafter
              cases hlast : Catalog.lastOf? domain (call.loads.map Prod.fst) with
              | none =>
                  rw [hlast] at hafter
                  exact gauged domain c hafter
              | some loaded =>
                  rw [hlast] at hafter
                  obtain rfl := Option.some.inj hafter
                  rw [size_withDomainPolicy]
                  rfl

/-! ## Histories -/

theorem Gauged.afterEvents (gauged : s.Gauged) {events : List Event}
    (h : ∀ e ∈ events, e.Ordinary) : (s.afterEvents events).Gauged := by
  induction events generalizing s with
  | nil => exact gauged
  | cons e rest ih =>
      obtain ⟨he, hrest⟩ := List.forall_mem_cons.mp h
      exact ih (gauged.afterEvent he) hrest

/-- **A HISTORY** leaves the gauge at the number of rules of its last publication. -/
theorem level?_afterEvents {events : List Event} (h : ∀ e ∈ events, e.Ordinary) :
    (s.afterEvents events).level? domain
      = ((Catalog.lastOf? domain ((s.along publications events).map Prod.fst)).map
          Catalog.size).or (s.level? domain) := by
  induction events generalizing s with
  | nil => rfl
  | cons e rest ih =>
      obtain ⟨he, hrest⟩ := List.forall_mem_cons.mp h
      show ((s.afterEvent e).afterEvents rest).level? domain = _
      rw [ih hrest, level?_afterEvent he, along, List.map_append, Catalog.lastOf?_append,
        ← Option.or_assoc]
      cases Catalog.lastOf? domain (((s.afterEvent e).along publications rest).map Prod.fst) <;> rfl

theorem value_rules (s : Service) (domain : DomainName) :
    s.metrics.value (Metrics.rules domain.text) = (s.level? domain).getD 0 :=
  Metrics.value_eq_last? rfl s.metrics

/-- **THE GAUGE OF THE RULES.** At the end of every history of a fresh service, a domain has a gauge
if a catalog was published for it, and the gauge says how many rules the last one has. So it says how
many rules are in force while a catalog is in force; once that is withdrawn, by itself or with the
service, it goes on saying what it said, which is wrong unless that was zero. -/
theorem rulesGauge_afterEvents (settings : Settings) {events : List Event}
    (ordinary : ∀ e ∈ events, e.Ordinary) (domain : DomainName) :
    let s := (start settings).afterEvents events
    let published := ((start settings).along publications events).map Prod.fst
    let gauge := Metrics.rules domain.text
    (gauge ∈ s.metrics.series ↔ ∃ c ∈ published, c.domain = domain) ∧
      (∀ c, Catalog.lastOf? domain published = some c → s.metrics.value gauge = c.size) ∧
      (∀ c, s.store.get? domain.text = some c → s.metrics.value gauge = c.size) ∧
      (s.metrics.value gauge = s.store.rulesInForce domain.text ↔
        (∃ c, s.store.get? domain.text = some c) ∨ s.metrics.value gauge = 0) := by
  intro s published gauge
  have hlevel : s.level? domain = (Catalog.lastOf? domain published).map Catalog.size := by
    rw [level?_afterEvents ordinary]
    exact Option.or_none
  have hinForce : ∀ c, s.store.get? domain.text = some c → s.metrics.value gauge = c.size := by
    intro c hfound
    rw [value_rules, (gauged_start settings).afterEvents ordinary domain c hfound]
    rfl
  refine ⟨?_, ?_, hinForce, ?_⟩
  · rw [Metrics.mem_series_iff]
    show (s.level? domain).isSome = true ↔ _
    rw [hlevel, Option.isSome_map, Option.isSome_iff_ne_none, ne_eq, Catalog.lastOf?_eq_none_iff]
    push Not
    rfl
  · intro c hlast
    rw [value_rules, hlevel, hlast]
    rfl
  · rw [Store.rulesInForce]
    cases hfound : s.store.get? domain.text with
    | none => simp only [Option.map_none, Option.getD_none, reduceCtorEq, exists_false, false_or]
    | some c => exact iff_of_true (hinForce c hfound) (Or.inl ⟨c, rfl⟩)

/-- A domain with a catalog in force. -/
theorem rulesGauge_afterEvents_bank :
    let events := [Event.call (.loadText " Bank" "[\x7b\"ruleId\":\"R\"\x7d]")]
    let s := (start {}).afterEvents events
    (∀ e ∈ events, e.Ordinary) ∧
      s.metrics.value (Metrics.rules "bank") = s.store.rulesInForce "bank" := by
  intro events s
  have ordinary : ∀ e ∈ events, e.Ordinary := List.forall_mem_singleton.mpr trivial
  have hname : (DomainName.ofText "bank").text = "bank" := by decide +kernel
  have hfound : (s.store.get? "bank").isSome = true := by decide +kernel
  obtain ⟨-, -, -, htrue⟩ := rulesGauge_afterEvents {} ordinary (.ofText "bank")
  rw [hname] at htrue
  exact ⟨ordinary, htrue.mpr (Or.inl (Option.isSome_iff_exists.mp hfound))⟩

/-- Neither the withdrawal of the catalog nor the end of the service shows in the gauge. -/
theorem rulesGauge_of_withdrawn :
    let load := Event.call (.loadText "bank" "[\x7b\"ruleId\":\"R\"\x7d]")
    let removed := (start {}).afterEvents [load, .write (.remove "bank")]
    let ended := (start {}).afterEvents [load, .call .shutdown]
    (removed.store.rulesInForce "bank" = 0 ∧ removed.metrics.value (Metrics.rules "bank") = 1) ∧
      ended.store.rulesInForce "bank" = 0 ∧ ended.metrics.value (Metrics.rules "bank") = 1 := by
  decide +kernel

end Service

end RiskDecision
