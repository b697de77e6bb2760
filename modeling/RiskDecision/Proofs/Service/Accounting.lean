import RiskDecision.Proofs.Engine.Faults
import RiskDecision.Proofs.Metrics.Counting
import RiskDecision.Proofs.Service.History
import RiskDecision.Proofs.Service.Sources

/-!
# Counters account for a history

What has happened to a service can be told from outside: the verdicts it gave, the cases it decided
and by which catalogs, and the catalogs it published. Its counters say no more and no less
(`Accounted`). Each event adds samples for its own publication or decision only
(`metrics_afterEvent`), so the samples of a history are those of its events (`metrics_afterEvents`),
and every counter is a sum over what has happened.
-/

namespace RiskDecision.Service

/-! ## What has happened -/

/-- The verdict that a call gives, with the domain that was asked about. -/
def verdicts (s : Service) : Event → List (DomainName × Verdict)
  | .write _ => []
  | .call call =>
    match call.evaluation?, call.operation.run s with
    | some (domain, _), .ok (.verdict v) _ => [(.ofText domain, v)]
    | _, _ => []

/-- The case that a call decides, with the catalog in force. -/
def decisions (s : Service) : Event → List (Catalog × Case)
  | .write _ => []
  | .call call =>
    match call.evaluation?, call.operation.run s with
    | some (domain, some c), .ok (.verdict _) _ =>
      (s.store.get? domain).toList.map fun catalog => (catalog, c)
    | _, _ => []

/-- The catalogs that a call publishes, with the reports on them. -/
def publications (s : Service) : Event → List (Catalog × LoadReport)
  | .write _ => []
  | .call call => if s.closed then [] else call.loads

/-- The verdicts on decided cases, with their domains. -/
def verdictsOn (engine : Engine) (ds : List (Catalog × Case)) : List (DomainName × Verdict) :=
  ds.map fun d => (d.1.domain, (engine.decideByCatalog d.1 d.2).verdict)

/-- The counters of the metrics say what has happened. -/
structure Accounted (engine : Engine) (verdicts : List (DomainName × Verdict))
    (decisions : List (Catalog × Case)) (publications : List (Catalog × LoadReport))
    (m : Metrics) : Prop where
  /-- The verdicts are those on the decided cases. -/
  decided : verdicts = verdictsOn engine decisions
  evaluations : ∀ d x, m.value (Metrics.evaluations d x)
    = verdicts.countP fun p => p.1.text = d ∧ p.2.decision = some x
  triggers : ∀ d r, m.value (Metrics.triggers d r)
    = ((verdicts.filter fun p => p.1.text = d).flatMap (·.2.triggered)).count r
  clauseErrors : m.value (Metrics.errors "clause")
    = (decisions.map fun d => engine.clauseErrors d.1.rules d.2).sum
  actionErrors : m.value (Metrics.errors "action")
    = (decisions.map fun d => engine.actionErrors d.1.rules d.2).sum
  loads : ∀ d, m.value (Metrics.loads d) = publications.countP fun p => p.2.domain.text = d
  rejected : ∀ d, m.value (Metrics.rejected d)
    = ((publications.filter fun p => p.2.domain.text = d).flatMap (·.2.rejected)).length
  /-- Domains are recorded by their normal names. -/
  normal : ∀ sample ∈ m, Metrics.Normal sample

variable {s : Service}

/-- The samples of a publication. -/
def samplesOfPublication (p : Catalog × LoadReport) : Metrics :=
  Metrics.ofLoad p.2.domain p.2.loaded p.2.rejected.length

/-- The samples of a decision. -/
def samplesOfDecision (engine : Engine) (d : Catalog × Case) : Metrics :=
  Metrics.ofEvaluation d.1.domain (engine.decideByCatalog d.1 d.2)

/-- What an event adds to the record. -/
def recorded (s : Service) (e : Event) : Metrics :=
  (s.publications e).flatMap samplesOfPublication
    ++ (s.decisions e).flatMap (samplesOfDecision s.engine)

/-! ## One event -/

/-- A call gives a verdict on a case by the catalog in force, or it gives none. -/
inductive Outcome (s : Service) (call : Call) : Prop
  | verdict {domain : String} {c : Case} {catalog : Catalog} (isOpen : s.closed = false)
      (evaluation : call.evaluation? = some (domain, some c))
      (found : s.store.get? domain = some catalog)
      (reply : call.operation.run s
        = .ok (.verdict (s.engine.decideByCatalog catalog c).verdict)
            (s.withSamples (samplesOfDecision s.engine (catalog, c))))
  | other (none : ∀ v s', call.operation.run s ≠ .ok (.verdict v) s')

theorem outcome (s : Service) (call : Call) : Outcome s call := by
  by_cases h : ∃ v s', call.operation.run s = .ok (.verdict v) s'
  · obtain ⟨v, s', hreply⟩ := h
    obtain ⟨domain, given, evaluation⟩ := evaluation?_of_verdict hreply
    obtain ⟨isOpen, hevaluated⟩ := evaluated_of_verdict evaluation hreply
    cases hevaluated with
    | verdict published c => exact .verdict isOpen evaluation published hreply
  · exact .other fun v s' hreply => h ⟨v, s', hreply⟩

/-- A call that gives no verdict decides nothing. -/
theorem verdicts_of_none {call : Call}
    (h : ∀ v s', call.operation.run s ≠ .ok (.verdict v) s') : s.verdicts (.call call) = [] := by
  rw [verdicts]
  split
  · next hreply => exact absurd hreply (h _ _)
  · rfl

theorem decisions_of_none {call : Call}
    (h : ∀ v s', call.operation.run s ≠ .ok (.verdict v) s') : s.decisions (.call call) = [] := by
  rw [decisions]
  split
  · next hreply => exact absurd hreply (h _ _)
  · rfl

theorem decisions_of_verdict {call : Call} {domain : String} {c : Case} {catalog : Catalog}
    {v : Verdict} {s' : Service} (evaluation : call.evaluation? = some (domain, some c))
    (found : s.store.get? domain = some catalog)
    (reply : call.operation.run s = .ok (.verdict v) s') :
    s.decisions (.call call) = [(catalog, c)] := by
  simp only [decisions, evaluation, reply, found, Option.toList_some, List.map_cons, List.map_nil]

/-- The verdicts of an event are those on the cases that it decides. -/
theorem verdicts_eq (s : Service) (e : Event) :
    s.verdicts e = verdictsOn s.engine (s.decisions e) := by
  cases e with
  | write w => rfl
  | call call =>
      cases s.outcome call with
      | verdict isOpen evaluation found reply =>
          rw [decisions_of_verdict evaluation found reply]
          simp only [verdicts, verdictsOn, evaluation, reply, List.map_cons, List.map_nil,
            Store.domain_of_get? found]
      | other none => rw [verdicts_of_none none, decisions_of_none none, verdictsOn, List.map_nil]

theorem metrics_withCatalogs (s : Service) (cs : List (Catalog × LoadReport)) :
    (s.withCatalogs cs).metrics = s.metrics ++ cs.flatMap samplesOfPublication := by
  induction cs generalizing s with
  | nil => exact (List.append_nil _).symm
  | cons c rest ih =>
      rw [withCatalogs, List.foldl_cons, List.flatMap_cons, ← List.append_assoc]
      exact ih (s.withCatalog c)

/-- A call that gives no verdict adds the samples of its publications. -/
theorem metrics_after_of_none {call : Call}
    (h : ∀ v s', call.operation.run s ≠ .ok (.verdict v) s') :
    (s.after call.operation).metrics
      = s.metrics ++ (s.publications (.call call)).flatMap samplesOfPublication := by
  cases hclosed : s.closed with
  | true => rw [after_of_closed hclosed, publications, hclosed]; exact (List.append_nil _).symm
  | false =>
      rw [publications, hclosed, if_neg Bool.false_ne_true]
      cases hshutdown : call.isShutdown with
      | true =>
          obtain rfl := Call.eq_shutdown hshutdown
          rw [after_shutdown, shutdown, hclosed]
          exact (List.append_nil _).symm
      | false =>
          cases heval : call.evaluation? with
          | none => rw [after_of_load hclosed hshutdown heval, metrics_withCatalogs]
          | some e =>
              obtain ⟨domain, given⟩ := e
              rw [Call.loads_of_evaluation heval, List.flatMap_nil, List.append_nil]
              -- an evaluation that is not answered by a verdict has failed
              cases hr : call.operation.run s with
              | error f s' => rw [after_of_error hr, eq_of_run_eq_error hr]
              | ok reply s' =>
                  obtain ⟨op, hop, -⟩ := Call.evaluated hclosed heval
                  obtain ⟨v, -, rfl⟩ := run_eq_ok_of_reply (hop ▸ hr)
                  exact absurd hr (h v s')

/-- **ONE EVENT** adds its own samples to what is recorded. -/
theorem metrics_afterEvent (s : Service) (e : Event) :
    (s.afterEvent e).metrics = s.metrics ++ s.recorded e := by
  cases e with
  | write w => exact (List.append_nil _).symm
  | call call =>
      show (s.after call.operation).metrics = _
      cases s.outcome call with
      | @verdict domain c catalog isOpen evaluation found reply =>
          -- an evaluation publishes nothing, so the one decision is all there is
          have hpublications : s.publications (.call call) = [] := by
            rw [publications, isOpen, if_neg Bool.false_ne_true,
              Call.loads_of_evaluation evaluation]
          rw [after_of_ok reply, recorded, hpublications,
            decisions_of_verdict evaluation found reply, List.flatMap_nil, List.nil_append,
            List.flatMap_singleton]
          rfl
      | other none =>
          rw [metrics_after_of_none none, recorded, decisions_of_none none, List.flatMap_nil,
            List.append_nil]

theorem engine_afterEvent (s : Service) (e : Event) : (s.afterEvent e).engine = s.engine := by
  cases e with
  | write w => rfl
  | call call =>
      show (s.after call.operation).engine = s.engine
      simp only [engine, settings_after]

/-! ## Histories -/

/-- **A HISTORY** adds the samples of its events. -/
theorem metrics_afterEvents (s : Service) (events : List Event) :
    (s.afterEvents events).metrics = s.metrics ++ s.along recorded events := by
  induction events generalizing s with
  | nil => exact (List.append_nil _).symm
  | cons e rest ih =>
      show ((s.afterEvent e).afterEvents rest).metrics = _
      rw [ih, metrics_afterEvent, along, List.append_assoc]

theorem verdicts_along (s : Service) (events : List Event) :
    s.along verdicts events = verdictsOn s.engine (s.along decisions events) := by
  induction events generalizing s with
  | nil => rfl
  | cons e rest ih =>
      rw [along, along, ih, verdicts_eq, engine_afterEvent, verdictsOn, verdictsOn, verdictsOn,
        List.map_append]

/-- What is recorded of a series is recorded for publications and for decisions. -/
theorem total_recorded (s : Service) (events : List Event) (x : Series) :
    Metrics.total (s.along recorded events) x
      = ((s.along publications events).map fun p => (samplesOfPublication p).total x).sum
        + ((s.along decisions events).map fun d => (samplesOfDecision s.engine d).total x).sum := by
  induction events generalizing s with
  | nil => rfl
  | cons e rest ih =>
      rw [along, Metrics.total_append, ih, recorded, Metrics.total_append, Metrics.total_flatMap,
        Metrics.total_flatMap, engine_afterEvent, along, along, List.map_append, List.map_append,
        List.sum_append, List.sum_append]
      exact Nat.add_add_add_comm _ _ _ _

/-! ## Counters -/

section

variable {α : Type}

/-- A sum of ones is a count. -/
theorem sum_map_one (p : α → Prop) [DecidablePred p] (l : List α) :
    (l.map fun a => if p a then 1 else 0).sum = l.countP fun a => p a := by
  rw [List.sum_map_ite, List.countP_eq_length_filter]
  simp

/-- A sum over some items is a sum over those items. -/
theorem sum_map_filter (p : α → Prop) [DecidablePred p] (f : α → Nat) (l : List α) :
    (l.map fun a => if p a then f a else 0).sum = ((l.filter fun a => p a).map f).sum := by
  rw [List.sum_map_ite]
  simp

end

section

variable {engine : Engine} {ds : List (Catalog × Case)} {ps : List (Catalog × LoadReport)}

/-- Publications show in counters of their own only, -/
theorem sum_publications_other {metric : Metric} (labels : List (String × String))
    (hloads : metric ≠ .catalogLoads) (hrejected : metric ≠ .rejectedRules)
    (hrules : metric ≠ .catalogRules) :
    (ps.map fun p => (samplesOfPublication p).total ⟨metric, labels⟩).sum = 0 := by
  refine List.sum_eq_zero (List.forall_mem_map.mpr ?_)
  intro p _
  exact Metrics.total_ofLoad_other _ _ _ labels hloads hrejected hrules

/-- and so do decisions. -/
theorem sum_decisions_other {metric : Metric} (labels : List (String × String))
    (herrors : metric ≠ .evaluationErrors) (hevaluations : metric ≠ .evaluations)
    (hduration : metric ≠ .evaluationDuration) (htriggers : metric ≠ .ruleTriggers) :
    (ds.map fun d => (samplesOfDecision engine d).total ⟨metric, labels⟩).sum = 0 := by
  refine List.sum_eq_zero (List.forall_mem_map.mpr ?_)
  intro d _
  exact Metrics.total_ofEvaluation_other _ _ labels herrors hevaluations hduration htriggers

theorem sum_evaluations (d x : String) :
    (ds.map fun e => (samplesOfDecision engine e).total (Metrics.evaluations d x)).sum
      = (verdictsOn engine ds).countP fun p => p.1.text = d ∧ p.2.decision = some x := by
  have hone : ∀ e : Catalog × Case,
      (samplesOfDecision engine e).total (Metrics.evaluations d x)
        = if e.1.domain.text = d ∧ (engine.decideByCatalog e.1 e.2).verdict.decision = some x
          then 1 else 0 := by
    intro e
    obtain ⟨y, hy⟩ := engine.decision_decideByCatalog e.1 e.2
    rw [samplesOfDecision, Metrics.evaluations_ofEvaluation, hy, Option.getD_some]
    simp only [Option.some.injEq]
  simp only [hone]
  rw [sum_map_one, verdictsOn, List.countP_map]
  rfl

theorem sum_triggers (d r : String) :
    (ds.map fun e => (samplesOfDecision engine e).total (Metrics.triggers d r)).sum
      = (((verdictsOn engine ds).filter fun p => p.1.text = d).flatMap
          (·.2.triggered)).count r := by
  simp only [samplesOfDecision, Metrics.triggers_ofEvaluation]
  rw [sum_map_filter, verdictsOn, List.filter_map, List.flatMap_map, List.count_flatMap]
  rfl

theorem sum_clauseErrors :
    (ds.map fun d => (samplesOfDecision engine d).total (Metrics.errors "clause")).sum
      = (ds.map fun d => engine.clauseErrors d.1.rules d.2).sum := by
  simp only [samplesOfDecision, Metrics.errors_ofEvaluation, ← Engine.length_clauseFaults]
  simp

theorem sum_actionErrors :
    (ds.map fun d => (samplesOfDecision engine d).total (Metrics.errors "action")).sum
      = (ds.map fun d => engine.actionErrors d.1.rules d.2).sum := by
  simp only [samplesOfDecision, Metrics.errors_ofEvaluation, ← Engine.length_actionFaults]
  simp

theorem sum_loads (d : String) :
    (ps.map fun p => (samplesOfPublication p).total (Metrics.loads d)).sum
      = ps.countP fun p => p.2.domain.text = d := by
  simp only [samplesOfPublication, Metrics.loads_ofLoad]
  exact sum_map_one _ _

theorem sum_rejected (d : String) :
    (ps.map fun p => (samplesOfPublication p).total (Metrics.rejected d)).sum
      = ((ps.filter fun p => p.2.domain.text = d).flatMap (·.2.rejected)).length := by
  simp only [samplesOfPublication, Metrics.rejected_ofLoad]
  rw [sum_map_filter, List.length_flatMap]

end

theorem normal_recorded (s : Service) (events : List Event) :
    ∀ sample ∈ s.along recorded events, Metrics.Normal sample := by
  intro sample hsample
  obtain ⟨s', e, -, he⟩ := exists_of_mem_along hsample
  rcases List.mem_append.mp he with he | he
  · obtain ⟨p, -, hp⟩ := List.mem_flatMap.mp he
    exact Metrics.normal_ofLoad _ _ _ sample hp
  · obtain ⟨d, -, hd⟩ := List.mem_flatMap.mp he
    exact Metrics.normal_ofEvaluation _ _ sample hd

/-- Counters that hold nothing but what the events of a history recorded. -/
theorem accounted_of_recorded {events : List Event} {m : Metrics}
    (h : m = s.along recorded events) :
    Accounted s.engine (s.along verdicts events) (s.along decisions events)
      (s.along publications events) m := by
  have hvalue : ∀ metric labels, metric.kind = .counter → m.value ⟨metric, labels⟩
      = ((s.along publications events).map fun p =>
          (samplesOfPublication p).total ⟨metric, labels⟩).sum
        + ((s.along decisions events).map fun d =>
          (samplesOfDecision s.engine d).total ⟨metric, labels⟩).sum := by
    intro metric labels counter
    rw [Metrics.value_eq_total counter, h, total_recorded]
  have hdecisions : ∀ metric labels, metric.kind = .counter → metric ≠ .catalogLoads →
      metric ≠ .rejectedRules → metric ≠ .catalogRules → m.value ⟨metric, labels⟩
        = ((s.along decisions events).map fun d =>
            (samplesOfDecision s.engine d).total ⟨metric, labels⟩).sum := by
    intro metric labels counter hloads hrejected hrules
    rw [hvalue metric labels counter, sum_publications_other labels hloads hrejected hrules,
      Nat.zero_add]
  have hpublications : ∀ metric labels, metric.kind = .counter → metric ≠ .evaluationErrors →
      metric ≠ .evaluations → metric ≠ .evaluationDuration → metric ≠ .ruleTriggers →
      m.value ⟨metric, labels⟩ = ((s.along publications events).map fun p =>
        (samplesOfPublication p).total ⟨metric, labels⟩).sum := by
    intro metric labels counter herrors hevaluations hduration htriggers
    rw [hvalue metric labels counter,
      sum_decisions_other labels herrors hevaluations hduration htriggers, Nat.add_zero]
  refine ⟨verdicts_along s events, ?_, ?_, ?_, ?_, ?_, ?_, h ▸ normal_recorded s events⟩
  · intro d x
    rw [verdicts_along]
    exact (hdecisions .evaluations _ rfl nofun nofun nofun).trans (sum_evaluations d x)
  · intro d r
    rw [verdicts_along]
    exact (hdecisions .ruleTriggers _ rfl nofun nofun nofun).trans (sum_triggers d r)
  · exact (hdecisions .evaluationErrors _ rfl nofun nofun nofun).trans sum_clauseErrors
  · exact (hdecisions .evaluationErrors _ rfl nofun nofun nofun).trans sum_actionErrors
  · intro d
    exact (hpublications .catalogLoads _ rfl nofun nofun nofun nofun).trans (sum_loads d)
  · intro d
    exact (hpublications .rejectedRules _ rfl nofun nofun nofun nofun).trans (sum_rejected d)

/-- **THE ACCOUNT.** At the end of every history of a fresh service its counters say which verdicts
it gave, which clauses and actions failed on the way, and what it published and rejected, by normal
names and nothing twice. What failed has changed nothing. If no payload was made up, a report is
about the domain of its catalog. -/
theorem accounted_afterEvents (settings : Settings) (events : List Event) :
    let fresh := start settings
    let s := fresh.afterEvents events
    Accounted fresh.engine (fresh.along verdicts events) (fresh.along decisions events)
        (fresh.along publications events) s.metrics ∧
      (∀ (call : Call) f s', call.operation.run s = .error f s' → s' = s) ∧
      ((∀ call, .call call ∈ events → call.Read) →
        ∀ p ∈ fresh.along publications events, p.2.domain = p.1.domain) := by
  intro fresh s
  refine ⟨accounted_of_recorded (metrics_afterEvents fresh events), ?_, ?_⟩
  · intro call f s' h
    exact eq_of_run_eq_error h
  · intro read p hp
    obtain ⟨s', e, he, hp⟩ := exists_of_mem_along hp
    cases e with
    | write w => exact absurd hp List.not_mem_nil
    | call call =>
        rw [publications] at hp
        split at hp
        · exact absurd hp List.not_mem_nil
        · exact (read call he).domain hp

end RiskDecision.Service
