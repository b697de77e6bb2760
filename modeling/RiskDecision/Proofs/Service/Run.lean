import RiskDecision.Proofs.Service.Operation

/-!
# Runs of a service

A run is a list of calls that are made one after the other. What a call does to an open service is
summed up in one statement, `after_of_open`: it publishes the catalogs that it loads, which may be
none, and adds to what is recorded. A service that is shut down is not changed by any call
(`after_of_closed`). From these two follows by induction what a run leaves: whether the service is
open, and which catalog is in force for each domain, namely the last one that was loaded for it
(`store_afterCalls`).
-/

namespace RiskDecision.Service

/-- A call of a service. -/
inductive Call
  | loadCatalog (c : Catalog)
  | loadText (domain text : String)
  | loadBundle (b : Bundle)
  | loadFile (name : String) (entry : Option Entry)
  | loadDirectory (directory : Option Entry)
  | evaluate (r : Request)
  | evaluateTransaction (domain : BusinessDomain) (t : Transaction) (score : Float)
      (features : Option Features) (clientContext : Option (Dictionary Json))
  | evaluateCase (domain : String) (c : Case)
  | shutdown

/-- What a call returns if it does not fail. -/
inductive Reply
  | done
  | report (r : LoadReport)
  | reports (rs : List LoadReport)
  | verdict (v : Verdict)

namespace Call

/-- The operation that a call asks for. -/
def operation : Call → Operation FileFault Reply
  | .loadCatalog c => (fun _ => .done) <$> (Service.loadCatalog c).adaptExcept .fault
  | .loadText domain text => .report <$> (Service.loadText domain text).adaptExcept .fault
  | .loadBundle b => .reports <$> (Service.loadBundle b).adaptExcept .fault
  | .loadFile name entry => .report <$> Service.loadFile name entry
  | .loadDirectory directory => .reports <$> Service.loadDirectory directory
  | .evaluate r => .verdict <$> (Service.evaluate r).adaptExcept .fault
  | .evaluateTransaction domain t score features clientContext =>
    .verdict <$>
      (Service.evaluateTransaction domain t score features clientContext).adaptExcept .fault
  | .evaluateCase domain c => .verdict <$> (Service.evaluateCase domain c).adaptExcept .fault
  | .shutdown => do
    modify Service.shutdown
    return .done

/-- The call shuts the service down. -/
def isShutdown : Call → Bool
  | .shutdown => true
  | _ => false

theorem eq_shutdown {call : Call} (h : call.isShutdown = true) : call = .shutdown := by
  cases call <;> first | rfl | exact nomatch h

/-- The domain of an evaluation, and its case if there is one. -/
def evaluation? : Call → Option (String × Option Case)
  | .evaluate r => some (r.domain, caseOfRequest? r)
  | .evaluateTransaction domain t score features clientContext =>
    some (domain.name, caseOf? t score features clientContext)
  | .evaluateCase domain c => some (domain, some c)
  | _ => none

/-- The catalogs that the call publishes, in their order, if the service is open. -/
def loads : Call → List (Catalog × LoadReport)
  | .loadCatalog c => [(c, reportOf c)]
  | .loadText domain text => (Catalog.ofText domain text).toOption.toList
  | .loadBundle b => b.catalogs
  | .loadFile name entry => (catalogOfFile name entry).toOption.toList
  | .loadDirectory directory => catalogsOfDirectory directory
  | _ => []

end Call

/-- The service after calls were made one after the other. -/
def afterCalls (s : Service) (calls : List Call) : Service :=
  calls.foldl (fun s call => s.after call.operation) s

variable {s : Service}

/-! ## Results and what they leave -/

variable {ε ε' α β : Type}

theorem after_of_ok {op : Operation ε α} {a : α} {s' : Service} (h : op.run s = .ok a s') :
    s.after op = s' := by
  rw [after, h]

theorem after_of_error {op : Operation ε α} {e : ε} {s' : Service} (h : op.run s = .error e s') :
    s.after op = s' := by
  rw [after, h]

/-- What is made of the value and of the fault does not matter to the service. -/
@[simp] theorem after_map_adaptExcept (op : Operation ε α) (f : α → β) (g : ε → ε') :
    s.after (f <$> op.adaptExcept g : Operation ε' β) = s.after op := by
  simp only [after, EStateM.run_map, EStateM.run_adaptExcept]
  cases op.run s <;> rfl

@[simp] theorem after_map (op : Operation ε α) (f : α → β) : s.after (f <$> op) = s.after op := by
  simp only [after, EStateM.run_map]
  cases op.run s <;> rfl

/-- A call that returns comes from an operation that does. -/
theorem run_eq_ok_of_reply {op : Operation ε α} {f : α → β} {g : ε → ε'} {b : β} {s' : Service}
    (h : (f <$> op.adaptExcept g : Operation ε' β).run s = .ok b s') :
    ∃ a, op.run s = .ok a s' ∧ f a = b := by
  rw [EStateM.run_map, EStateM.run_adaptExcept] at h
  cases hr : op.run s with
  | ok a s'' => rw [hr] at h; cases h; exact ⟨a, rfl, rfl⟩
  | error e s'' => rw [hr] at h; exact nomatch h

/-- A call that fails comes from an operation that does. -/
theorem run_eq_error_of_reply {op : Operation ε α} {f : α → β} {g : ε → ε'} {e' : ε'}
    {s' : Service} (h : (f <$> op.adaptExcept g : Operation ε' β).run s = .error e' s') :
    ∃ e, op.run s = .error e s' ∧ g e = e' := by
  rw [EStateM.run_map, EStateM.run_adaptExcept] at h
  cases hr : op.run s with
  | ok a s'' => rw [hr] at h; exact nomatch h
  | error e s'' => rw [hr] at h; cases h; exact ⟨e, rfl, rfl⟩

/-- An evaluation records something or nothing, and that is all it changes. -/
theorem Evaluated.after {domain : String} {given : Option Case} {op : Operation Fault Verdict}
    (h : Evaluated s domain given (op.run s)) : ∃ samples, s.after op = s.withSamples samples := by
  generalize hr : op.run s = r at h
  cases h with
  | verdict published c => exact ⟨_, after_of_ok hr⟩
  | fault ne =>
      refine ⟨[], (after_of_error hr).trans ?_⟩
      rw [withSamples_nil]

/-! ## One call -/

/-- **A CLOSED SERVICE** is not changed by any call. -/
theorem after_of_closed (closed : s.closed = true) (call : Call) :
    s.after call.operation = s := by
  have refused : ∀ {α : Type} (next : Unit → Operation Fault α),
      s.after (ensureOpen >>= next) = s := by
    intro α next
    exact after_of_error (run_ensureOpen_bind_of_closed closed next)
  cases call with
  | loadCatalog c => exact (after_map_adaptExcept _ _ _).trans (refused _)
  | loadText domain text => exact (after_map_adaptExcept _ _ _).trans (refused _)
  | loadBundle b => exact (after_map_adaptExcept _ _ _).trans (refused _)
  | loadFile name entry =>
      obtain ⟨f, hf⟩ := run_loadFile_of_closed closed name entry
      exact (after_map _ _).trans (after_of_error hf)
  | loadDirectory directory =>
      rw [Call.operation, after_map, loadDirectory]
      split
      · rfl
      · exact after_of_ok (run_loadFiles_of_closed closed _)
  | evaluate r => exact (after_map_adaptExcept _ _ _).trans (refused _)
  | evaluateTransaction domain t score features clientContext =>
      exact (after_map_adaptExcept _ _ _).trans (refused _)
  | evaluateCase domain c => exact (after_map_adaptExcept _ _ _).trans (refused _)
  | shutdown =>
      show s.shutdown = s
      rw [Service.shutdown, if_pos closed]

/-- An evaluation is refused by a closed service, whichever way it is asked for. -/
theorem Call.run_evaluation_of_closed (closed : s.closed = true) {call : Call} {domain : String}
    {given : Option Case} (h : call.evaluation? = some (domain, given)) :
    call.operation.run s = .error (.fault .serviceClosed) s := by
  have refused : ∀ next : Unit → Operation Fault Verdict,
      (Reply.verdict <$> (ensureOpen >>= next).adaptExcept FileFault.fault :
        Operation FileFault Reply).run s = .error (.fault .serviceClosed) s := by
    intro next
    rw [EStateM.run_map, EStateM.run_adaptExcept, run_ensureOpen_bind_of_closed closed]
    rfl
  cases call with
  | evaluate r => exact refused _
  | evaluateTransaction domain t score features clientContext => exact refused _
  | evaluateCase domain c => exact refused _
  | _ => exact nomatch h

theorem after_shutdown (s : Service) : s.after Call.shutdown.operation = s.shutdown := rfl

/-- What an evaluation by an open service comes to, whichever way it was asked for. -/
theorem Call.evaluated (isOpen : s.closed = false) {call : Call} {domain : String}
    {given : Option Case} (h : call.evaluation? = some (domain, given)) :
    ∃ op : Operation Fault Verdict, call.operation = .verdict <$> op.adaptExcept .fault ∧
      Evaluated s domain given (op.run s) := by
  cases call with
  | evaluate r => cases h; exact ⟨_, rfl, evaluated_evaluate isOpen r⟩
  | evaluateTransaction domain t score features clientContext =>
      cases h
      exact ⟨_, rfl, evaluated_evaluateTransaction isOpen domain t score features clientContext⟩
  | evaluateCase domain c => cases h; exact ⟨_, rfl, evaluated_evaluateCase isOpen domain c⟩
  | loadCatalog c => exact nomatch h
  | loadText domain text => exact nomatch h
  | loadBundle b => exact nomatch h
  | loadFile name entry => exact nomatch h
  | loadDirectory directory => exact nomatch h
  | shutdown => exact nomatch h

/-- A verdict comes from a service that is open. -/
theorem evaluated_of_verdict {call : Call} {domain : String} {given : Option Case}
    (evaluation : call.evaluation? = some (domain, given)) {v : Verdict} {s' : Service}
    (h : call.operation.run s = .ok (.verdict v) s') :
    s.closed = false ∧ Evaluated s domain given (.ok v s') := by
  cases hclosed : s.closed with
  | true =>
      rw [Call.run_evaluation_of_closed hclosed evaluation] at h
      exact nomatch h
  | false =>
      obtain ⟨op, hop, hevaluated⟩ := Call.evaluated hclosed evaluation
      rw [hop] at h
      obtain ⟨w, hr, hw⟩ := run_eq_ok_of_reply h
      cases hw
      rw [hr] at hevaluated
      exact ⟨rfl, hevaluated⟩

/-- Only evaluations come to a verdict. -/
theorem evaluation?_of_verdict {call : Call} {v : Verdict} {s' : Service}
    (h : call.operation.run s = .ok (.verdict v) s') :
    ∃ domain given, call.evaluation? = some (domain, given) := by
  have reply : ∀ {α : Type} {op : Operation FileFault α} {f : α → Reply},
      (f <$> op).run s = .ok (.verdict v) s' → ∃ a, f a = .verdict v := by
    intro α op f hop
    rw [EStateM.run_map] at hop
    cases hr : op.run s with
    | ok a s'' => rw [hr] at hop; injection hop with ha; exact ⟨a, ha⟩
    | error e s'' => rw [hr] at hop; exact nomatch hop
  rw [Call.operation.eq_def] at h
  cases call with
  | evaluate r => exact ⟨_, _, rfl⟩
  | evaluateTransaction domain t score features clientContext => exact ⟨_, _, rfl⟩
  | evaluateCase domain c => exact ⟨_, _, rfl⟩
  | shutdown => exact nomatch h
  | _ =>
      obtain ⟨a, ha⟩ := reply h
      exact nomatch ha

/-- A load from a source that has a catalog or not. -/
theorem after_of_loaded {op : Operation ε LoadReport} {source : Except ε (Catalog × LoadReport)}
    (h : op.run s = s.loaded source) : s.after op = s.withCatalogs source.toOption.toList := by
  cases source with
  | ok c => exact after_of_ok h
  | error f => exact after_of_error h

/-- A load by an open service publishes what it loads. -/
theorem after_of_load (isOpen : s.closed = false) {call : Call} (h : call.isShutdown = false)
    (hload : call.evaluation? = none) : s.after call.operation = s.withCatalogs call.loads := by
  cases call with
  | loadCatalog c =>
      exact (after_map_adaptExcept _ _ _).trans (after_of_ok (run_loadCatalog isOpen c))
  | loadText domain text =>
      exact (after_map_adaptExcept _ _ _).trans (after_of_loaded (run_loadText isOpen domain text))
  | loadBundle b =>
      exact (after_map_adaptExcept _ _ _).trans (after_of_ok (run_loadBundle isOpen b))
  | loadFile name entry =>
      exact (after_map _ _).trans (after_of_loaded (run_loadFile isOpen name entry))
  | loadDirectory directory =>
      rw [Call.operation, after_map, loadDirectory, Call.loads, catalogsOfDirectory]
      cases directory.bind Entry.entries? with
      | none => rfl
      | some entries => exact after_of_ok (run_loadFiles isOpen (catalogFiles entries))
  | evaluate r => exact nomatch hload
  | evaluateTransaction domain t score features clientContext => exact nomatch hload
  | evaluateCase domain c => exact nomatch hload
  | shutdown => exact nomatch h

/-- An evaluation by an open service changes nothing but what is recorded. -/
theorem after_of_evaluation (isOpen : s.closed = false) {call : Call} {domain : String}
    {given : Option Case} (h : call.evaluation? = some (domain, given)) :
    ∃ samples, s.after call.operation = s.withSamples samples := by
  obtain ⟨op, hop, hevaluated⟩ := Call.evaluated isOpen h
  rw [hop, after_map_adaptExcept]
  exact hevaluated.after

theorem Call.loads_of_evaluation {call : Call} {domain : String} {given : Option Case}
    (h : call.evaluation? = some (domain, given)) : call.loads = [] := by
  cases call <;> first | rfl | exact nomatch h

/-- **AN OPEN SERVICE** publishes what a call loads and adds to what is recorded. -/
theorem after_of_open (isOpen : s.closed = false) {call : Call} (h : call.isShutdown = false) :
    ∃ samples, s.after call.operation = (s.withCatalogs call.loads).withSamples samples := by
  cases heval : call.evaluation? with
  | none =>
      refine ⟨[], ?_⟩
      rw [after_of_load isOpen h heval, withSamples_nil]
  | some e =>
      obtain ⟨samples, hsamples⟩ := after_of_evaluation isOpen heval
      exact ⟨samples, by rw [hsamples, Call.loads_of_evaluation heval]; rfl⟩

/-- **ONE CALL** of an open service publishes what it loads with the policies of the domains. -/
theorem store_after_of_open (isOpen : s.closed = false) {call : Call} (h : call.isShutdown = false) :
    (s.after call.operation).store
      = s.store.publishEach ((call.loads.map Prod.fst).map s.withDomainPolicy) := by
  obtain ⟨samples, hsamples⟩ := after_of_open isOpen h
  rw [hsamples, List.map_map]
  exact store_withCatalogs s call.loads

theorem eq_of_loaded_eq_error {source : Except ε (Catalog × LoadReport)} {f : ε} {s' : Service}
    (h : s.loaded source = .error f s') : s' = s := by
  cases source with
  | ok c => exact nomatch h
  | error f => cases h; rfl

/-- **FAILURES** change nothing, whether the service is open or not. -/
theorem eq_of_run_eq_error {call : Call} {f : FileFault} {s' : Service}
    (h : call.operation.run s = .error f s') : s' = s := by
  cases hclosed : s.closed with
  | true => rw [← after_of_error h, after_of_closed hclosed]
  | false =>
      have evaluated : ∀ {domain : String} {given : Option Case},
          call.evaluation? = some (domain, given) → s' = s := by
        intro domain given heval
        obtain ⟨op, hop, hevaluated⟩ := Call.evaluated hclosed heval
        rw [hop] at h
        obtain ⟨e, hr, -⟩ := run_eq_error_of_reply h
        rw [hr] at hevaluated
        cases hevaluated with
        | fault ne => rfl
      cases call with
      | loadCatalog c =>
          obtain ⟨e, hr, -⟩ := run_eq_error_of_reply h
          rw [run_loadCatalog hclosed] at hr
          exact nomatch hr
      | loadText domain text =>
          obtain ⟨e, hr, -⟩ := run_eq_error_of_reply h
          rw [run_loadText hclosed] at hr
          exact eq_of_loaded_eq_error hr
      | loadBundle b =>
          obtain ⟨e, hr, -⟩ := run_eq_error_of_reply h
          rw [run_loadBundle hclosed] at hr
          exact nomatch hr
      | loadFile name entry =>
          rw [Call.operation, EStateM.run_map, run_loadFile hclosed] at h
          cases hc : catalogOfFile name entry with
          | ok c => rw [hc] at h; exact nomatch h
          | error f => rw [hc] at h; cases h; rfl
      | loadDirectory directory =>
          rw [Call.operation, EStateM.run_map, loadDirectory] at h
          cases hd : directory.bind Entry.entries? with
          | none => rw [hd] at h; cases h; rfl
          | some entries =>
              rw [hd] at h
              dsimp only at h
              rw [run_loadFiles hclosed] at h
              exact nomatch h
      | evaluate r => exact evaluated rfl
      | evaluateTransaction domain t score features clientContext => exact evaluated rfl
      | evaluateCase domain c => exact evaluated rfl
      | shutdown => exact nomatch h

theorem settings_after (s : Service) (call : Call) :
    (s.after call.operation).settings = s.settings := by
  cases hclosed : s.closed with
  | true => rw [after_of_closed hclosed]
  | false =>
      cases hshutdown : call.isShutdown with
      | true =>
          obtain rfl := Call.eq_shutdown hshutdown
          rw [after_shutdown, shutdown, hclosed]
          rfl
      | false =>
          obtain ⟨samples, hsamples⟩ := after_of_open hclosed hshutdown
          rw [hsamples]
          exact settings_withCatalogs s call.loads

theorem closed_after (s : Service) (call : Call) :
    (s.after call.operation).closed = (s.closed || call.isShutdown) := by
  cases hclosed : s.closed with
  | true => rw [after_of_closed hclosed, hclosed, Bool.true_or]
  | false =>
      cases hshutdown : call.isShutdown with
      | true =>
          obtain rfl := Call.eq_shutdown hshutdown
          rw [after_shutdown, shutdown, hclosed]
          rfl
      | false =>
          obtain ⟨samples, hsamples⟩ := after_of_open hclosed hshutdown
          rw [hsamples]
          exact (closed_withCatalogs s call.loads).trans hclosed

/-! ## Runs -/

theorem settings_afterCalls (s : Service) (calls : List Call) :
    (s.afterCalls calls).settings = s.settings := by
  induction calls generalizing s with
  | nil => rfl
  | cons call rest ih => exact (ih (s.after call.operation)).trans (settings_after s call)

/-- A service is closed exactly from the first shutdown on. -/
theorem closed_afterCalls (s : Service) (calls : List Call) :
    (s.afterCalls calls).closed = (s.closed || calls.any Call.isShutdown) := by
  induction calls generalizing s with
  | nil => exact (Bool.or_false _).symm
  | cons call rest ih =>
      show ((s.after call.operation).afterCalls rest).closed = _
      rw [ih, closed_after, List.any_cons, Bool.or_assoc]

/-- **INVARIANT**: a service that is shut down has no catalogs. -/
def Emptied (s : Service) : Prop := s.closed = true → s.store = .empty

theorem emptied_start (settings : Settings) : (start settings).Emptied := nofun

theorem Emptied.after (emptied : s.Emptied) (call : Call) :
    (s.after call.operation).Emptied := by
  intro hclosed
  cases hs : s.closed with
  | true =>
      rw [after_of_closed hs]
      exact emptied hs
  | false =>
      rw [closed_after, hs, Bool.false_or] at hclosed
      obtain rfl := Call.eq_shutdown hclosed
      rw [after_shutdown, shutdown, hs]
      rfl

theorem Emptied.afterCalls (emptied : s.Emptied) (calls : List Call) :
    (s.afterCalls calls).Emptied := by
  induction calls generalizing s with
  | nil => exact emptied
  | cons call rest ih => exact ih (emptied.after call)

/-- The catalogs that are loaded by calls, in their order. -/
def Call.allLoads (calls : List Call) : List Catalog := (calls.flatMap loads).map Prod.fst

/-- **THE CATALOGS IN FORCE** after a run that leaves the service open are those that it loaded,
published one after the other with the policies of their domains. -/
theorem store_afterCalls {calls : List Call} (isOpen : (s.afterCalls calls).closed = false) :
    (s.afterCalls calls).store
      = s.store.publishEach ((Call.allLoads calls).map s.withDomainPolicy) := by
  induction calls generalizing s with
  | nil => rfl
  | cons call rest ih =>
      have hopen := isOpen
      rw [closed_afterCalls, List.any_cons] at hopen
      obtain ⟨hs, hcall, -⟩ : s.closed = false ∧ call.isShutdown = false ∧
          rest.any Call.isShutdown = false := by simpa using hopen
      have hpolicy : (s.after call.operation).withDomainPolicy = s.withDomainPolicy := by
        funext c
        simp only [withDomainPolicy, settings_after]
      show ((s.after call.operation).afterCalls rest).store = _
      rw [ih isOpen, store_after_of_open hs hcall, hpolicy, Call.allLoads, Call.allLoads,
        List.flatMap_cons, List.map_append, List.map_append, Store.publishEach_append]

/-- What is in force for a domain after a run from a fresh service that leaves it open. -/
theorem get?_afterCalls_start (settings : Settings) {calls : List Call}
    (isOpen : ((start settings).afterCalls calls).closed = false) (domain : String) :
    ((start settings).afterCalls calls).store.get? domain
      = (Catalog.lastOf? (.ofText domain) (Call.allLoads calls)).map
          (start settings).withDomainPolicy := by
  rw [store_afterCalls isOpen, Store.get?_publishEach, Catalog.lastOf?_map
    (domain_withDomainPolicy _)]
  exact Option.or_none

end RiskDecision.Service
