import RiskDecision.Proofs.Service.Run

/-!
# The life of a service

A service is open until it is shut down and closed ever after. `InService` says what holds of every
call while it is open, `Retired` what holds once it is closed, and the main statement,
`lifecycle`, that every run from a fresh service leaves one or the other, according to whether there
was a shutdown among its calls.
-/

namespace RiskDecision.Service

/-- What holds of a service from its first shutdown on. -/
structure Retired (s : Service) : Prop where
  emptied : s.store = .empty
  /-- Whatever it is that should be loaded. -/
  loadCatalog : ∀ c, (Service.loadCatalog c).run s = .error .serviceClosed s
  loadText : ∀ domain text, (Service.loadText domain text).run s = .error .serviceClosed s
  loadBundle : ∀ b, (Service.loadBundle b).run s = .error .serviceClosed s
  /-- Whatever it is that should be decided. -/
  evaluate : ∀ r, (Service.evaluate r).run s = .error .serviceClosed s
  evaluateTransaction : ∀ domain t score features clientContext,
    (Service.evaluateTransaction domain t score features clientContext).run s
      = .error .serviceClosed s
  evaluateCase : ∀ domain c, (Service.evaluateCase domain c).run s = .error .serviceClosed s
  /-- A directory that can be read has nothing to load. -/
  loadDirectory : ∀ entries,
    (Service.loadDirectory (some (.directory entries))).run s = .ok [] s
  /-- A catalog that comes too late is withdrawn. -/
  publish : ∀ c, (Service.publish c).run s = .error .serviceClosed s
  shutdown : s.shutdown = s
  /-- No call changes anything. -/
  unchanged : ∀ call : Call, s.after call.operation = s

/-- What holds of a service before its first shutdown. -/
structure InService (s : Service) : Prop where
  /-- No call fails for the reason that the service is closed. -/
  notRefused : ∀ (call : Call) (s' : Service),
    call.operation.run s ≠ .error (.fault .serviceClosed) s'
  /-- No evaluation changes the catalogs in force, whether it succeeds or fails. -/
  unchanged : ∀ call : Call, call.evaluation?.isSome = true →
    (s.after call.operation).store = s.store

variable {s : Service}

theorem retired_of_closed (closed : s.closed = true) (emptied : s.store = .empty) :
    s.Retired where
  emptied := emptied
  loadCatalog _ := run_ensureOpen_bind_of_closed closed _
  loadText _ _ := run_ensureOpen_bind_of_closed closed _
  loadBundle _ := run_ensureOpen_bind_of_closed closed _
  evaluate _ := run_ensureOpen_bind_of_closed closed _
  evaluateTransaction _ _ _ _ _ := run_ensureOpen_bind_of_closed closed _
  evaluateCase _ _ := run_ensureOpen_bind_of_closed closed _
  loadDirectory entries := run_loadFiles_of_closed closed (catalogFiles entries)
  publish c := run_publish_of_closed closed emptied c
  shutdown := after_of_closed closed .shutdown
  unchanged := after_of_closed closed

/-! ## Open services -/

/-- A text that has no catalog is not the fault of a service that is shut down. -/
theorem ne_serviceClosed_of_ofText {domain text : String} {f : Fault}
    (h : Catalog.ofText domain text = .error f) : f ≠ .serviceClosed := by
  rintro rfl
  rw [Catalog.ofText] at h
  cases hj : Json.ofText text with
  | error flaw => rw [hj] at h; cases h
  | ok j =>
      rw [hj] at h
      cases j <;> cases h

/-- A file that has no catalog is not the fault of a service that is shut down either. -/
theorem ne_serviceClosed_of_catalogOfFile {name : String} {entry : Option Entry} {f : FileFault}
    (h : catalogOfFile name entry = .error f) : f ≠ .fault .serviceClosed := by
  rintro rfl
  rw [catalogOfFile] at h
  split at h
  · cases h
  · rename_i text _
    cases hc : Catalog.ofText (Path.stem name) text with
    | ok c => rw [hc] at h; cases h
    | error f => rw [hc] at h; cases h; exact ne_serviceClosed_of_ofText hc rfl

theorem notRefused_of_open (isOpen : s.closed = false) (call : Call) (s' : Service) :
    call.operation.run s ≠ .error (.fault .serviceClosed) s' := by
  intro h
  -- how the operation of the call ends decides how the call ends
  have ends : ∀ {α : Type} {op : Operation Fault α} {f : α → Reply},
      call.operation = f <$> op.adaptExcept .fault → op.run s = .error .serviceClosed s' := by
    intro α op f hop
    rw [hop] at h
    obtain ⟨e, hr, he⟩ := run_eq_error_of_reply h
    cases he
    exact hr
  have evaluated : ∀ {domain : String} {given : Option Case},
      call.evaluation? = some (domain, given) → False := by
    intro domain given heval
    obtain ⟨op, hop, hevaluated⟩ := Call.evaluated isOpen heval
    rw [ends hop] at hevaluated
    cases hevaluated with
    | fault ne => exact ne rfl
  cases call with
  | loadCatalog c =>
      have hr := ends rfl
      rw [run_loadCatalog isOpen] at hr
      cases hr
  | loadText domain text =>
      have hr := ends rfl
      rw [run_loadText isOpen] at hr
      cases hc : Catalog.ofText domain text with
      | ok c => rw [hc] at hr; cases hr
      | error f => rw [hc] at hr; cases hr; exact ne_serviceClosed_of_ofText hc rfl
  | loadBundle b =>
      have hr := ends rfl
      rw [run_loadBundle isOpen] at hr
      cases hr
  | loadFile name entry =>
      rw [Call.operation, EStateM.run_map, run_loadFile isOpen] at h
      cases hc : catalogOfFile name entry with
      | ok c => rw [hc] at h; cases h
      | error f => rw [hc] at h; cases h; exact ne_serviceClosed_of_catalogOfFile hc rfl
  | loadDirectory directory =>
      rw [Call.operation, EStateM.run_map, loadDirectory] at h
      cases hd : directory.bind Entry.entries? with
      | none => rw [hd] at h; cases h
      | some entries =>
          rw [hd] at h
          dsimp only at h
          rw [run_loadFiles isOpen] at h
          cases h
  | evaluate r => exact evaluated rfl
  | evaluateTransaction domain t score features clientContext => exact evaluated rfl
  | evaluateCase domain c => exact evaluated rfl
  | shutdown => cases h

theorem inService_of_open (isOpen : s.closed = false) : s.InService where
  notRefused := notRefused_of_open isOpen
  unchanged call h := by
    obtain ⟨⟨domain, given⟩, heval⟩ := Option.isSome_iff_exists.mp h
    obtain ⟨samples, hsamples⟩ := after_of_evaluation isOpen heval
    rw [hsamples]
    rfl

/-- **LIFECYCLE.** A service is closed exactly from the first shutdown on. While it is open no call
is refused and no evaluation changes the catalogs in force; once it is closed it has no catalogs,
refuses every load and every evaluation, and nothing changes it any more. -/
theorem lifecycle (settings : Settings) (calls : List Call) :
    let s := (start settings).afterCalls calls
    s.closed = calls.any Call.isShutdown ∧ if s.closed then s.Retired else s.InService := by
  intro s
  have hclosed : s.closed = calls.any Call.isShutdown := closed_afterCalls (start settings) calls
  have hemptied : s.Emptied := (emptied_start settings).afterCalls calls
  refine ⟨hclosed, ?_⟩
  split
  · rename_i h
    exact retired_of_closed h (hemptied h)
  · rename_i h
    exact inService_of_open (Bool.eq_false_iff.mpr h)

end RiskDecision.Service
