import Mathlib
import RiskDecision.Proofs.Verdict.Account

/-!
# Actions in place

Applying an action gives another verdict or a fault, and what was there before is still at hand. A
program that changes one verdict in place has no such thing to go back to: what it has written when
a check fails stays written, and the loop over the actions, which drops the fault, would not tell
anyone. `Action.perform` is that program, and `Action.Performed` lists all that it may leave behind.
Whether it fails is a matter of the action alone (`Action.isApplicable`), so the actions that fail
can be left out of a list beforehand.
-/

namespace RiskDecision

/-- A computation on a verdict in place. One that fails does not take back what it has written. -/
abbrev Editing (α : Type) := EStateM Fault Verdict α

namespace Action

/-- Applies an action in place. -/
def perform (policy : ScorePolicy) (a : Action) : Editing Unit :=
  match a.kind with
  | .setDecision => do
    if a.value.isNull then throw .missingDecision
    modify fun v => { v with decision := some a.value.display }
    if let some reason := a.reasonCode then
      modify fun v => { v with reasonCodes := v.reasonCodes ++ [reason] }
  | .addFlag => do
    if a.value.isNull then throw .missingFlag
    modify fun v => { v with flags := v.flags ++ [a.value.display] }
  | .adjustScore =>
    match a.value.number? with
    | some points =>
      modify fun v => { v with adjustedScore := policy.apply (v.adjustedScore + points) }
    | none => throw (.typeMismatch .number a.value.kind)
  | .unknown name => throw (.unsupportedAction name)

/-- Applies actions in place, one after the other. A fault is dropped; what was written is not. -/
def performAll (policy : ScorePolicy) : List Action → Editing Unit
  | [] => pure ()
  | a :: rest => do
    tryCatch (a.perform policy) fun _ => pure ()
    performAll policy rest

/-- An action can be applied: its kind is known, and it has a value that its kind can use. -/
def isApplicable (a : Action) : Bool :=
  match a.kind with
  | .setDecision | .addFlag => !a.value.isNull
  | .adjustScore => a.value.number?.isSome
  | .unknown _ => false

/-- What an action may do to a verdict in place. An action that cannot be applied fails and leaves
the verdict as it was; every other one succeeds and changes the aspect of its kind. -/
inductive Performed (policy : ScorePolicy) (v : Verdict) :
    Action → EStateM.Result Fault Verdict Unit → Prop
  | refused {a : Action} (fault : Fault) (inapplicable : a.isApplicable = false) :
      Performed policy v a (.error fault v)
  /-- The reason comes last, if there is one. -/
  | decided {a : Action} (kind : a.kind = .setDecision) (applicable : a.isApplicable = true)
      (reasons : List String) (atMostOne : reasons.length ≤ 1) :
      Performed policy v a (.ok () { v with
        decision := some a.value.display
        reasonCodes := v.reasonCodes ++ reasons })
  | flagged {a : Action} (kind : a.kind = .addFlag) (applicable : a.isApplicable = true) :
      Performed policy v a (.ok () { v with flags := v.flags ++ [a.value.display] })
  | adjusted {a : Action} (kind : a.kind = .adjustScore) (applicable : a.isApplicable = true)
      {points : Float} (number : a.value.number? = some points) :
      Performed policy v a (.ok () { v with
        adjustedScore := policy.apply (v.adjustedScore + points) })

variable {policy : ScorePolicy} {v : Verdict}

/-! ## One action -/

/-- How an action ends in place, given what it makes of the verdict. -/
def ending (v : Verdict) : Except Fault Verdict → EStateM.Result Fault Verdict Unit
  | .ok w => .ok () w
  | .error fault => .error fault v

/-- **IN PLACE**: no check comes after a change, so a fault leaves the verdict that was given. -/
theorem run_perform (a : Action) : (a.perform policy).run v = ending v (a.apply policy v) := by
  obtain ⟨kind, value, reasonCode⟩ := a
  cases kind with
  | setDecision =>
      cases h : value.isNull <;> cases reasonCode <;> simp [perform, apply, ending, h]
  | addFlag => cases h : value.isNull <;> simp [perform, apply, ending, h]
  | adjustScore => cases value <;> simp [perform, apply, ending, Value.number?, Value.kind]
  | unknown name => simp [perform, apply, ending]

/-- An action can be applied if nothing is wrong with it. -/
theorem isApplicable_eq_isNone (a : Action) : a.isApplicable = a.fault?.isNone := by
  obtain ⟨kind, value, reasonCode⟩ := a
  cases kind with
  | setDecision => cases h : value.isNull <;> simp [isApplicable, fault?, h]
  | addFlag => cases h : value.isNull <;> simp [isApplicable, fault?, h]
  | adjustScore => cases value <;> rfl
  | unknown name => rfl

/-- **FAULTS** are those of actions that cannot be applied, whatever they are applied to. -/
theorem exists_fault_iff {a : Action} :
    (∃ fault, a.apply policy v = .error fault) ↔ a.isApplicable = false := by
  simp only [apply_eq_error_iff, isApplicable_eq_isNone, ← Option.isSome_iff_exists,
    ← Option.isNone_eq_false_iff]

theorem applyOrSkip_of_inapplicable {a : Action} (h : a.isApplicable = false) :
    applyOrSkip policy v a = v := by
  obtain ⟨fault, hfault⟩ := exists_fault_iff.mpr h
  rw [applyOrSkip, hfault]

theorem performed_perform (a : Action) :
    Performed policy v a ((a.perform policy).run v) := by
  rw [run_perform]
  by_cases h : a.isApplicable = true
  · obtain ⟨kind, value, reasonCode⟩ := a
    cases kind with
    | setDecision =>
        have hvalue : value.isNull = false := by simpa [isApplicable] using h
        rw [apply, hvalue]
        exact .decided rfl h _ (by cases reasonCode <;> simp)
    | addFlag =>
        have hvalue : value.isNull = false := by simpa [isApplicable] using h
        rw [apply, hvalue]
        exact .flagged rfl h
    | adjustScore =>
        cases value with
        | number points => exact .adjusted rfl h rfl
        | _ => exact absurd h Bool.false_ne_true
    | unknown name => exact absurd h Bool.false_ne_true
  · rw [Bool.not_eq_true] at h
    obtain ⟨fault, hfault⟩ := exists_fault_iff.mpr h
    rw [hfault]
    exact .refused fault h

/-! ## Lists of actions -/

/-- Dropping the fault of an action in place is passing the action over. -/
theorem run_perform_or_skip (a : Action) :
    (tryCatch (a.perform policy) fun _ => pure () : Editing Unit).run v
      = .ok () (applyOrSkip policy v a) := by
  rw [EStateM.run_tryCatch, run_perform, applyOrSkip]
  cases a.apply policy v <;> rfl

theorem run_performAll (actions : List Action) :
    (performAll policy actions).run v = .ok () (applyAll policy v actions) := by
  induction actions generalizing v with
  | nil => rfl
  | cons a rest ih =>
      rw [performAll, EStateM.run_bind, run_perform_or_skip]
      exact ih

/-- **LEAVING OUT** what cannot be applied makes no difference. -/
theorem applyAll_filter (actions : List Action) :
    applyAll policy v actions = applyAll policy v (actions.filter isApplicable) := by
  rw [applyAll, applyAll, List.foldl_filter]
  congr 1
  funext w a
  split
  · rfl
  · next h => exact applyOrSkip_of_inapplicable (Bool.not_eq_true _ ▸ h)

/-- **NO TRACE OF A FAULT**: in place, an action that fails leaves the verdict as it was, and one
that succeeds changes the aspect of its kind only; which of the two it is does not depend on the
verdict. So a list of actions in place does what applying them does, which is what applying those of
them does that can be applied, and it may be taken in two portions. -/
theorem perform_confined (policy : ScorePolicy) (v : Verdict) :
    (∀ a : Action, Performed policy v a ((a.perform policy).run v) ∧
      ((∃ fault left, (a.perform policy).run v = .error fault left) ↔ a.isApplicable = false) ∧
      (a.perform policy).run v = ending v (a.apply policy v)) ∧
    (∀ actions, (performAll policy actions).run v = .ok () (applyAll policy v actions)) ∧
    (∀ actions, applyAll policy v actions = applyAll policy v (actions.filter isApplicable)) ∧
    ∀ xs ys, applyAll policy v (xs ++ ys) = applyAll policy (applyAll policy v xs) ys := by
  refine ⟨fun a => ⟨performed_perform a, ?_, run_perform a⟩, run_performAll, applyAll_filter,
    fun xs ys => List.foldl_append⟩
  rw [run_perform, ← @exists_fault_iff policy v]
  cases a.apply policy v <;> simp [ending]

end Action

end RiskDecision
