import RiskDecision.Catalog.Basic
import RiskDecision.Proofs.Engine.Account

/-!
# The order in which rules are written down

Rules may be listed in any order: only that of the rules of one priority counts, and disabled rules
count for nothing. The only thing that shows besides is whether there are rules at all, because a
case without rules is allowed for a reason of its own. The main statement, `decide_authoring`, is an
equality of whole evaluations, so verdicts, traces and probes are all covered by it. A catalog,
which keeps its rules sorted, decides as the list does that it was made of.
-/

namespace RiskDecision

namespace Rule

/-- The second list has the enabled rules of the first one, those of each priority in the same
order. Which disabled rules there are is left open, and so is where rules of different priorities
stand. -/
def Rearranged (rules rules' : List Rule) : Prop :=
  ∀ p : Int, rules.filter (fun r => r.enabled && r.priority = p)
    = rules'.filter fun r => r.enabled && r.priority = p

variable {rules rules' : List Rule}

/-- Lists with the same rules of each priority are sorted alike. -/
theorem inOrder_eq_of_keeps
    (h : ∀ p : Int, rules.filter (fun r => r.priority = p)
      = rules'.filter fun r => r.priority = p) : inOrder rules = inOrder rules' := by
  refine (stableOrder_inOrder rules).unique ⟨inOrder_sorted rules', ?_⟩
  intro p
  rw [filter_inOrder, h p]

/-- **ENABLED RULES** come in the same order however they are written down. -/
theorem Rearranged.enabledInOrder (h : Rearranged rules rules') :
    (inOrder rules).filter (·.enabled) = (inOrder rules').filter (·.enabled) := by
  rw [← inOrder_filter, ← inOrder_filter]
  refine inOrder_eq_of_keeps ?_
  intro p
  rw [List.filter_comm, List.filter_filter, List.filter_comm, List.filter_filter]
  exact h p

theorem Rearranged.symm (h : Rearranged rules rules') : Rearranged rules' rules :=
  fun p => (h p).symm

/-- Sorting makes rules neither come nor go. -/
@[simp] theorem inOrder_eq_nil_iff : inOrder rules = [] ↔ rules = [] :=
  ⟨fun h => (h ▸ inOrder_perm rules).symm.eq_nil, fun h => h ▸ inOrder_nil⟩

end Rule

namespace Engine

variable {engine : Engine} {policy : ScorePolicy} {rules rules' : List Rule} {c : Case}

/-- Rearranged rules decide alike unless one list is empty and the other is not. -/
theorem decideUnder_rearranged (h : Rule.Rearranged rules rules')
    (hnil : rules = [] ↔ rules' = []) :
    engine.decideUnder policy rules c = engine.decideUnder policy rules' c := by
  by_cases hne : rules = []
  · rw [hne, hnil.mp hne]
  · have hruns : engine.runRules rules c = engine.runRules rules' c := by
      rw [runRules, runRules, h.enabledInOrder]
    rw [decideUnder_of_ne_nil hne, decideUnder_of_ne_nil (mt hnil.mpr hne), hruns]

/-- **NO RULES** at all are another reason than no rule that decides. -/
theorem reasonCodes_of_rearranged_nil (h : Rule.Rearranged [] rules) (hne : rules ≠ []) :
    (engine.decideUnder policy rules c).verdict.reasonCodes = [Verdict.noDecisiveRules] := by
  have happlied : engine.appliedRules rules c = [] := by
    rw [appliedRules, ← h.enabledInOrder, Rule.inOrder_nil]
    rfl
  rw [decideUnder_verdict engine policy hne, happlied, Verdict.afterRules_nil]
  rfl

theorem decide_nil_ne (h : Rule.Rearranged [] rules) (hne : rules ≠ []) :
    engine.decide [] c ≠ engine.decide rules c := by
  intro heq
  have hreasons := congrArg (fun e => e.verdict.reasonCodes) heq
  dsimp only [decide] at hreasons
  rw [reasonCodes_of_rearranged_nil h hne] at hreasons
  have hnames : [Verdict.noRules] ≠ [Verdict.noDecisiveRules] := by decide
  exact hnames hreasons

/-- **AUTHORING ORDER.** Two lists with the same enabled rules, those of each priority in the same
order, decide every case alike, with the same trace and the same probes; only a list without any
rules differs from one that has nothing but disabled ones. A catalog decides as the list does that
it was made of, whatever its domain. -/
theorem decide_authoring (engine : Engine) (c : Case) :
    (∀ rules rules' : List Rule, Rule.Rearranged rules rules' →
      (engine.decide rules c = engine.decide rules' c ↔ (rules = [] ↔ rules' = []))) ∧
    ∀ (domain : String) (rules : List Rule),
      engine.decideByCatalog (Catalog.ofRules domain rules) c = engine.decide rules c := by
  constructor
  · intro rules rules' h
    refine ⟨?_, decideUnder_rearranged h⟩
    intro heq
    constructor
    · rintro rfl
      exact Decidable.byContradiction fun hne => decide_nil_ne h hne heq
    · rintro rfl
      exact Decidable.byContradiction fun hne => decide_nil_ne h.symm hne heq.symm
  · intro domain rules
    -- a sorted list is a rearrangement of the list that it was sorted from
    have hsorted : Rule.Rearranged (Rule.inOrder rules) rules := by
      intro p
      rw [← List.filter_filter, ← List.filter_filter, Rule.filter_inOrder]
    exact decideUnder_rearranged hsorted Rule.inOrder_eq_nil_iff

/-- Two rules change places and a disabled one is put between them. -/
theorem decide_authoring_exchanged :
    let early : Rule := ⟨"R-EARLY", none, none, true, 1, none, [Action.addFlag "NIGHT"]⟩
    let late : Rule := ⟨"R-LATE", none, none, true, 2, none, [Action.setDecision "DENY" "DRAIN"]⟩
    let off : Rule := ⟨"R-OFF", none, none, false, 2, none, [Action.setDecision "REVIEW" "OLD"]⟩
    let engine : Engine := { tracing := true }
    let c : Case := ⟨.mk "Transfer" [], 0.5, [], none⟩
    Rule.Rearranged [late, early] [early, off, late] ∧
      engine.decide [late, early] c = engine.decide [early, off, late] c := by
  intro early late off engine c
  have h : Rule.Rearranged [late, early] [early, off, late] := by
    intro p
    by_cases hearly : 1 = p
    · subst hearly
      rfl
    · simp [List.filter_cons, early, late, off, hearly]
  exact ⟨h, ((decide_authoring engine c).1 _ _ h).mpr (by simp)⟩

end Engine

end RiskDecision
