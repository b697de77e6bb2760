import RiskDecision.Proofs.Engine.Account
import RiskDecision.Proofs.Service.Sources
import RiskDecision.Proofs.Verdict.Bounds

/-!
# Scores in runs of a service

The settings clamp the scores of some domains. They do so by way of the catalogs: whichever way a
catalog is loaded, it is published with the policy of its domain unless it has one of its own. So
what can be said of a score follows from which catalog was loaded last, and holds after every run.
-/

namespace RiskDecision

namespace Engine

/-- The points that the rules which apply to a case add to its score, in their order. -/
def points (engine : Engine) (rules : List Rule) (c : Case) : List Float :=
  ((engine.appliedRules rules c).flatMap (·.actions)).filterMap Action.points?

/-- The scores of a verdict in terms of the rules that apply. -/
theorem scores_decideUnder (engine : Engine) (policy : ScorePolicy) (rules : List Rule) (c : Case) :
    let v := (engine.decideUnder policy rules c).verdict
    v.triggered = (engine.appliedRules rules c).map (·.id) ∧ v.originalScore = c.score ∧
      v.adjustedScore = policy.applySums c.score (engine.points rules c) := by
  by_cases hne : rules = []
  · subst hne
    rw [points, appliedRules, Rule.inOrder_nil]
    exact ⟨rfl, rfl, rfl⟩
  · rw [decideUnder_verdict engine policy hne c, Verdict.settle_frame]
    exact ⟨List.nil_append _, rfl, rfl⟩

end Engine

namespace Service

variable {s : Service}

/-- How the scores of a verdict for a domain come about, given the catalog that was loaded for it
and the points that were added. -/
structure Scored (settings : Settings) (domain : String) (catalog : Catalog) (points : List Float)
    (v : Verdict) : Prop where
  unadjusted : points = [] → v.adjustedScore = v.originalScore
  /-- The policy of the catalog wins over the settings. -/
  own : ∀ policy, catalog.policy = some policy →
    v.adjustedScore = policy.applySums v.originalScore points
  clamped : catalog.policy = none → settings.clamps (Text.normalize domain) = true →
    points ≠ [] → ScorePolicy.Within settings.scoreMin settings.scoreMax v.adjustedScore
  /-- The points are added from left to right. -/
  plain : catalog.policy = none → settings.clamps (Text.normalize domain) = false →
    v.adjustedScore = points.foldl (· + ·) v.originalScore

/-! ## One evaluation -/

theorem scored_of_applySums {settings : Settings} (bounds : settings.scoreMin ≤ settings.scoreMax)
    {domain : String} {catalog : Catalog} (named : catalog.domain = .ofText domain)
    {points : List Float} {v : Verdict}
    (h : v.adjustedScore = ((catalog.policy.or (settings.policyFor? catalog.domain)).getD
      .unclamped).applySums v.originalScore points) :
    Scored settings domain catalog points v := by
  rw [named, Settings.policyFor?] at h
  refine ⟨?_, ?_, ?_, ?_⟩
  · rintro rfl
    exact h
  · intro policy hpolicy
    rw [h, hpolicy]
    rfl
  · intro hpolicy hclamps hne
    rw [h, hpolicy, Option.none_or, DomainName.text_ofText, if_pos hclamps]
    exact ScorePolicy.within_applySums_clamped bounds _ hne
  · intro hpolicy hclamps
    rw [h, hpolicy, Option.none_or, DomainName.text_ofText, if_neg (by simp [hclamps])]
    exact ScorePolicy.applySums_unclamped _ _

/-- **ONE EVALUATION** by a catalog that was published for a domain. -/
theorem scored_decideByCatalog (bounds : s.settings.scoreMin ≤ s.settings.scoreMax)
    {domain : String} {catalog : Catalog} (named : catalog.domain = .ofText domain) (c : Case) :
    let v := (s.engine.decideByCatalog (s.withDomainPolicy catalog) c).verdict
    v.triggered = (s.engine.appliedRules catalog.rules c).map (·.id) ∧
      v.originalScore = c.score ∧
      Scored s.settings domain catalog (s.engine.points catalog.rules c) v := by
  intro v
  obtain ⟨htriggered, horiginal, hadjusted⟩ :
      v.triggered = (s.engine.appliedRules (s.withDomainPolicy catalog).rules c).map (·.id) ∧
        v.originalScore = c.score ∧
        v.adjustedScore = ((s.withDomainPolicy catalog).policy.getD .unclamped).applySums c.score
          (s.engine.points (s.withDomainPolicy catalog).rules c) :=
    s.engine.scores_decideUnder _ _ c
  rw [rules_withDomainPolicy] at htriggered hadjusted
  rw [policy_withDomainPolicy, ← horiginal] at hadjusted
  exact ⟨htriggered, horiginal, scored_of_applySums bounds named hadjusted⟩

/-! ## Catalogs without a policy of their own -/

/-- The call brings no catalog with a policy of its own. What is read never has one. -/
def Call.Plain : Call → Prop
  | .loadCatalog c => c.policy = none
  | .loadBundle b => ∃ e payload, Bundle.ofJsonBy e payload = .ok b
  | _ => True

theorem Call.Plain.read {call : Call} (h : call.Plain) : call.Read := by
  cases call with
  | loadBundle b => exact h
  | _ => trivial

theorem Call.Plain.policy {call : Call} (h : call.Plain) : ∀ c ∈ call.loads, c.1.policy = none := by
  intro c hc
  rcases h.read.loads hc with ⟨rfl, -⟩ | ⟨domain, entries, rfl⟩
  · exact h
  · rfl

theorem policy_of_allLoads {calls : List Call} (h : ∀ call ∈ calls, call.Plain) :
    ∀ c ∈ Call.allLoads calls, c.policy = none := by
  intro c hc
  obtain ⟨loaded, hloaded, rfl⟩ := List.mem_map.mp hc
  obtain ⟨call, hcall, hmem⟩ := List.mem_flatMap.mp hloaded
  exact (h call hcall).policy loaded hmem

/-! ## Runs -/

/-- **SCORES IN RUNS.** If an evaluation comes to a verdict after some calls of a fresh service,
the catalog that was loaded last for the domain decides how its score comes about: by its own policy
if it has one, which what was read never has, else within the bounds of the settings or as a plain
sum, according to whether the settings clamp the domain. -/
theorem score_of_verdict {settings : Settings} (bounds : settings.scoreMin ≤ settings.scoreMax)
    (calls : List Call) {call : Call} {domain : String} {given : Option Case}
    (evaluation : call.evaluation? = some (domain, given)) {v : Verdict} {s' : Service}
    (verdict : call.operation.run ((start settings).afterCalls calls) = .ok (.verdict v) s') :
    ∃ catalog c, Catalog.lastOf? (.ofText domain) (Call.allLoads calls) = some catalog ∧
      given = some c ∧ v.originalScore = c.score ∧
      v.triggered = ((start settings).engine.appliedRules catalog.rules c).map (·.id) ∧
      Scored settings domain catalog ((start settings).engine.points catalog.rules c) v ∧
      ((∀ call ∈ calls, call.Plain) → catalog.policy = none) := by
  obtain ⟨isOpen, hevaluated⟩ := evaluated_of_verdict evaluation verdict
  have hengine : ((start settings).afterCalls calls).engine = (start settings).engine := by
    rw [engine, engine, settings_afterCalls]
  cases hevaluated with
  | @verdict published found c =>
      rw [get?_afterCalls_start settings isOpen] at found
      obtain ⟨catalog, hlast, rfl⟩ := Option.map_eq_some_iff.mp found
      obtain ⟨hmem, named⟩ := Catalog.mem_of_lastOf? hlast
      obtain ⟨htriggered, horiginal, hscored⟩ :=
        scored_decideByCatalog (s := start settings) bounds named c
      rw [hengine]
      exact ⟨catalog, c, hlast, rfl, horiginal, htriggered, hscored,
        fun plain => policy_of_allLoads plain catalog hmem⟩

/-- A rule that would raise the score beyond the bounds. -/
theorem score_of_verdict_raised :
    let raising : Rule :=
      ⟨"R-RAISE", none, none, true, 0, none, [⟨.adjustScore, .number 0.75, none⟩]⟩
    let settings : Settings := { clampAll := true }
    let calls := [Call.loadCatalog (Catalog.ofRules "bank" [raising])]
    let c : Case := ⟨.mk "Transfer" [], 0.5, [], none⟩
    settings.scoreMin ≤ settings.scoreMax ∧
      ∃ v s', (Call.evaluateCase " Bank" c).operation.run ((start settings).afterCalls calls)
          = .ok (.verdict v) s' ∧
        ScorePolicy.Within settings.scoreMin settings.scoreMax v.adjustedScore := by
  intro raising settings calls c
  have bounds : settings.scoreMin ≤ settings.scoreMax := by decide +kernel
  have evaluation : (Call.evaluateCase " Bank" c).evaluation? = some (" Bank", some c) := rfl
  obtain ⟨v, s', hverdict⟩ : ∃ v s', (Call.evaluateCase " Bank" c).operation.run
      ((start settings).afterCalls calls) = .ok (.verdict v) s' := ⟨_, _, rfl⟩
  obtain ⟨catalog, c', hlast, hcase, -, -, hscored, hplain⟩ :=
    score_of_verdict bounds calls evaluation hverdict
  have hloaded : Catalog.lastOf? (.ofText " Bank") (Call.allLoads calls)
      = some (Catalog.ofRules "bank" [raising]) := rfl
  obtain rfl := Option.some.inj (hloaded.symm.trans hlast)
  obtain rfl := Option.some.inj hcase
  have hplainCalls : ∀ call ∈ calls, call.Plain := by
    intro call hcall
    obtain rfl := List.mem_singleton.mp hcall
    exact rfl
  have hpoints : (start settings).engine.points (Catalog.ofRules "bank" [raising]).rules c ≠ [] := by
    decide +kernel
  exact ⟨bounds, v, s', hverdict, hscored.clamped (hplain hplainCalls) rfl hpoints⟩

end Service

end RiskDecision
