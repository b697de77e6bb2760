import RiskDecision.Proofs.Service.History

/-!
# Which domains have their scores clamped

The settings name the domains whose catalogs are given bounds for scores. A catalog keeps its domain
in the normal form, trimmed and in lower case, and is found under every spelling of it. An entry of
the settings is compared with that form as it stands, without regard to case but not to blanks, so
an entry is good for its domain exactly if there are no blanks around it (`sameIgnoringCase_iff`).
That decides how every loaded catalog is published, whatever happened to the service before
(`published_after_load`).
-/

namespace RiskDecision

namespace Text

theorem trimChars_sublist (cs : List Char) : (trimChars cs).Sublist cs := by
  have hend : (dropTrailingBlanks (cs.dropWhile isBlank)).Sublist (cs.dropWhile isBlank) :=
    List.reverse_sublist.mp (by
      rw [dropTrailingBlanks, List.reverse_reverse]
      exact List.dropWhile_sublist _)
  exact hend.trans (List.dropWhile_sublist _)

/-- The case of its letters does not decide whether a text has blanks around it. -/
theorem trim_lower_eq_self_iff {s : String} : trim (lower s) = lower s ↔ trim s = s := by
  rw [trim_lower]
  constructor
  · intro h
    -- lowering keeps the length, and a part of full length is the whole
    have hlength : (trimChars s.toList).length = s.toList.length := by
      have := congrArg (fun t => t.toList.length) h
      simpa [lower, trim] using this
    rw [trim, (trimChars_sublist s.toList).eq_of_length hlength, String.ofList_toList]
  · intro h
    rw [h]

end Text

namespace DomainName

/-- **ENTRIES**: a text is a domain name but for the case of its letters if it names the domain and
has no blanks around it. -/
theorem sameIgnoringCase_iff {e : String} {d : DomainName} :
    Text.sameIgnoringCase e d.text = true ↔ Text.trim e = e ∧ ofText e = d := by
  rw [Text.sameIgnoringCase, beq_iff_eq, d.lower_text]
  constructor
  · intro h
    have htrim : Text.trim e = e := by
      rw [← Text.trim_lower_eq_self_iff, h, d.trim_text]
    exact ⟨htrim, ext (by rw [text_ofText, Text.normalize, htrim, h])⟩
  · rintro ⟨htrim, rfl⟩
    rw [text_ofText, Text.normalize, htrim]

end DomainName

namespace Settings

/-- Some entry is the name of the domain, up to the case of its letters. -/
def Lists (settings : Settings) (domain : DomainName) : Prop :=
  ∃ e ∈ settings.clampDomains, Text.trim e = e ∧ DomainName.ofText e = domain

theorem clamps_iff {settings : Settings} {domain : DomainName} :
    settings.clamps domain.text = true ↔ settings.clampAll = true ∨ settings.Lists domain := by
  rw [clamps, Bool.or_eq_true, List.any_eq_true, Lists]
  simp only [DomainName.sameIgnoringCase_iff]

theorem policyFor?_of_clamps {settings : Settings} {domain : DomainName}
    (h : settings.clampAll = true ∨ settings.Lists domain) :
    settings.policyFor? domain = some (.clamped settings.scoreMin settings.scoreMax) :=
  if_pos (clamps_iff.mpr h)

theorem policyFor?_of_not_clamps {settings : Settings} {domain : DomainName}
    (h : ¬ (settings.clampAll = true ∨ settings.Lists domain)) :
    settings.policyFor? domain = none :=
  if_neg fun hclamps => h (clamps_iff.mp hclamps)

end Settings

namespace Service

variable {s : Service}

/-- How a loaded catalog is published under some settings. -/
structure PublishedAs (settings : Settings) (loaded published : Catalog) : Prop where
  domain : published.domain = loaded.domain
  rules : published.rules = loaded.rules
  /-- The policy of the catalog wins over the settings. -/
  own : ∀ policy, loaded.policy = some policy → published.policy = some policy
  clamped : loaded.policy = none → settings.clampAll = true ∨ settings.Lists loaded.domain →
    published.policy = some (.clamped settings.scoreMin settings.scoreMax)
  plain : loaded.policy = none → ¬ (settings.clampAll = true ∨ settings.Lists loaded.domain) →
    published.policy = none

/-- Only clamped domains are published with the bounds of the settings. -/
theorem PublishedAs.policy_iff {settings : Settings} {loaded published : Catalog}
    (h : PublishedAs settings loaded published) (unset : loaded.policy = none) :
    published.policy = some (.clamped settings.scoreMin settings.scoreMax) ↔
      settings.clampAll = true ∨ settings.Lists loaded.domain := by
  constructor
  · intro hpolicy
    by_contra hclamps
    rw [h.plain unset hclamps] at hpolicy
    exact nomatch hpolicy
  · exact h.clamped unset

/-- **ONE CATALOG** is published with the policy that the settings have for its domain. -/
theorem publishedAs_withDomainPolicy (s : Service) (c : Catalog) :
    PublishedAs s.settings c (s.withDomainPolicy c) where
  domain := domain_withDomainPolicy s c
  rules := rules_withDomainPolicy s c
  own policy h := by rw [policy_withDomainPolicy, h, Option.some_or]
  clamped h hclamps := by
    rw [policy_withDomainPolicy, h, Option.none_or, Settings.policyFor?_of_clamps hclamps]
  plain h hclamps := by
    rw [policy_withDomainPolicy, h, Option.none_or, Settings.policyFor?_of_not_clamps hclamps]

/-- **PUBLICATIONS.** Whatever has happened to a service that is open, a call publishes what it loads
under the settings that the service was started with. So a catalog without a policy of its own is
found with the bounds of the settings if they clamp everything or an entry names its domain that has
no blanks around it, and without a policy otherwise; an entry with blanks around it names its domain
in vain. -/
theorem published_after_load (settings : Settings) (events : List Event)
    (isOpen : ((start settings).afterEvents events).closed = false) {call : Call}
    (h : call.isShutdown = false) :
    let s := (start settings).afterEvents events
    (∃ published, (s.after call.operation).store = s.store.publishEach published ∧
      List.Forall₂ (PublishedAs settings) (call.loads.map Prod.fst) published) ∧
    ∀ spelling c, Catalog.lastOf? (.ofText spelling) (call.loads.map Prod.fst) = some c →
      ∃ p, (s.after call.operation).store.get? spelling = some p ∧ PublishedAs settings c p ∧
        (c.policy = none →
          (p.policy = some (.clamped settings.scoreMin settings.scoreMax) ↔
            settings.clampAll = true ∨ ∃ e ∈ settings.clampDomains,
              Text.normalize e = Text.normalize spelling ∧ Text.trim e = e)) := by
  intro s
  have hpublished : ∀ c, PublishedAs settings c (s.withDomainPolicy c) := by
    intro c
    have hs := publishedAs_withDomainPolicy s c
    rwa [settings_afterEvents] at hs
  have hstore := store_after_of_open isOpen h
  refine ⟨⟨_, hstore, ?_⟩, ?_⟩
  · rw [List.forall₂_map_right_iff, List.forall₂_same]
    intro c _
    exact hpublished c
  · intro spelling c last
    refine ⟨s.withDomainPolicy c, ?_, hpublished c, ?_⟩
    · rw [hstore, Store.get?_publishEach, Catalog.lastOf?_map (domain_withDomainPolicy s), last]
      rfl
    · intro hpolicy
      have hdomain : c.domain = .ofText spelling := (Catalog.mem_of_lastOf? last).2
      rw [(hpublished c).policy_iff hpolicy, hdomain, Settings.Lists]
      simp only [DomainName.ofText_eq_iff, and_comm]

/-- An entry in other letters. -/
theorem published_after_load_bank :
    let settings : Settings := { clampDomains := ["Bank"] }
    let call := Call.loadText " BANK " "[\x7b\"ruleId\":\"R\"\x7d]"
    ((start settings).afterEvents []).closed = false ∧ call.isShutdown = false ∧
      ∃ p, ((start settings).after call.operation).store.get? "bank" = some p ∧
        p.policy = some (.clamped 0 1) := by
  intro settings call
  have hloaded : (Catalog.lastOf? (.ofText "bank") (call.loads.map Prod.fst)).map
      (fun c => c.policy.isNone) = some true := by decide +kernel
  obtain ⟨c, hlast, hpolicy⟩ := Option.map_eq_some_iff.mp hloaded
  have hload : call.isShutdown = false := rfl
  obtain ⟨-, hfound⟩ := published_after_load settings [] rfl hload
  obtain ⟨p, hp, -, hclamped⟩ := hfound "bank" c hlast
  have hentry : ∃ e ∈ settings.clampDomains,
      Text.normalize e = Text.normalize "bank" ∧ Text.trim e = e :=
    ⟨"Bank", List.mem_singleton_self _, by decide +kernel, by decide +kernel⟩
  exact ⟨rfl, rfl, p, hp, (hclamped (Option.isNone_iff_eq_none.mp hpolicy)).mpr (Or.inr hentry)⟩

/-- A blank before the name keeps the domain from being clamped. -/
theorem unclamped_of_blank :
    let settings : Settings := { clampDomains := [" bank"] }
    let call := Call.loadText "bank" "[\x7b\"ruleId\":\"R\"\x7d]"
    (∃ e ∈ settings.clampDomains, Text.normalize e = Text.normalize "bank") ∧
      (((start settings).after call.operation).store.get? "bank").map (fun p => p.policy.isNone)
        = some true := by
  refine ⟨⟨" bank", List.mem_singleton_self _, ?_⟩, ?_⟩ <;> decide +kernel

end Service

end RiskDecision
