import RiskDecision.Proofs.Service.Atomicity
import RiskDecision.Proofs.Service.Run

/-!
# Payloads with several spellings of a domain

Nothing is promised about the order in which the rule members of a payload come up. Where two keys
are spellings of one domain, the one that comes up last overwrites the other, so the order shows in
the catalogs that are in force afterwards. This file tells the payloads for which it does from those
for which it does not.
-/

namespace RiskDecision

/-- Whichever array for a domain comes last, its catalog is the same. -/
def Bundle.Unambiguous (members : List (String × Json)) : Prop :=
  ∀ key key' entries entries', (key, .array entries) ∈ members →
    (key', .array entries') ∈ members → Text.normalize key = Text.normalize key' →
    Rule.inOrder (entries.filterMap Catalog.accepted?)
      = Rule.inOrder (entries'.filterMap Catalog.accepted?)

namespace Enumeration

/-- The members in the opposite order. -/
def reversed : Enumeration := ⟨List.reverse, List.reverse_perm⟩

/-- Some of the members come after all others. -/
def endingWith (last : String × Json → Bool) : Enumeration where
  order members := (members.filter fun m => !last m) ++ members.filter last
  perm members := List.perm_append_comm.trans (List.filter_append_perm last members)

end Enumeration

namespace Bundle

/-- A member can be made to come last. -/
theorem getLast?_arraysFor_endingWith {domain key : String} {entries : List Json}
    {members : List (String × Json)} (hmem : (key, .array entries) ∈ members)
    (hkey : Text.normalize key = Text.normalize domain) {last : String × Json → Bool}
    (hlast : ∀ m, last m = true ↔ m = (key, .array entries)) :
    (arraysFor domain ((Enumeration.endingWith last).order members)).getLast? = some entries := by
  have hsome : entries ∈ arraysFor domain (members.filter last) :=
    mem_arraysFor.mpr ⟨key, List.mem_filter.mpr ⟨hmem, (hlast _).mpr rfl⟩, hkey⟩
  have hall : ∀ other ∈ arraysFor domain (members.filter last), other = entries := by
    intro other hother
    obtain ⟨key', hmem', -⟩ := mem_arraysFor.mp hother
    have heq := (hlast _).mp (List.mem_filter.mp hmem').2
    exact Json.array.inj (congrArg Prod.snd heq)
  have hne : arraysFor domain (members.filter last) ≠ [] := List.ne_nil_of_mem hsome
  rw [Enumeration.endingWith, arraysFor_append, List.getLast?_append,
    List.getLast?_eq_some_getLast hne, hall _ (List.getLast_mem hne)]
  rfl

end Bundle

namespace Service

variable {s : Service}

/-- Entries with the same rules in order make the same catalog. -/
theorem catalogFor_eq_iff {domain : String} {entries entries' : List Json} :
    s.catalogFor domain entries = s.catalogFor domain entries' ↔
      Rule.inOrder (entries.filterMap Catalog.accepted?)
        = Rule.inOrder (entries'.filterMap Catalog.accepted?) := by
  constructor
  · intro h
    have hrules := congrArg Catalog.rules h
    rw [catalogFor, catalogFor, rules_withDomainPolicy, rules_withDomainPolicy] at hrules
    exact hrules
  · intro h
    have hcatalog : (Catalog.ofEntries domain entries).1 = (Catalog.ofEntries domain entries').1 := by
      simp only [Catalog.ofEntries, Catalog.ofRules, h]
    rw [catalogFor, catalogFor, hcatalog]

/-- The catalogs in force after a payload was loaded. -/
theorem get?_after_loadPayload (isOpen : s.closed = false) (e : Enumeration) {payload : Json}
    {members : List (String × Json)} (h : Bundle.members? payload = some members)
    (domain : String) :
    (s.after (loadPayload e payload)).store.get? domain
      = ((Bundle.arraysFor domain (e.order members)).getLast?.map (s.catalogFor domain)).or
          (s.store.get? domain) := by
  rw [after_of_ok (run_loadPayload_of_some isOpen e h), get?_withCatalogs_ofEntries]

/-- A payload of the wrong kind changes nothing in any way. -/
theorem after_loadPayload_of_none (s : Service) (e : Enumeration) {payload : Json}
    (h : Bundle.members? payload = none) : s.after (loadPayload e payload) = s := by
  obtain ⟨f, hf⟩ := run_loadPayload_of_none s e h
  exact after_of_error hf

/-- The last array for a domain makes one and the same catalog, however the members are gone
through. -/
theorem map_catalogFor_getLast? {members : List (String × Json)}
    (unambiguous : Bundle.Unambiguous members) (e e' : Enumeration) (domain : String) :
    (Bundle.arraysFor domain (e.order members)).getLast?.map (s.catalogFor domain)
      = (Bundle.arraysFor domain (e'.order members)).getLast?.map (s.catalogFor domain) := by
  have hperm : (Bundle.arraysFor domain (e.order members)).Perm
      (Bundle.arraysFor domain (e'.order members)) :=
    Bundle.arraysFor_perm domain ((e.perm members).trans (e'.perm members).symm)
  have hkey : ∀ {e : Enumeration} {entries : List Json},
      entries ∈ Bundle.arraysFor domain (e.order members) →
      ∃ key, (key, .array entries) ∈ members ∧ Text.normalize key = Text.normalize domain := by
    intro e entries hentries
    obtain ⟨key, hmem, hkey⟩ := Bundle.mem_arraysFor.mp hentries
    exact ⟨key, (e.perm members).mem_iff.mp hmem, hkey⟩
  cases h : (Bundle.arraysFor domain (e.order members)).getLast? with
  | none =>
      rw [List.getLast?_eq_none_iff] at h
      rw [h] at hperm
      rw [hperm.symm.eq_nil]
      rfl
  | some entries =>
      cases h' : (Bundle.arraysFor domain (e'.order members)).getLast? with
      | none =>
          rw [List.getLast?_eq_none_iff] at h'
          rw [h'] at hperm
          rw [hperm.eq_nil] at h
          exact nomatch h
      | some entries' =>
          obtain ⟨key, hmem, hnormal⟩ := hkey (List.mem_of_getLast? h)
          obtain ⟨key', hmem', hnormal'⟩ := hkey (List.mem_of_getLast? h')
          have hrules := unambiguous key key' entries entries' hmem hmem'
            (hnormal.trans hnormal'.symm)
          rw [Option.map_some, Option.map_some, catalogFor_eq_iff.mpr hrules]

/-- **ORDER SHOWS** exactly in payloads with two arrays for one domain that make different
catalogs. -/
theorem loadPayload_order_free_iff (isOpen : s.closed = false) (payload : Json) :
    (∀ (e e' : Enumeration) (domain : String),
      (s.after (loadPayload e payload)).store.get? domain
        = (s.after (loadPayload e' payload)).store.get? domain) ↔
      ∀ members, Bundle.members? payload = some members → Bundle.Unambiguous members := by
  constructor
  · intro same members hmembers key key' entries entries' hmem hmem' hkey
    classical
    -- each of the two arrays is made to come last once
    have hlast := same (.endingWith fun m => decide (m = (key, .array entries)))
      (.endingWith fun m => decide (m = (key', .array entries'))) key
    rw [get?_after_loadPayload isOpen _ hmembers, get?_after_loadPayload isOpen _ hmembers,
      Bundle.getLast?_arraysFor_endingWith hmem rfl (by simp),
      Bundle.getLast?_arraysFor_endingWith hmem' hkey.symm (by simp)] at hlast
    exact catalogFor_eq_iff.mp (Option.some.inj hlast)
  · intro unambiguous e e' domain
    cases hmembers : Bundle.members? payload with
    | none =>
        rw [after_loadPayload_of_none s e hmembers, after_loadPayload_of_none s e' hmembers]
    | some members =>
        rw [get?_after_loadPayload isOpen e hmembers, get?_after_loadPayload isOpen e' hmembers,
          map_catalogFor_getLast? (unambiguous members hmembers) e e' domain]

/-- Two spellings of a domain do no harm where both arrays have the same rules, whatever else is in
them. -/
theorem loadPayload_order_free_bank :
    let rule : Json := .object [("ruleId", .text "NEW")]
    let payload := .object [("rules",
      .object [("BANK", .array [rule, .null]), ("bank", .array [rule])])]
    let s := (start {}).after (loadCatalog (.ofRules "bank" [.named "OLD"]))
    (s.ruleIds "bank" = some ["OLD"] ∧
      (s.after (loadPayload .byKey payload)).ruleIds "bank" = some ["NEW"]) ∧
    s.closed = false ∧
    ∀ (e e' : Enumeration) (domain : String),
      (s.after (loadPayload e payload)).store.get? domain
        = (s.after (loadPayload e' payload)).store.get? domain := by
  intro rule payload s
  have isOpen : s.closed = false := rfl
  refine ⟨⟨by decide +kernel, by decide +kernel⟩, isOpen,
    (loadPayload_order_free_iff isOpen payload).mpr ?_⟩
  intro members hmembers key key' entries entries' hmem hmem' _
  obtain rfl := Option.some.inj hmembers
  have hrules : ∀ {key : String} {entries : List Json},
      (key, Json.array entries) ∈ [("BANK", .array [rule, .null]), ("bank", .array [rule])] →
      entries.filterMap Catalog.accepted? = [.named "NEW"] := by
    intro key entries hmem
    rcases List.mem_cons.mp hmem with heq | hmem
    · cases heq
      rfl
    · cases List.mem_singleton.mp hmem
      rfl
  rw [hrules hmem, hrules hmem']

/-- A payload that spells a domain in two ways. -/
def spelledTwice : Json :=
  .object [("rules", .object [
    ("BANK", .array [.object [("ruleId", .text "B")]]),
    ("bank", .array [.object [("ruleId", .text "A")]])])]

/-- Which rules are in force after it was loaded depends on the way it is gone through. -/
theorem ruleIds_after_spelledTwice :
    ((start {}).after (loadPayload .byKey spelledTwice)).ruleIds "bank" = some ["A"] ∧
      ((start {}).after (loadPayload .reversed spelledTwice)).ruleIds "bank" = some ["B"] := by
  constructor <;> decide +kernel

end Service

end RiskDecision
