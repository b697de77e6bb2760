import RiskDecision.Proofs.Catalog.Payload
import RiskDecision.Proofs.Rule.Order
import RiskDecision.Proofs.Service.Operation

/-!
# Loads are all or nothing

A load either fails, and then the service is exactly what it was, or it succeeds, and then only the
domains that it is about have other catalogs than before. Which of both happens depends on the
source alone: on whether there is an array to be read. What is not an array is never taken for an
empty catalog.
-/

namespace RiskDecision.Service

variable {s : Service}

/-- How an operation ends whose source has an input for it or none: without an input it fails and
leaves the service alone, with one it succeeds and has its effect. -/
inductive AllOrNothing {ε σ α : Type} (s : Service) (effect : σ → α → Service → Prop) :
    Option σ → EStateM.Result ε Service α → Prop
  | nothing (fault : ε) : AllOrNothing s effect none (.error fault s)
  | all {input : σ} {value : α} {s' : Service} (h : effect input value s') :
    AllOrNothing s effect (some input) (.ok value s')

/-- The catalog that the entries of a domain make under the settings: it has the rules that are
accepted, in their one order, and the policy of the domain. -/
structure MadeOf (settings : Settings) (domain : String) (entries : List Json) (c : Catalog) :
    Prop where
  rules : Rule.StableOrder (entries.filterMap Catalog.accepted?) c.rules
  policy : c.policy = settings.policyFor? (.ofText domain)
  named : c.domain = .ofText domain

/-- The domain has a catalog made of the entries, as reported, and no other domain has another
catalog than before. -/
structure Replaced (s : Service) (domain : String) (entries : List Json) (report : LoadReport)
    (s' : Service) : Prop where
  published : ∃ c, s'.store.get? domain = some c ∧ MadeOf s.settings domain entries c ∧
    report.loaded = c.size
  reported : report.domain = .ofText domain
  others : ∀ other, Text.normalize other ≠ Text.normalize domain →
    s'.store.get? other = s.store.get? other
  settings : s'.settings = s.settings
  isOpen : s'.closed = false

/-- The domains for which rule members bring an array have catalogs made of one, and no other domain
has another catalog than before. -/
structure Merged (s : Service) (members : List (String × Json)) (s' : Service) : Prop where
  published : ∀ domain, Bundle.arraysFor domain members ≠ [] →
    ∃ c, s'.store.get? domain = some c ∧
      ∃ entries ∈ Bundle.arraysFor domain members, MadeOf s.settings domain entries c
  others : ∀ other, Bundle.arraysFor other members = [] →
    s'.store.get? other = s.store.get? other
  settings : s'.settings = s.settings
  isOpen : s'.closed = false

/-! ## The catalog of entries -/

/-- The catalog that is published for the entries of a domain. -/
def catalogFor (s : Service) (domain : String) (entries : List Json) : Catalog :=
  s.withDomainPolicy (Catalog.ofEntries domain entries).1

theorem madeOf_catalogFor (s : Service) (domain : String) (entries : List Json) :
    MadeOf s.settings domain entries (s.catalogFor domain entries) where
  rules := by
    rw [catalogFor, rules_withDomainPolicy]
    exact Rule.stableOrder_inOrder _
  policy := policy_withDomainPolicy s _
  named := domain_withDomainPolicy s _

/-! ## One domain -/

theorem replaced_withCatalog (isOpen : s.closed = false) (domain : String) (entries : List Json) :
    s.Replaced domain entries (Catalog.ofEntries domain entries).2
      (s.withCatalog (Catalog.ofEntries domain entries)) := by
  have hmade := madeOf_catalogFor s domain entries
  have hget : ∀ spelling, (s.withCatalog (Catalog.ofEntries domain entries)).store.get? spelling
      = if DomainName.ofText domain = .ofText spelling then some (s.catalogFor domain entries)
        else s.store.get? spelling := by
    intro spelling
    rw [← hmade.named]
    exact Store.get?_publish s.store (s.catalogFor domain entries) spelling
  have hsize : (Catalog.ofEntries domain entries).2.loaded = (s.catalogFor domain entries).size := by
    show (entries.filterMap Catalog.accepted?).length = (s.catalogFor domain entries).rules.length
    rw [hmade.rules.unique (Rule.stableOrder_inOrder _)]
    exact (Rule.inOrder_perm _).length_eq.symm
  refine ⟨⟨s.catalogFor domain entries, ?_, hmade, hsize⟩, rfl, ?_, rfl, isOpen⟩
  · rw [hget, if_pos rfl]
  · intro other hne
    rw [hget, if_neg (fun h => hne (DomainName.ofText_eq_iff.mp h).symm)]

/-- A load from a source that has a catalog exactly if it lists entries. -/
theorem allOrNothing_loaded {ε : Type} (isOpen : s.closed = false) {domain : String}
    {input : Option (List Json)} {source : Except ε (Catalog × LoadReport)}
    (h : source.toOption = input.map (Catalog.ofEntries domain)) :
    AllOrNothing s (s.Replaced domain) input (s.loaded source) := by
  cases input with
  | none =>
      cases source with
      | error fault => exact .nothing fault
      | ok c => exact nomatch h
  | some entries =>
      cases source with
      | error fault => exact nomatch h
      | ok c =>
          obtain rfl : c = Catalog.ofEntries domain entries := Option.some.inj h
          exact .all (replaced_withCatalog isOpen domain entries)

/-- The entries that a file lists, if it is there and can be read. -/
def entriesOfFile? (entry : Option Entry) : Option (List Json) :=
  (entry.bind Entry.text?).bind Catalog.entriesOf?

theorem toOption_catalogOfFile (name : String) (entry : Option Entry) :
    (catalogOfFile name entry).toOption
      = (entriesOfFile? entry).map (Catalog.ofEntries (Path.stem name)) := by
  rw [catalogOfFile, entriesOfFile?]
  cases entry.bind Entry.text? with
  | none => rfl
  | some text =>
      dsimp only
      rw [Option.bind_some, ← Catalog.toOption_ofText]
      cases Catalog.ofText (Path.stem name) text <;> rfl

/-! ## Payloads -/

/-- Loads the catalogs of a payload whose rule members are gone through in some way. -/
def loadPayload (e : Enumeration) (payload : Json) : Operation Fault (List LoadReport) := do
  let b ← ofExcept (Bundle.ofJsonBy e payload)
  loadBundle b

theorem run_loadPayload_of_some (isOpen : s.closed = false) (e : Enumeration) {payload : Json}
    {members : List (String × Json)} (h : Bundle.members? payload = some members) :
    (loadPayload e payload).run s
      = .ok ((Bundle.ofEntries (e.order members)).catalogs.map Prod.snd)
          (s.withCatalogs (Bundle.ofEntries (e.order members)).catalogs) := by
  rw [loadPayload, EStateM.run_bind, Bundle.ofJsonBy_of_some h e, run_ofExcept]
  exact run_loadBundle isOpen _

theorem run_loadPayload_of_none (s : Service) (e : Enumeration) {payload : Json}
    (h : Bundle.members? payload = none) : ∃ f, (loadPayload e payload).run s = .error f s := by
  obtain ⟨f, hf⟩ := Bundle.ofJsonBy_of_none h e
  refine ⟨f, ?_⟩
  rw [loadPayload, EStateM.run_bind, hf, run_ofExcept]

/-- **THE CATALOG IN FORCE** after rule members were loaded one after the other is that of the last
array for the domain. -/
theorem get?_withCatalogs_ofEntries (s : Service) (members : List (String × Json))
    (domain : String) :
    (s.withCatalogs (Bundle.ofEntries members).catalogs).store.get? domain
      = ((Bundle.arraysFor domain members).getLast?.map (s.catalogFor domain)).or
          (s.store.get? domain) := by
  have hpublished : (Bundle.ofEntries members).catalogs.map (fun c => s.withDomainPolicy c.1)
      = ((Bundle.ofEntries members).catalogs.map Prod.fst).map s.withDomainPolicy := by
    rw [List.map_map]
    rfl
  rw [store_withCatalogs, hpublished, Store.get?_publishEach,
    Catalog.lastOf?_map (domain_withDomainPolicy s), Bundle.lastOf?_ofEntries, Option.map_map]
  rfl

theorem merged_withCatalogs (isOpen : s.closed = false) (e : Enumeration)
    (members : List (String × Json)) :
    s.Merged members (s.withCatalogs (Bundle.ofEntries (e.order members)).catalogs) := by
  have harrays : ∀ domain, (Bundle.arraysFor domain (e.order members)).Perm
      (Bundle.arraysFor domain members) :=
    fun domain => Bundle.arraysFor_perm domain (e.perm members)
  refine ⟨?_, ?_, settings_withCatalogs s _, (closed_withCatalogs s _).trans isOpen⟩
  · intro domain hne
    have hlast : Bundle.arraysFor domain (e.order members) ≠ [] := by
      intro hnil
      have hperm := harrays domain
      rw [hnil] at hperm
      exact hne hperm.symm.eq_nil
    refine ⟨s.catalogFor domain ((Bundle.arraysFor domain (e.order members)).getLast hlast), ?_,
      _, (harrays domain).mem_iff.mp (List.getLast_mem hlast), madeOf_catalogFor s domain _⟩
    rw [get?_withCatalogs_ofEntries, List.getLast?_eq_some_getLast hlast]
    rfl
  · intro other hnil
    have hperm := harrays other
    rw [hnil] at hperm
    rw [get?_withCatalogs_ofEntries, hperm.eq_nil]
    rfl

theorem allOrNothing_loadPayload (isOpen : s.closed = false) (e : Enumeration) (payload : Json) :
    AllOrNothing s (fun members _ s' => s.Merged members s') (Bundle.members? payload)
      ((loadPayload e payload).run s) := by
  cases hmembers : Bundle.members? payload with
  | none =>
      obtain ⟨f, hf⟩ := run_loadPayload_of_none s e hmembers
      rw [hf]
      exact .nothing f
  | some members =>
      rw [run_loadPayload_of_some isOpen e hmembers]
      exact .all (merged_withCatalogs isOpen e members)

/-- **LOADS ARE ALL OR NOTHING.** Loading a text or a file replaces the catalog of its domain if
there is an array to be read, and else fails and changes nothing. Loading a payload replaces the
catalogs of those domains that have an array in it, in whichever way its members are gone through,
and fails and changes nothing if the payload or its `rules` are of the wrong kind. -/
theorem loads_allOrNothing (isOpen : s.closed = false) :
    (∀ domain text, AllOrNothing s (s.Replaced domain) (Catalog.entriesOf? text)
      ((loadText domain text).run s)) ∧
    (∀ name entry, AllOrNothing s (s.Replaced (Path.stem name)) (entriesOfFile? entry)
      ((loadFile name entry).run s)) ∧
    (∀ e payload, AllOrNothing s (fun members _ s' => s.Merged members s')
      (Bundle.members? payload) ((loadPayload e payload).run s)) := by
  refine ⟨?_, ?_, allOrNothing_loadPayload isOpen⟩
  · intro domain text
    rw [run_loadText isOpen]
    exact allOrNothing_loaded isOpen (Catalog.toOption_ofText domain text)
  · intro name entry
    rw [run_loadFile isOpen]
    exact allOrNothing_loaded isOpen (toOption_catalogOfFile name entry)

/-- The identifiers of the rules that are in force for a domain. -/
def ruleIds (s : Service) (domain : String) : Option (List String) :=
  (s.store.get? domain).map fun c => c.rules.map (·.id)

/-- Two domains have catalogs in force. That of one is replaced by a text, by a file and by a
payload, each with an entry that is accepted and one that is not; for the other one the payload has
something else than an array. -/
theorem loads_allOrNothing_bank :
    let entries : List Json := [.object [("ruleId", .text "NEW")], .null]
    let text := "[\x7b\"ruleId\": \"NEW\"\x7d, null]"
    let members : List (String × Json) := [("Bank", .array entries), ("ecommerce", .text "off")]
    let s := ((start {}).after (loadCatalog (.ofRules "bank" [.named "OLD"]))).after
      (loadCatalog (.ofRules "ecommerce" [.named "KEPT"]))
    (s.ruleIds "bank" = some ["OLD"] ∧ s.ruleIds "ecommerce" = some ["KEPT"] ∧
      entries.filterMap Catalog.accepted? = [.named "NEW"]) ∧
    s.closed = false ∧
    AllOrNothing s (s.Replaced "Bank") (some entries) ((loadText "Bank" text).run s) ∧
    AllOrNothing s (s.Replaced "Bank") (some entries)
      ((loadFile "Bank.json" (some (.file text.toUTF8))).run s) ∧
    AllOrNothing s (fun members _ s' => s.Merged members s') (some members)
      ((loadPayload .byKey (.object [("rules", .object members)])).run s) := by
  intro entries text members s
  have isOpen : s.closed = false := rfl
  have htext : Catalog.entriesOf? text = some entries := by cbv
  have hfile : entriesOfFile? (some (.file text.toUTF8)) = some entries := by cbv
  have hstem : Path.stem "Bank.json" = "Bank" := by cbv
  obtain ⟨hloadText, hloadFile, hloadPayload⟩ := loads_allOrNothing isOpen
  refine ⟨⟨by decide +kernel, by decide +kernel, rfl⟩, isOpen, ?_, ?_, ?_⟩
  · rw [← htext]
    exact hloadText "Bank" text
  · rw [← hfile, ← hstem]
    exact hloadFile "Bank.json" _
  · exact hloadPayload .byKey (.object [("rules", .object members)])

end RiskDecision.Service
