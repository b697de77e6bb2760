import Mathlib.Algebra.GroupWithZero.Nat
import RiskDecision.Proofs.Catalog.Relevance
import RiskDecision.Proofs.Catalog.Store

/-!
# A store is a finite map from domains to catalogs

A store is changed by writes: a catalog is published, a domain is withdrawn, or everything is. What
is found under a spelling afterwards is decided by the last write that concerns its domain, so the
store can be read off the list of its writes (`InForce`) without any thought of keys, spellings or
order. `Reflects` says this and everything else that can be asked of a store; the main statement,
`reflects_afterWrites`, is that every store reflects its writes.
-/

namespace RiskDecision

/-- A change of a store. -/
inductive Write
  | publish (c : Catalog)
  | remove (spelling : String)
  | clear

namespace Write

/-- The write is about the domain. -/
def Concerns (domain : DomainName) : Write → Prop
  | .publish c => c.domain = domain
  | .remove spelling => .ofText spelling = domain
  | .clear => True

instance (domain : DomainName) (w : Write) : Decidable (w.Concerns domain) :=
  match w with
  | .publish c => inferInstanceAs (Decidable (c.domain = domain))
  | .remove spelling => inferInstanceAs (Decidable (DomainName.ofText spelling = domain))
  | .clear => isTrue trivial

/-- The catalog that a domain has after a write that concerns it. -/
def catalog? : Write → Option Catalog
  | .publish c => some c
  | _ => none

end Write

/-- The catalog was published for the domain, and no later write concerns that domain. -/
def InForce (writes : List Write) (domain : DomainName) (c : Catalog) : Prop :=
  ∃ before after, writes = before ++ .publish c :: after ∧ c.domain = domain ∧
    ∀ w ∈ after, ¬ w.Concerns domain

/-- Only the first write can lie before a publication that does not follow it. -/
theorem inForce_cons {w : Write} {rest : List Write} {domain : DomainName} {c : Catalog} :
    InForce (w :: rest) domain c ↔
      InForce rest domain c ∨
        w.Concerns domain ∧ w.catalog? = some c ∧ ∀ w' ∈ rest, ¬ w'.Concerns domain := by
  constructor
  · rintro ⟨before, after, hwrites, hdomain, hafter⟩
    cases before with
    | nil =>
        obtain ⟨rfl, rfl⟩ := List.cons.inj hwrites
        exact Or.inr ⟨hdomain, rfl, hafter⟩
    | cons w' before =>
        obtain ⟨-, rfl⟩ := List.cons.inj hwrites
        exact Or.inl ⟨before, after, rfl, hdomain, hafter⟩
  · rintro (⟨before, after, rfl, hdomain, hafter⟩ | ⟨hconcerns, hcatalog, hrest⟩)
    · exact ⟨w :: before, after, rfl, hdomain, hafter⟩
    · cases w with
      | publish c' =>
          obtain rfl := Option.some.inj hcatalog
          exact ⟨[], rest, rfl, hconcerns, hrest⟩
      | remove spelling => exact nomatch hcatalog
      | clear => exact nomatch hcatalog

namespace Store

/-- Makes a change, and gives the catalog that is replaced or withdrawn by it. -/
def perform (s : Store) : Write → Option Catalog × Store
  | .publish c => s.replace c
  | .remove spelling => s.withdraw spelling
  | .clear => (none, s.clear)

/-- The store after changes were made one by one. -/
def afterWrites (s : Store) (writes : List Write) : Store :=
  writes.foldl (fun s w => (s.perform w).2) s

/-! ## Look-ups -/

/-- **ONE WRITE** decides about the domain that it concerns and leaves every other one alone. -/
theorem get?_perform (s : Store) (w : Write) (spelling : String) :
    (s.perform w).2.get? spelling
      = if w.Concerns (.ofText spelling) then w.catalog? else s.get? spelling := by
  cases w with
  | publish c => exact get?_publish s c spelling
  | remove other => exact get?_remove s other spelling
  | clear => rfl

/-- **ALL WRITES**: what is found is in force by the writes, or it was there before and no write
concerned its domain. -/
theorem get?_afterWrites (s : Store) (writes : List Write) (spelling : String) (c : Catalog) :
    (s.afterWrites writes).get? spelling = some c ↔
      InForce writes (.ofText spelling) c ∨
        s.get? spelling = some c ∧ ∀ w ∈ writes, ¬ w.Concerns (.ofText spelling) := by
  induction writes generalizing s with
  | nil =>
      constructor
      · intro h
        exact Or.inr ⟨h, fun w hw => absurd hw List.not_mem_nil⟩
      · rintro (⟨before, after, hwrites, -⟩ | ⟨h, -⟩)
        · cases before <;> exact nomatch hwrites
        · exact h
  | cons w rest ih =>
      show ((s.perform w).2.afterWrites rest).get? spelling = some c ↔ _
      rw [ih, inForce_cons, get?_perform, List.forall_mem_cons, or_assoc]
      -- a write that concerns the domain replaces what was there before
      by_cases hw : w.Concerns (.ofText spelling)
      · simp only [hw, if_true, true_and, not_true, false_and, and_false, or_false]
      · simp only [hw, if_false, false_and, not_false_eq_true, true_and, false_or]

/-! ## Keys and figures -/

theorem get?_key {s : Store} {e : String × Catalog} (h : e ∈ s.entries) :
    s.get? e.1 = some e.2 := by
  rw [get?, s.keyed e h, e.2.domain.normal, ← s.keyed e h]
  exact Dictionary.find?_of_mem s.sorted h

/-- The catalogs of a store are those that are found under its domains. -/
theorem filterMap_get?_domains (s : Store) : s.domains.filterMap s.get? = s.catalogs := by
  rw [domains, catalogs, List.filterMap_map, ← List.filterMap_eq_map]
  refine List.filterMap_congr ?_
  intro e he
  exact get?_key he

theorem domains_ascending (s : Store) : s.domains.Pairwise (· < ·) :=
  List.pairwise_map.mpr s.sorted

theorem domains_nodup (s : Store) : s.domains.Nodup := Dictionary.Sorted.nodup_keys s.sorted

theorem length_domains (s : Store) : s.domains.length = s.size := List.length_map _

/-- A figure is summed up over the domains. -/
theorem total_eq_sum (s : Store) (figure : Catalog → Nat) :
    s.total figure = ((s.domains.filterMap s.get?).map figure).sum := by
  rw [filterMap_get?_domains, total, List.sum_eq_foldl, List.foldl_map]

/-- The figures of a store are taken over the catalogs that are found under its domains: the rules
of a catalog, those of them that are enabled, and the different fields that its rules read. -/
structure Tallied (s : Store) (stats : Stats) : Prop where
  domains : stats.domains = s.domains.length
  rules : stats.rules = ((s.domains.filterMap s.get?).map fun c => c.rules.length).sum
  enabledRules : stats.enabledRules =
    ((s.domains.filterMap s.get?).map fun c => c.rules.countP (·.enabled)).sum
  fieldsPerCatalog : stats.fieldsPerCatalog =
    if s.domains = [] then 0
    else Float.ofNat
        ((s.domains.filterMap s.get?).map fun c => (c.rules.flatMap Rule.fields).dedup.length).sum
      / Float.ofNat s.domains.length

theorem tallied_stats (s : Store) : s.Tallied s.stats where
  domains := s.length_domains.symm
  rules := s.total_eq_sum Catalog.size
  enabledRules := s.total_eq_sum Catalog.enabledCount
  fieldsPerCatalog := by
    have hempty : s.isEmpty = true ↔ s.domains = [] := by
      rw [isEmpty, domains, List.isEmpty_iff, List.map_eq_nil_iff]
    simp only [stats, hempty, total_eq_sum, length_domains, Catalog.length_referencedFields]

/-! ## Everything that a store shows -/

/-- The store is the finite map that its writes make of the empty one. -/
structure Reflects (s : Store) (writes : List Write) : Prop where
  found : ∀ spelling c, s.get? spelling = some c ↔ InForce writes (.ofText spelling) c
  contained : ∀ spelling, s.contains spelling = true ↔ ∃ c, InForce writes (.ofText spelling) c
  /-- A further write gives what was found for its domain, -/
  replaced : ∀ c, (s.perform (.publish c)).1 = s.get? c.domain.text
  withdrawn : ∀ spelling, (s.perform (.remove spelling)).1 = s.get? spelling
  /-- and leaves the other domains alone. -/
  others : ∀ (w : Write) spelling, ¬ w.Concerns (.ofText spelling) →
    (s.perform w).2.get? spelling = s.get? spelling
  keys : ∀ e ∈ s.entries, e.1 = e.2.domain.text ∧ Text.normalize e.1 = e.1
  ascending : s.domains.Pairwise (· < ·)
  distinct : s.domains.Nodup
  counted : s.domains.length = s.size
  tallied : s.Tallied s.stats

/-- **WRITES MAKE A MAP.** After any writes to the empty store, a spelling finds the catalog that
was published last for its domain and not withdrawn since; every write gives what was found just
before and changes no other domain; the keys are the normal names of the domains of their catalogs,
in strictly ascending order; and the figures are those of the catalogs that are found. -/
theorem reflects_afterWrites (writes : List Write) :
    (empty.afterWrites writes).Reflects writes := by
  have found : ∀ spelling c, (empty.afterWrites writes).get? spelling = some c ↔
      InForce writes (.ofText spelling) c := by
    intro spelling c
    have hempty : empty.get? spelling ≠ some c := nofun
    rw [get?_afterWrites]
    simp only [hempty, false_and, or_false]
  refine ⟨found, ?_, ?_, fun _ => rfl, ?_, ?_, domains_ascending _, domains_nodup _,
    length_domains _, tallied_stats _⟩
  · intro spelling
    rw [contains, Option.isSome_iff_exists]
    exact exists_congr (found spelling)
  · intro c
    rw [get?, c.domain.normal]
    rfl
  · intro w spelling hother
    rw [get?_perform, if_neg hother]
  · intro e he
    have hkey := (empty.afterWrites writes).keyed e he
    exact ⟨hkey, by rw [hkey, e.2.domain.normal]⟩

end Store

end RiskDecision
