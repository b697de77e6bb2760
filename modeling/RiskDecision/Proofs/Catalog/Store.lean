import RiskDecision.Catalog.Store
import RiskDecision.Proofs.Dictionary.Keys

/-!
# Look-ups in the store

Publishing a catalog changes what is found under the spellings of its domain and nothing else. So
after catalogs were published one by one, a domain has the last of its own, and a domain without any
among them has what it had before.
-/

namespace RiskDecision

/-- The last of some catalogs that belongs to a domain. -/
def Catalog.lastOf? (domain : DomainName) (catalogs : List Catalog) : Option Catalog :=
  (catalogs.filter fun c => c.domain = domain).getLast?

namespace Catalog

theorem lastOf?_cons (domain : DomainName) (c : Catalog) (rest : List Catalog) :
    lastOf? domain (c :: rest)
      = (lastOf? domain rest).or (if c.domain = domain then some c else none) := by
  by_cases h : c.domain = domain
  · simp only [lastOf?, List.filter_cons, h, decide_true, if_true, List.getLast?_cons]
    cases (rest.filter fun c => c.domain = domain).getLast? <;> rfl
  · simp only [lastOf?, List.filter_cons, h, decide_false, Bool.false_eq_true, if_false,
      Option.or_none]

theorem lastOf?_append (domain : DomainName) (first second : List Catalog) :
    lastOf? domain (first ++ second) = (lastOf? domain second).or (lastOf? domain first) := by
  rw [lastOf?, List.filter_append, List.getLast?_append]
  rfl

theorem mem_of_lastOf? {domain : DomainName} {catalogs : List Catalog} {c : Catalog}
    (h : lastOf? domain catalogs = some c) : c ∈ catalogs ∧ c.domain = domain := by
  have hmem := List.mem_of_getLast? h
  exact ⟨(List.mem_filter.mp hmem).1, of_decide_eq_true (List.mem_filter.mp hmem).2⟩

theorem lastOf?_eq_none_iff {domain : DomainName} {catalogs : List Catalog} :
    lastOf? domain catalogs = none ↔ ∀ c ∈ catalogs, c.domain ≠ domain := by
  rw [lastOf?, List.getLast?_eq_none_iff, List.filter_eq_nil_iff]
  simp only [decide_eq_true_eq, ne_eq]

/-- A change of catalogs that leaves their domains alone may come before or after the search. -/
theorem lastOf?_map {f : Catalog → Catalog} (hf : ∀ c, (f c).domain = c.domain)
    (domain : DomainName) (catalogs : List Catalog) :
    lastOf? domain (catalogs.map f) = (lastOf? domain catalogs).map f := by
  rw [lastOf?, lastOf?, List.filter_map, List.getLast?_map]
  simp only [Function.comp_def, hf]

end Catalog

namespace Store

theorem get?_empty (spelling : String) : empty.get? spelling = none := rfl

theorem get?_publish (s : Store) (c : Catalog) (spelling : String) :
    (s.publish c).get? spelling
      = if c.domain = .ofText spelling then some c else s.get? spelling := by
  show Dictionary.find? (DomainName.ofText spelling).text (s.entries.insert c.domain.text c) = _
  by_cases h : c.domain = .ofText spelling
  · rw [if_pos h, ← h]
    exact Dictionary.find?_insert_self _ _ _
  · rw [if_neg h]
    refine Dictionary.find?_insert_of_ne ?_ _ _
    intro heq
    exact h (DomainName.ext heq.symm)

theorem get?_remove (s : Store) (spelling other : String) :
    (s.remove spelling).get? other
      = if DomainName.ofText spelling = .ofText other then none else s.get? other := by
  show Dictionary.find? (Text.normalize other) (s.entries.erase (Text.normalize spelling)) = _
  by_cases h : DomainName.ofText spelling = .ofText other
  · rw [if_pos h, DomainName.ofText_eq_iff.mp h]
    exact Dictionary.find?_erase_self _ _
  · rw [if_neg h]
    refine Dictionary.find?_erase_of_ne ?_ _
    intro heq
    exact h (DomainName.ofText_eq_iff.mpr heq.symm)

/-- What is found under a spelling of a domain is a catalog of that domain. -/
theorem domain_of_get? {s : Store} {spelling : String} {c : Catalog}
    (h : s.get? spelling = some c) : c.domain = .ofText spelling :=
  DomainName.ext (s.keyed _ (Dictionary.mem_of_find? h)).symm

/-- A catalog that is withdrawn from a store that had none for its domain leaves no trace. -/
theorem remove_publish_empty (c : Catalog) : (empty.publish c).remove c.domain.text = empty := by
  have herase : Dictionary.erase (Text.normalize c.domain.text) [(c.domain.text, c)] = [] := by
    rw [c.domain.normal]
    simp [Dictionary.erase]
  simp only [remove, publish, empty, Dictionary.insert, herase]

/-- The store after catalogs were published one by one. -/
def publishEach (s : Store) (catalogs : List Catalog) : Store := catalogs.foldl publish s

theorem publishEach_append (s : Store) (first second : List Catalog) :
    s.publishEach (first ++ second) = (s.publishEach first).publishEach second :=
  List.foldl_append

/-- **THE LAST ONE WINS.** After catalogs were published one by one, the last one of a domain is
found under every spelling, and what was there before if there is none. -/
theorem get?_publishEach (s : Store) (catalogs : List Catalog) (spelling : String) :
    (s.publishEach catalogs).get? spelling
      = (Catalog.lastOf? (.ofText spelling) catalogs).or (s.get? spelling) := by
  induction catalogs generalizing s with
  | nil => rfl
  | cons c rest ih =>
      show ((s.publish c).publishEach rest).get? spelling = _
      rw [ih, Catalog.lastOf?_cons, Option.or_assoc, get?_publish]
      split <;> rfl

end Store

end RiskDecision
