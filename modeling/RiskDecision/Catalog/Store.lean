import RiskDecision.Catalog.Basic

/-!
# Published catalogs

The store holds at most one catalog for each domain. Publishing replaces the catalog of the same
domain. Domains are looked up under any spelling.
-/

namespace RiskDecision

/-- The published catalogs by the text of their domain. -/
structure Store where
  entries : Dictionary Catalog
  sorted : entries.Sorted
  keyed : ∀ e ∈ entries, e.1 = e.2.domain.text

namespace Store

/-- Nothing is published. -/
def empty : Store := ⟨[], List.Pairwise.nil, by simp⟩

/-- The catalog of a domain. -/
def get? (s : Store) (spelling : String) : Option Catalog :=
  Dictionary.find? (Text.normalize spelling) s.entries

/-- There is a catalog for a domain. -/
def contains (s : Store) (spelling : String) : Bool := (s.get? spelling).isSome

/-- Publishes a catalog in place of the one of the same domain. -/
def publish (s : Store) (c : Catalog) : Store where
  entries := s.entries.insert c.domain.text c
  sorted := s.sorted.insert _ _
  keyed e h := by
    rcases Dictionary.mem_insert h with rfl | h
    · rfl
    · exact s.keyed e h

/-- Withdraws the catalog of a domain. -/
def remove (s : Store) (spelling : String) : Store where
  entries := s.entries.erase (Text.normalize spelling)
  sorted := s.sorted.erase _
  keyed e h := s.keyed e (List.mem_filter.1 h).1

/-- Publishes a catalog and gives the one that it replaces. -/
def replace (s : Store) (c : Catalog) : Option Catalog × Store :=
  (Dictionary.find? c.domain.text s.entries, s.publish c)

/-- Withdraws the catalog of a domain and gives it. -/
def withdraw (s : Store) (spelling : String) : Option Catalog × Store :=
  (Dictionary.find? (Text.normalize spelling) s.entries, s.remove spelling)

/-- Withdraws every catalog. -/
def clear (_ : Store) : Store := empty

/-- The published catalogs in ascending order of their domains. -/
def catalogs (s : Store) : List Catalog := s.entries.map Prod.snd

/-- The domains with a catalog, in ascending order. -/
def domains (s : Store) : List String := s.entries.map Prod.fst

/-- The number of published catalogs. -/
def size (s : Store) : Nat := s.entries.length

/-- Nothing is published. -/
def isEmpty (s : Store) : Bool := s.entries.isEmpty

/-- Figures about the published catalogs. -/
structure Stats where
  domains : Nat
  rules : Nat
  enabledRules : Nat
  /-- The mean number of fields that a catalog reads, zero if there is none. -/
  fieldsPerCatalog : Float

/-- A figure summed up over the published catalogs. -/
def total (s : Store) (figure : Catalog → Nat) : Nat :=
  s.catalogs.foldl (fun n c => n + figure c) 0

/-- The figures of a store. -/
def stats (s : Store) : Stats where
  domains := s.size
  rules := s.total Catalog.size
  enabledRules := s.total Catalog.enabledCount
  fieldsPerCatalog :=
    if s.isEmpty then 0
    else Float.ofNat (s.total fun c => c.referencedFields.length) / Float.ofNat s.size

end Store

end RiskDecision
