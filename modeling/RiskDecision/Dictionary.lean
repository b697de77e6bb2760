/-!
# Dictionaries sorted by key

A list of entries with text keys, kept in ascending order of the keys, each key once. Objects read
from JSON, published catalogs and counters all take this form, so that their order is a fact about
the keys and not about history. The lemmas say what inserting and erasing do to a look-up and that
both keep the order.
-/

namespace RiskDecision

/-- Entries with text keys. -/
abbrev Dictionary (α : Type) := List (String × α)

namespace Dictionary

variable {α : Type}

/-- The keys ascend strictly; in particular none occurs twice. -/
def Sorted (d : Dictionary α) : Prop := List.Pairwise (fun a b => a.1 < b.1) d

/-- The value of a key. -/
def find? (key : String) (d : Dictionary α) : Option α := List.lookup key d

/-- The key has a value. -/
def has (key : String) (d : Dictionary α) : Bool := (d.find? key).isSome

/-- Gives the key a value, in place of the one it had. -/
def insert (key : String) (value : α) : Dictionary α → Dictionary α
  | [] => [(key, value)]
  | (k, v) :: rest =>
    if key < k then (key, value) :: (k, v) :: rest
    else if key = k then (key, value) :: rest
    else (k, v) :: insert key value rest

/-- Takes the key and its value away. -/
def erase (key : String) (d : Dictionary α) : Dictionary α := d.filter fun e => e.1 != key

/-- The dictionary of a list of entries, of which a later one replaces an earlier one. -/
def ofList (entries : List (String × α)) : Dictionary α :=
  entries.foldl (fun d e => d.insert e.1 e.2) []

theorem find?_cons (key : String) (e : String × α) (d : Dictionary α) :
    find? key (e :: d) = if key = e.1 then some e.2 else find? key d := by
  obtain ⟨k, v⟩ := e
  by_cases h : key = k
  · simp [find?, h]
  · have : (key == k) = false := by simpa using h
    simp [find?, List.lookup_cons, h, this]

theorem find?_insert_self (key : String) (value : α) (d : Dictionary α) :
    find? key (d.insert key value) = some value := by
  induction d with
  | nil => simp [insert, find?_cons]
  | cons e rest ih =>
    simp only [insert]
    split
    · simp [find?_cons]
    · split
      · simp [find?_cons]
      · rename_i h
        simp [find?_cons, h, ih]

theorem find?_insert_of_ne {key other : String} (ne : other ≠ key) (value : α)
    (d : Dictionary α) : find? other (d.insert key value) = find? other d := by
  induction d with
  | nil => simp [insert, find?_cons, ne]
  | cons e rest ih =>
    simp only [insert]
    split
    · simp [find?_cons, ne]
    · split
      · rename_i h
        simp [find?_cons, ← h, ne]
      · simp [find?_cons, ih]

theorem find?_erase_self (key : String) (d : Dictionary α) : find? key (d.erase key) = none := by
  induction d with
  | nil => rfl
  | cons e rest ih =>
    by_cases h : e.1 = key
    · simpa [erase, h] using ih
    · have : key ≠ e.1 := fun x => h x.symm
      simpa [erase, h, find?_cons, this] using ih

theorem find?_erase_of_ne {key other : String} (ne : other ≠ key) (d : Dictionary α) :
    find? other (d.erase key) = find? other d := by
  induction d with
  | nil => rfl
  | cons e rest ih =>
    by_cases h : e.1 = key
    · have : other ≠ e.1 := fun x => ne (x.trans h)
      rw [find?_cons, if_neg this]
      simpa [erase, h] using ih
    · simp only [erase, List.filter_cons, bne_iff_ne, ne_eq, h, not_false_eq_true, if_true] at ih ⊢
      simp [find?_cons, ih]

/-- Every entry of the result is the new one or an old one. -/
theorem mem_insert {key : String} {value : α} {d : Dictionary α} {e : String × α}
    (h : e ∈ d.insert key value) : e = (key, value) ∨ e ∈ d := by
  induction d with
  | nil => exact .inl (by simpa [insert] using h)
  | cons f rest ih =>
    simp only [insert] at h
    split at h
    · simpa using h
    · split at h
      · rcases List.mem_cons.1 h with h | h
        · exact .inl h
        · exact .inr (List.mem_cons_of_mem _ h)
      · rcases List.mem_cons.1 h with h | h
        · exact .inr (h ▸ List.mem_cons_self)
        · exact (ih h).imp id (List.mem_cons_of_mem _)

theorem Sorted.insert {d : Dictionary α} (sorted : d.Sorted) (key : String) (value : α) :
    (d.insert key value).Sorted := by
  induction d with
  | nil => simp [Dictionary.insert, Sorted]
  | cons e rest ih =>
    have head := (List.pairwise_cons.1 sorted).1
    have tail := (List.pairwise_cons.1 sorted).2
    simp only [Dictionary.insert]
    split
    · rename_i lt
      refine List.pairwise_cons.2 ⟨fun f hf => ?_, sorted⟩
      rcases List.mem_cons.1 hf with rfl | hf
      · exact lt
      · exact String.lt_trans lt (head f hf)
    · split
      · rename_i eq
        exact List.pairwise_cons.2 ⟨fun f hf => by simpa [eq] using head f hf, tail⟩
      · rename_i nlt ne
        refine List.pairwise_cons.2 ⟨fun f hf => ?_, ih tail⟩
        rcases mem_insert hf with rfl | hf
        · exact Decidable.byContradiction fun ge =>
            ne (String.le_antisymm (String.not_lt.1 ge) (String.not_lt.1 nlt))
        · exact head f hf

theorem Sorted.erase {d : Dictionary α} (sorted : d.Sorted) (key : String) :
    (d.erase key).Sorted :=
  List.Pairwise.filter _ sorted

end Dictionary

end RiskDecision
