import RiskDecision.Dictionary

/-!
# The keys of a dictionary

Inserting adds one key and nothing else, so the keys of a dictionary made from a list of entries are
the keys of that list. Its entries are entries of the list, those of repeated keys aside.
-/

namespace RiskDecision.Dictionary

variable {α : Type}

/-- The keys, in ascending order. -/
def keys (d : Dictionary α) : List String := d.map Prod.fst

theorem mem_keys_insert {k key : String} {value : α} (d : Dictionary α) :
    k ∈ (d.insert key value).keys ↔ k = key ∨ k ∈ d.keys := by
  induction d with
  | nil => simp [insert, keys]
  | cons e rest ih =>
      obtain ⟨k', v'⟩ := e
      simp only [keys, List.map_cons, List.mem_cons] at ih ⊢
      rw [insert]
      by_cases hlt : key < k'
      · rw [if_pos hlt]
        simp only [List.map_cons, List.mem_cons]
      · rw [if_neg hlt]
        by_cases heq : key = k'
        · rw [if_pos heq]
          simp only [List.map_cons, List.mem_cons, heq, or_self_left]
        · rw [if_neg heq]
          simp only [List.map_cons, List.mem_cons, ih]
          exact or_left_comm

/-- Entries put into a dictionary one by one leave their keys there. -/
theorem mem_keys_foldl_insert {k : String} (entries : List (String × α)) (d : Dictionary α) :
    k ∈ keys (entries.foldl (fun d e => d.insert e.1 e.2) d)
      ↔ k ∈ entries.map Prod.fst ∨ k ∈ d.keys := by
  induction entries generalizing d with
  | nil => simp
  | cons e rest ih =>
      rw [List.foldl_cons, ih, mem_keys_insert, List.map_cons, List.mem_cons, or_left_comm,
        or_assoc]

/-- The keys of the dictionary of a list are those of the list. -/
theorem mem_keys_ofList {k : String} (entries : List (String × α)) :
    k ∈ keys (ofList entries) ↔ k ∈ entries.map Prod.fst := by
  rw [ofList, mem_keys_foldl_insert]
  simp [keys]

theorem Sorted.foldl_insert {d : Dictionary α} (sorted : d.Sorted) (entries : List (String × α)) :
    Sorted (entries.foldl (fun d e => d.insert e.1 e.2) d) := by
  induction entries generalizing d with
  | nil => exact sorted
  | cons e rest ih => exact ih (sorted.insert e.1 e.2)

theorem sorted_ofList (entries : List (String × α)) : Sorted (ofList entries) :=
  Sorted.foldl_insert List.Pairwise.nil entries

/-- No key occurs twice. -/
theorem Sorted.nodup_keys {d : Dictionary α} (sorted : d.Sorted) : d.keys.Nodup := by
  refine (List.pairwise_map.mpr sorted).imp ?_
  rintro a b hlt rfl
  exact String.lt_irrefl a hlt

/-- Entries put into a dictionary one by one are all that comes to it. -/
theorem mem_foldl_insert {e : String × α} (entries : List (String × α)) (d : Dictionary α)
    (h : e ∈ entries.foldl (fun d e => d.insert e.1 e.2) d) : e ∈ entries ∨ e ∈ d := by
  induction entries generalizing d with
  | nil => exact Or.inr h
  | cons f rest ih =>
      rw [List.foldl_cons] at h
      rcases ih _ h with hrest | hd
      · exact Or.inl (List.mem_cons_of_mem _ hrest)
      · rcases mem_insert hd with rfl | hd
        · exact Or.inl List.mem_cons_self
        · exact Or.inr hd

theorem mem_of_mem_ofList {e : String × α} {entries : List (String × α)}
    (h : e ∈ ofList entries) : e ∈ entries := by
  rcases mem_foldl_insert entries [] h with hentries | hnil
  · exact hentries
  · exact absurd hnil List.not_mem_nil

/-- A value that is found for a key stands there as an entry. -/
theorem mem_of_find? {key : String} {value : α} {d : Dictionary α}
    (h : d.find? key = some value) : (key, value) ∈ d := by
  obtain ⟨before, behind, heq, -⟩ := List.lookup_eq_some_iff.mp h
  rw [heq]
  exact List.mem_append.mpr (Or.inr List.mem_cons_self)

theorem find?_eq_none {key : String} {d : Dictionary α} (h : key ∉ d.keys) :
    d.find? key = none := by
  induction d with
  | nil => rfl
  | cons e rest ih =>
      rw [keys, List.map_cons, List.mem_cons, not_or] at h
      rw [find?_cons, if_neg h.1, ih h.2]

/-- Of entries with distinct keys none replaces another one. -/
theorem find?_foldl_insert {entries : List (String × α)} (distinct : (keys entries).Nodup)
    (key : String) (d : Dictionary α) :
    find? key (entries.foldl (fun d e => d.insert e.1 e.2) d)
      = (find? key entries).or (d.find? key) := by
  induction entries generalizing d with
  | nil => rfl
  | cons e rest ih =>
      obtain ⟨hhead, htail⟩ := List.nodup_cons.mp distinct
      rw [List.foldl_cons, ih htail, find?_cons]
      by_cases h : key = e.1
      · rw [if_pos h, h, find?_eq_none hhead, find?_insert_self]
        rfl
      · rw [if_neg h, find?_insert_of_ne h]

theorem find?_ofList {entries : List (String × α)} (distinct : (keys entries).Nodup)
    (key : String) : find? key (ofList entries) = find? key entries := by
  rw [ofList, find?_foldl_insert distinct]
  exact Option.or_none

/-- Every entry is found under its key. -/
theorem find?_of_mem {d : Dictionary α} (sorted : d.Sorted) {e : String × α} (h : e ∈ d) :
    d.find? e.1 = some e.2 := by
  induction d with
  | nil => exact absurd h List.not_mem_nil
  | cons f rest ih =>
      obtain ⟨hhead, htail⟩ := List.pairwise_cons.mp sorted
      rw [find?_cons]
      rcases List.mem_cons.mp h with rfl | hrest
      · rw [if_pos rfl]
      · have hne : e.1 ≠ f.1 := fun heq => String.lt_irrefl _ (heq ▸ hhead e hrest)
        rw [if_neg hne, ih htail hrest]

end RiskDecision.Dictionary
