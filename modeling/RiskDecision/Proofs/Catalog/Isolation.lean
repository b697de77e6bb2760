import RiskDecision.Catalog.Load
import RiskDecision.Proofs.Rule.Order

/-!
# Entries of a catalog are loaded in isolation

What becomes of an entry of a catalog depends on that entry alone. Its neighbours change the index
in its rejection and the place of its rule among rules of other priorities, and nothing else: an
entry is rejected in company exactly if it is rejected on its own, for the same reason, and the
accepted ones are all there. So catalogs may be cut into pieces and loaded piece by piece.
-/

namespace RiskDecision

/-- The rejection of an entry that stands further behind. -/
def Rejection.shift (n : Nat) (r : Rejection) : Rejection := { r with index := r.index + n }

namespace Catalog

/-- An entry is accepted with a rule if it decodes to that rule and the rule is valid. -/
theorem accepted?_eq_some_iff {entry : Json} {r : Rule} :
    accepted? entry = some r ↔ Rule.decode entry = .ok r ∧ r.validate = .ok () := by
  rw [accepted?, readEntry]
  cases hd : Rule.decode entry with
  | error e =>
      constructor
      · intro h
        exact nomatch h
      · rintro ⟨h, -⟩
        exact nomatch h
  | ok rule =>
      show (rule.validate >>= fun _ => Except.ok rule).toOption = some r ↔ _
      cases hv : rule.validate with
      | error fault =>
          constructor
          · intro h
            exact nomatch h
          · rintro ⟨hr, hok⟩
            cases hr
            rw [hv] at hok
            exact nomatch hok
      | ok u =>
          constructor
          · intro h
            cases Option.some.inj h
            exact ⟨rfl, hv⟩
          · rintro ⟨hr, -⟩
            cases hr
            rfl

/-! ## One entry -/

/-- The place of an entry shows in the index of its rejection only. -/
theorem rejection?_shift (entry : Json) (i n : Nat) :
    rejection? (entry, i + n) = (rejection? (entry, i)).map (Rejection.shift n) := by
  rw [rejection?, rejection?]
  cases readEntry entry <;> rfl

/-- A rejection carries the index of its entry. -/
theorem index_of_rejection? {entry : Json × Nat} {r : Rejection} (h : rejection? entry = some r) :
    r.index = entry.2 := by
  rw [rejection?] at h
  cases hread : readEntry entry.1 with
  | ok rule =>
      rw [hread] at h
      exact nomatch h
  | error fault =>
      rw [hread] at h
      cases h
      rfl

/-- An entry is either accepted or rejected. -/
theorem accepted?_add_rejection? (entry : Json) (i : Nat) :
    (accepted? entry).toList.length + (rejection? (entry, i)).toList.length = 1 := by
  rw [accepted?, rejection?]
  cases readEntry entry <;> rfl

/-- The rejections in the report on a single entry. -/
theorem rejected_singleton (domain : String) (entry : Json) :
    (ofEntries domain [entry]).2.rejected = (rejection? (entry, 0)).toList := by
  show [(entry, 0)].filterMap rejection? = _
  rw [List.filterMap_cons]
  cases rejection? (entry, 0) <;> rfl

/-! ## Several entries -/

/-- Entries that stand further behind have the same rejections but for the index. -/
theorem filterMap_rejection?_zipIdx (entries : List Json) (n : Nat) :
    (entries.zipIdx n).filterMap rejection?
      = (entries.zipIdx.filterMap rejection?).map (Rejection.shift n) := by
  rw [List.zipIdx_eq_map_add, List.filterMap_map, List.map_filterMap]
  congr 1
  funext e
  obtain ⟨entry, i⟩ := e
  show rejection? (entry, n + i) = _
  rw [Nat.add_comm]
  exact rejection?_shift entry i n

/-- No entry is lost: each one is accepted or rejected. -/
theorem length_accepted_add_rejected (entries : List Json) (n : Nat) :
    (entries.filterMap accepted?).length + ((entries.zipIdx n).filterMap rejection?).length
      = entries.length := by
  induction entries generalizing n with
  | nil => rfl
  | cons entry rest ih =>
      have hentry := accepted?_add_rejection? entry n
      have hrest := ih (n + 1)
      rw [List.zipIdx_cons, List.filterMap_cons, List.filterMap_cons, List.length_cons]
      cases ha : accepted? entry <;> cases hr : rejection? (entry, n) <;>
        simp only [ha, hr, Option.toList, List.length_cons, List.length_nil] at hentry ⊢ <;> omega

/-- The rejections come in the order of the entries. -/
theorem pairwise_index_rejected (entries : List Json) :
    (entries.zipIdx.filterMap rejection?).Pairwise fun a b => a.index < b.index := by
  have hlt : entries.zipIdx.Pairwise fun a b => a.2 < b.2 := by
    rw [← List.pairwise_map (f := Prod.snd) (R := (· < ·)), List.zipIdx_map_snd]
    exact List.pairwise_lt_range'
  refine List.Pairwise.filterMap rejection? ?_ hlt
  intro a b hab r hr s hs
  rw [index_of_rejection? hr, index_of_rejection? hs]
  exact hab

/-- A rejection is reported exactly if the entry at its index is rejected on its own, with the same
identifier and fault. -/
theorem mem_rejected_iff (domain : String) (entries : List Json) (i : Nat) (id : Option String)
    (fault : Fault) :
    ⟨i, id, fault⟩ ∈ (ofEntries domain entries).2.rejected ↔
      ∃ entry, entries[i]? = some entry ∧
        (ofEntries domain [entry]).2.rejected = [⟨0, id, fault⟩] := by
  have halone : ∀ entry, (ofEntries domain [entry]).2.rejected = [⟨0, id, fault⟩] ↔
      rejection? (entry, i) = some ⟨i, id, fault⟩ := by
    intro entry
    have hshift := rejection?_shift entry 0 i
    rw [Nat.zero_add] at hshift
    rw [rejected_singleton, hshift]
    cases rejection? (entry, 0) with
    | none => simp
    | some r =>
        obtain ⟨index, id', fault'⟩ := r
        simp [Rejection.shift]
  simp only [halone]
  show _ ∈ entries.zipIdx.filterMap rejection? ↔ _
  rw [List.mem_filterMap]
  constructor
  · rintro ⟨⟨entry, j⟩, hmem, hr⟩
    have hj : i = j := index_of_rejection? hr
    subst hj
    exact ⟨entry, List.mk_mem_zipIdx_iff_getElem?.mp hmem, hr⟩
  · rintro ⟨entry, hget, hr⟩
    exact ⟨(entry, i), List.mk_mem_zipIdx_iff_getElem?.mpr hget, hr⟩

/-! ## Loads -/

/-- What a load makes of its entries, each one looked at on its own. -/
structure IsolatedLoad (domain : String) (entries : List Json) (load : Catalog × LoadReport) :
    Prop where
  /-- An entry is rejected in company exactly if it is rejected alone, and for the same reason. -/
  rejected : ∀ i id fault, ⟨i, id, fault⟩ ∈ load.2.rejected ↔
    ∃ entry, entries[i]? = some entry ∧
      (ofEntries domain [entry]).2.rejected = [⟨0, id, fault⟩]
  ascending : load.2.rejected.Pairwise fun a b => a.index < b.index
  /-- The rules are those of the accepted entries, in their one stable order. -/
  ordered : Rule.StableOrder (entries.filterMap accepted?) load.1.rules
  complete : load.2.loaded + load.2.rejected.length = entries.length
  counted : load.2.loaded = load.1.size

/-- What a load of two lists of entries, one after the other, makes of them, given what it makes of
each one. -/
structure JoinedLoad (shift : Nat) (first second joined : Catalog × LoadReport) : Prop where
  ordered : Rule.StableOrder (first.1.rules ++ second.1.rules) joined.1.rules
  rejected : joined.2.rejected = first.2.rejected ++ second.2.rejected.map (Rejection.shift shift)
  counted : joined.2.loaded = first.2.loaded + second.2.loaded

theorem ofEntries_isolated (domain : String) (entries : List Json) :
    IsolatedLoad domain entries (ofEntries domain entries) where
  rejected := mem_rejected_iff domain entries
  ascending := pairwise_index_rejected entries
  ordered := Rule.stableOrder_inOrder _
  complete := length_accepted_add_rejected entries 0
  counted := (Rule.inOrder_perm _).length_eq.symm

theorem ofEntries_append (domain : String) (a b : List Json) :
    JoinedLoad a.length (ofEntries domain a) (ofEntries domain b)
      (ofEntries domain (a ++ b)) where
  ordered := by
    refine ⟨Rule.inOrder_sorted _, ?_⟩
    intro p
    show (Rule.inOrder ((a ++ b).filterMap accepted?)).filter _
      = (Rule.inOrder (a.filterMap accepted?) ++ Rule.inOrder (b.filterMap accepted?)).filter _
    rw [Rule.filter_inOrder, List.filterMap_append, List.filter_append, List.filter_append,
      Rule.filter_inOrder, Rule.filter_inOrder]
  rejected := by
    show (a ++ b).zipIdx.filterMap rejection? = _
    rw [List.zipIdx_append, List.filterMap_append, Nat.zero_add,
      filterMap_rejection?_zipIdx b a.length]
    rfl
  counted := by
    show ((a ++ b).filterMap accepted?).length = _
    rw [List.filterMap_append, List.length_append]
    rfl

/-- **ISOLATION.** Every array is loaded, whatever its entries are: each of them is accepted or
rejected as if it were alone, the accepted ones decode to valid rules and are put in order, and two
arrays in a row give what each of them gives. A value that is no array is a parse error. -/
theorem load_isolates_entries (domain : String) :
    (∀ entries, ofJson domain (.array entries) = .ok (ofEntries domain entries) ∧
      IsolatedLoad domain entries (ofEntries domain entries)) ∧
    (∀ entry r, accepted? entry = some r ↔ Rule.decode entry = .ok r ∧ r.validate = .ok ()) ∧
    (∀ a b, JoinedLoad a.length (ofEntries domain a) (ofEntries domain b)
      (ofEntries domain (a ++ b))) ∧
    (∀ j, (∃ entries, j = .array entries) ∨
      ∃ fault, ofJson domain j = .error fault ∧ fault.code = "PARSE_ERROR") := by
  refine ⟨?_, ?_, ?_, ?_⟩
  · intro entries
    exact ⟨rfl, ofEntries_isolated domain entries⟩
  · intro entry r
    exact accepted?_eq_some_iff
  · exact ofEntries_append domain
  · intro j
    cases j with
    | array entries => exact Or.inl ⟨entries, rfl⟩
    | _ => exact Or.inr ⟨_, rfl, rfl⟩

end Catalog

end RiskDecision
