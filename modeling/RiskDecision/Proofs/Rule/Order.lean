import RiskDecision.Proofs.Sorting
import RiskDecision.Rule.Basic

/-!
# The order of rules is stable, and there is only one

Rules apply in ascending order of priority, and rules of one priority keep the order in which they
were given. `StableOrder` says so without mentioning how the order is computed. The main statements:
sorting gives such an order (`stableOrder_inOrder`), no other list is one (`StableOrder.unique`),
and picking rules out before or after sorting is the same (`inOrder_filter`).
-/

namespace RiskDecision.Rule

/-- `ordered` lists the rules of `given` in ascending order of priority and, within one priority,
exactly as `given` lists them. -/
structure StableOrder (given ordered : List Rule) : Prop where
  ascending : ordered.Pairwise fun r s => r.priority ≤ s.priority
  keeps : ∀ p : Int, ordered.filter (fun r => r.priority = p) = given.filter fun r => r.priority = p

/-- Rules of one priority are in order already. -/
theorem pairwise_precedes_filter (rules : List Rule) (p : Int) :
    (rules.filter fun r => r.priority = p).Pairwise fun r s => precedes r s = true := by
  refine List.pairwise_of_forall_mem_list ?_
  intro r hr s hs
  have hrp : r.priority = p := of_decide_eq_true (List.mem_filter.mp hr).2
  have hsp : s.priority = p := of_decide_eq_true (List.mem_filter.mp hs).2
  simp only [precedes, hrp, hsp, Int.le_refl, decide_true]

/-- Picking rules out before or after sorting is the same. -/
theorem inOrder_filter (rules : List Rule) (q : Rule → Bool) :
    inOrder (rules.filter q) = (inOrder rules).filter q :=
  (filter_mergeSort precedes_trans precedes_total q rules).symm

/-- **STABILITY**: sorting keeps the rules of one priority in their order. -/
theorem filter_inOrder (rules : List Rule) (p : Int) :
    (inOrder rules).filter (fun r => r.priority = p) = rules.filter fun r => r.priority = p := by
  rw [← inOrder_filter]
  exact List.mergeSort_of_pairwise (pairwise_precedes_filter rules p)

@[simp] theorem inOrder_nil : inOrder [] = [] := List.mergeSort_nil

/-- Sorting gives a stable order. -/
theorem stableOrder_inOrder (rules : List Rule) : StableOrder rules (inOrder rules) :=
  ⟨inOrder_sorted rules, filter_inOrder rules⟩

namespace StableOrder

/-- Picking rules out of an ordered list orders the picked rules. -/
theorem filter {given ordered : List Rule} (h : StableOrder given ordered) (q : Rule → Bool) :
    StableOrder (given.filter q) (ordered.filter q) := by
  refine ⟨h.ascending.filter q, ?_⟩
  intro p
  rw [List.filter_comm, h.keeps p, List.filter_comm]

/-- A change that leaves the priorities alone leaves the order alone. -/
theorem map {given ordered : List Rule} (h : StableOrder given ordered) {f : Rule → Rule}
    (hf : ∀ r, (f r).priority = r.priority) : StableOrder (given.map f) (ordered.map f) := by
  have hpick : ∀ (l : List Rule) (p : Int),
      (l.map f).filter (fun r => r.priority = p) = (l.filter fun r => r.priority = p).map f := by
    intro l p
    rw [List.filter_map]
    congr 1
    refine List.filter_congr ?_
    intro r _
    simp only [Function.comp_apply, hf r]
  refine ⟨?_, ?_⟩
  · refine List.pairwise_map.mpr (h.ascending.imp ?_)
    intro r s hrs
    rw [hf r, hf s]
    exact hrs
  · intro p
    rw [hpick, hpick, h.keeps p]

/-- Two ordered lists with the same rules of each priority begin with the same rule. -/
theorem head_eq {r s : Rule} {rs ss : List Rule}
    (hr : (r :: rs).Pairwise fun a b => a.priority ≤ b.priority)
    (hs : (s :: ss).Pairwise fun a b => a.priority ≤ b.priority)
    (hkeeps : ∀ p : Int, (r :: rs).filter (fun a => a.priority = p)
      = (s :: ss).filter fun a => a.priority = p) : r = s := by
  have hmem : ∀ {a b : Rule} {as bs : List Rule},
      (a :: as).filter (fun c => c.priority = a.priority)
        = (b :: bs).filter (fun c => c.priority = a.priority) → a ∈ b :: bs := by
    intro a b as bs h
    have ha : a ∈ (a :: as).filter fun c => c.priority = a.priority := by
      rw [List.mem_filter]
      exact ⟨List.mem_cons_self, decide_eq_true rfl⟩
    rw [h] at ha
    exact (List.mem_filter.mp ha).1
  have hle : ∀ {a b : Rule} {bs : List Rule},
      (b :: bs).Pairwise (fun a b => a.priority ≤ b.priority) → a ∈ b :: bs →
      b.priority ≤ a.priority := by
    intro a b bs h ha
    rcases List.mem_cons.mp ha with heq | htail
    · exact Int.le_of_eq (congrArg Rule.priority heq.symm)
    · exact (List.pairwise_cons.mp h).1 a htail
  have hrs : r.priority = s.priority :=
    Int.le_antisymm (hle hr (hmem (hkeeps s.priority).symm)) (hle hs (hmem (hkeeps r.priority)))
  have hfirst := hkeeps r.priority
  rw [List.filter_cons_of_pos (by simp), List.filter_cons_of_pos (by simp [hrs])] at hfirst
  exact (List.cons.inj hfirst).1

/-- Ordered lists are determined by their rules of each priority. -/
theorem eq_of_keeps {rs ss : List Rule} (hr : rs.Pairwise fun a b => a.priority ≤ b.priority)
    (hs : ss.Pairwise fun a b => a.priority ≤ b.priority)
    (hkeeps : ∀ p : Int, rs.filter (fun a => a.priority = p)
      = ss.filter fun a => a.priority = p) : rs = ss := by
  induction rs generalizing ss with
  | nil =>
      cases ss with
      | nil => rfl
      | cons s ss =>
          have h := hkeeps s.priority
          rw [List.filter_cons_of_pos (by simp)] at h
          exact nomatch h
  | cons r rs ih =>
      cases ss with
      | nil =>
          have h := hkeeps r.priority
          rw [List.filter_cons_of_pos (by simp)] at h
          exact nomatch h
      | cons s ss =>
          have hrs : r = s := head_eq hr hs hkeeps
          subst hrs
          have htail : rs = ss := by
            refine ih (List.pairwise_cons.mp hr).2 (List.pairwise_cons.mp hs).2 ?_
            intro p
            have h := hkeeps p
            by_cases hp : r.priority = p
            · rw [List.filter_cons_of_pos (by simp [hp]),
                List.filter_cons_of_pos (by simp [hp])] at h
              exact (List.cons.inj h).2
            · rw [List.filter_cons_of_neg (by simp [hp]),
                List.filter_cons_of_neg (by simp [hp])] at h
              exact h
          rw [htail]

/-- **UNIQUENESS**: there is one stable order. -/
theorem unique {given ordered other : List Rule} (h : StableOrder given ordered)
    (h' : StableOrder given other) : ordered = other :=
  eq_of_keeps h.ascending h'.ascending fun p => (h.keeps p).trans (h'.keeps p).symm

end StableOrder

/-- A change that leaves the priorities alone may come before or after sorting. -/
theorem inOrder_map (rules : List Rule) {f : Rule → Rule} (hf : ∀ r, (f r).priority = r.priority) :
    inOrder (rules.map f) = (inOrder rules).map f :=
  (stableOrder_inOrder (rules.map f)).unique ((stableOrder_inOrder rules).map hf)

/-- Rules that are exchanged one by one for others of the same priorities are sorted alike: the new
rule comes to where the old one does. -/
theorem inOrder_exchange (pairs : List (Rule × Rule))
    (hpriority : ∀ p ∈ pairs, p.1.priority = p.2.priority) :
    ∃ ordered : List (Rule × Rule), ordered.Perm pairs ∧
      inOrder (pairs.map Prod.fst) = ordered.map Prod.fst ∧
      inOrder (pairs.map Prod.snd) = ordered.map Prod.snd := by
  refine ⟨pairs.mergeSort fun p q => precedes p.1 q.1, List.mergeSort_perm _ _, ?_, ?_⟩
  · rw [inOrder, List.map_mergeSort]
    exact fun _ _ _ _ => rfl
  · rw [inOrder, List.map_mergeSort]
    intro p hp q hq
    rw [precedes, precedes, hpriority p hp, hpriority q hq]

/-- Sorted rules are not moved by sorting. -/
theorem inOrder_eq_self {rules : List Rule}
    (h : rules.Pairwise fun r s => r.priority ≤ s.priority) : inOrder rules = rules :=
  (stableOrder_inOrder rules).unique ⟨h, fun _ => rfl⟩

end RiskDecision.Rule
