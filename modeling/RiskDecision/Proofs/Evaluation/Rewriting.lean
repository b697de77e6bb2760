import Mathlib.Logic.Relation
import RiskDecision.Proofs.Evaluation.Nodes

/-!
# Rewriting a condition tree

Whoever edits a condition tree reorders the children of a group, merges a group into the one above
it, wraps a node in a group, copies a child or clears away an empty group, and expects the rule to
apply to the same cases as before. `Condition.Rewrites` lists these steps, at any depth. The truth of
a group with children depends only on whether the decisive truth occurs among them
(`Connective.join_of_ne_nil`), and each step keeps that as it is. The main statement,
`runConditions_rewritten`, goes from single steps to any number of them. It also says where the list
ends: an empty group makes a disjunction hold, so it cannot be cleared away there.
-/

namespace RiskDecision

/-- One tree is rewritten to another one in a single step. -/
inductive Condition.Rewrites : Condition → Condition → Prop
  /-- The children of a group change places. -/
  | permute (k : Connective) {children children' : List Condition} (h : children.Perm children') :
      Rewrites (.group k children) (.group k children')
  /-- A group with children is merged into the group above it, which has the same connective. -/
  | merge (k : Connective) (before inner after : List Condition) (h : inner ≠ []) :
      Rewrites (.group k (before ++ .group k inner :: after)) (.group k (before ++ (inner ++ after)))
  /-- A node becomes the only child of a group. -/
  | wrap (k : Connective) (t : Condition) : Rewrites t (.group k [t])
  /-- A child is copied. -/
  | copy (k : Connective) (before : List Condition) (child : Condition) (after : List Condition) :
      Rewrites (.group k (before ++ child :: after)) (.group k (before ++ child :: child :: after))
  /-- An empty group is cleared away from a conjunction. -/
  | clear (k : Connective) (before after : List Condition) :
      Rewrites (.group .and (before ++ .group k [] :: after)) (.group .and (before ++ after))
  /-- A child is rewritten. -/
  | inside (k : Connective) (before after : List Condition) {child child' : Condition}
      (h : Rewrites child child') :
      Rewrites (.group k (before ++ child :: after)) (.group k (before ++ child' :: after))

/-! ## Joint truths -/

namespace Connective

variable {k : Connective} {bs bs' : List Bool}

/-- A group with children comes to the decisive truth if that occurs among them. -/
theorem join_of_ne_nil (hne : bs ≠ []) :
    k.join bs = if k.decisive ∈ bs then k.decisive else !k.decisive := by
  obtain ⟨b, rest, rfl⟩ := List.exists_cons_of_ne_nil hne
  rw [join_cons, List.any_beq']
  simp only [List.contains_iff_mem]

theorem join_eq_decisive_iff (hne : bs ≠ []) : k.join bs = k.decisive ↔ k.decisive ∈ bs := by
  rw [join_of_ne_nil hne]
  by_cases hmem : k.decisive ∈ bs
  · rw [if_pos hmem]
    exact iff_of_true rfl hmem
  · rw [if_neg hmem]
    exact iff_of_false (Bool.not_eq_self k.decisive).mp hmem

theorem join_eq_of_decisive_iff (hne : bs ≠ []) (hne' : bs' ≠ [])
    (h : k.decisive ∈ bs ↔ k.decisive ∈ bs') : k.join bs = k.join bs' := by
  rw [join_of_ne_nil hne, join_of_ne_nil hne']
  simp only [h]

/-- Only which truths occur matters, not how often and not in which order. -/
theorem join_congr (h : ∀ b, b ∈ bs ↔ b ∈ bs') : k.join bs = k.join bs' := by
  by_cases hne : bs = []
  · have hne' : bs' = [] :=
      List.eq_nil_iff_forall_not_mem.mpr fun b hb => List.not_mem_nil (hne ▸ (h b).mpr hb)
    rw [hne, hne']
  · have hne' : bs' ≠ [] := by
      rintro rfl
      exact hne (List.eq_nil_iff_forall_not_mem.mpr fun b hb => List.not_mem_nil ((h b).mp hb))
    exact join_eq_of_decisive_iff hne hne' (h k.decisive)

theorem join_singleton (b : Bool) : k.join [b] = b := by
  cases k <;> cases b <;> rfl

/-- The truths of an inner group with the same connective can stand in its place. -/
theorem join_merge (before after : List Bool) {inner : List Bool} (hne : inner ≠ []) :
    k.join (before ++ k.join inner :: after) = k.join (before ++ (inner ++ after)) := by
  refine join_eq_of_decisive_iff ?_ ?_ ?_
  · exact List.append_ne_nil_of_right_ne_nil _ (List.cons_ne_nil _ _)
  · exact List.append_ne_nil_of_right_ne_nil _ (List.append_ne_nil_of_left_ne_nil hne _)
  · rw [List.mem_append, List.mem_cons, List.mem_append, List.mem_append, eq_comm,
      join_eq_decisive_iff hne]

theorem join_and (bs : List Bool) : Connective.and.join bs = bs.all id := by
  cases bs <;> rfl

/-- A truth that holds can be left out of a conjunction. -/
theorem join_clear (before after : List Bool) :
    Connective.and.join (before ++ true :: after) = Connective.and.join (before ++ after) := by
  rw [join_and, join_and, List.all_append, List.all_append, List.all_cons]
  rfl

/-- A disjunction with children holds if one of them does. -/
theorem join_or_iff (hne : bs ≠ []) : Connective.or.join bs = true ↔ true ∈ bs :=
  join_eq_decisive_iff hne

end Connective

/-! ## Steps of rewriting -/

theorem truths_append (v : Clause → Bool) (before after : List Condition) :
    truths v (before ++ after) = truths v before ++ truths v after := by
  rw [truths_eq_map, truths_eq_map, truths_eq_map, List.map_append]

namespace Condition

variable {v : Clause → Bool} {t t' : Condition}

/-- An empty group holds. -/
theorem truth_group_nil (k : Connective) : (Condition.group k []).truth v = true := by
  cases k <;> rfl

/-- **ONE STEP** keeps the truth of the tree. -/
theorem Rewrites.truth_eq (h : t.Rewrites t') : t.truth v = t'.truth v := by
  induction h with
  | permute k hperm =>
      rw [truth, truth, truths_eq_map, truths_eq_map]
      exact Connective.join_congr fun b => (hperm.map _).mem_iff
  | merge k before inner after hne =>
      -- without children the inner group would hold, whatever the outer one is
      have hinner : truths v inner ≠ [] := by
        rw [truths_eq_map]
        exact mt List.map_eq_nil_iff.mp hne
      rw [truth, truth, truths_append, truths, truth, truths_append, truths_append]
      exact Connective.join_merge _ _ hinner
  | wrap k t => exact (Connective.join_singleton _).symm
  | copy k before child after =>
      -- the copy brings no truth that is not there already
      rw [truth, truth, truths_append, truths_append, truths, truths, truths]
      refine Connective.join_congr fun b => ?_
      simp only [List.mem_append, List.mem_cons, or_self_left]
  | clear k before after =>
      rw [truth, truth, truths_append, truths, truth_group_nil, truths_append]
      exact Connective.join_clear _ _
  | inside k before after _ ih => rw [truth, truth, truths_append, truths_append, truths, truths, ih]

/-- **ANY NUMBER OF STEPS**, forwards or backwards, keeps the truth of the tree. -/
theorem truth_eq_of_eqvGen (h : Relation.EqvGen Rewrites t t') : t.truth v = t'.truth v := by
  induction h with
  | rel _ _ hstep => exact hstep.truth_eq
  | refl _ => rfl
  | symm _ _ _ ih => exact ih.symm
  | trans _ _ _ _ _ ih ih' => exact ih.trans ih'

/-- A disjunction with an empty group among its children holds. -/
theorem truth_or_empty (k : Connective) (before after : List Condition) :
    (Condition.group .or (before ++ .group k [] :: after)).truth v = true := by
  rw [truth, truths_append, truths, truth_group_nil, Connective.join_or_iff]
  · exact List.mem_append_right _ List.mem_cons_self
  · exact List.append_ne_nil_of_right_ne_nil _ (List.cons_ne_nil _ _)

/-- A disjunction fails if it has children and all of them fail. -/
theorem truth_or_eq_false_iff {children : List Condition} :
    (Condition.group .or children).truth v = false
      ↔ children ≠ [] ∧ ∀ child ∈ children, child.truth v = false := by
  by_cases hne : children = []
  · rw [hne, truth_group_nil]
    exact iff_of_false nofun fun h => h.1 rfl
  · have htruths : children.map (truth v) ≠ [] := mt List.map_eq_nil_iff.mp hne
    rw [truth, truths_eq_map, ← Bool.not_eq_true, Connective.join_or_iff htruths, List.mem_map,
      and_iff_right hne]
    simp only [not_exists, not_and, Bool.not_eq_true]

end Condition

/-- **REWRITING.** Trees that lead to each other by rewriting steps, any number of them and at any
depth, match the same cases, and so do rules with these trees as their conditions. An empty group is
not cleared away from a disjunction: with it the disjunction matches every case, and without it the
disjunction fails wherever there are other children and all of them fail. -/
theorem runConditions_rewritten (aliases : List String) (c : Case) :
    (∀ (t t' : Condition) (address address' : Address),
      Relation.EqvGen Condition.Rewrites t t' →
      (t.run aliases c address).matched = (t'.run aliases c address').matched) ∧
    (∀ root root' : Group, Relation.EqvGen Condition.Rewrites root.tree root'.tree →
      (runConditions aliases c (some root)).matched
        = (runConditions aliases c (some root')).matched) ∧
    ∀ (k : Connective) (before after : List Condition) (address : Address),
      ((Condition.group .or (before ++ .group k [] :: after)).run aliases c address).matched = true ∧
      (((Condition.group .or (before ++ after)).run aliases c address).matched = false ↔
        before ++ after ≠ [] ∧
        ∀ child ∈ before ++ after, (child.run aliases c address).matched = false) := by
  have hrewritten : ∀ (t t' : Condition) (address address' : Address),
      Relation.EqvGen Condition.Rewrites t t' →
      (t.run aliases c address).matched = (t'.run aliases c address').matched := by
    intro t t' address address' h
    rw [Condition.run_matched, Condition.run_matched]
    exact Condition.truth_eq_of_eqvGen h
  refine ⟨hrewritten, ?_, ?_⟩
  · intro root root' h
    exact hrewritten root.tree root'.tree [] [] h
  · intro k before after address
    simp only [Condition.run_matched]
    exact ⟨Condition.truth_or_empty k before after, Condition.truth_or_eq_false_iff⟩

/-- A group is merged, a clause in it wrapped, the children exchanged and one of them copied, the
whole wrapped and an empty group added. The result is still that of the first tree. An empty group
beside a clause that nobody can evaluate is another matter. -/
theorem runConditions_rewritten_transfer :
    let abroad : Condition := .clause ⟨"preprocessed.country", .notEquals, .text "GB", none⟩
    let young : Condition := .clause ⟨"preprocessed.age", .isNull, .null, none⟩
    let odd : Condition := .clause ⟨"preprocessed.country", .unknown "SOUNDS_LIKE", .null, none⟩
    let root : Group := ⟨.or, [.group .or [odd, abroad], young]⟩
    let root' : Group :=
      ⟨.and, [.group .or [young, odd, .group .and [abroad], odd], .group .or []]⟩
    let c : Case := ⟨.mk "Transfer" [], 0.5, [("country", .text "GB"), ("age", .number 3)], none⟩
    Relation.EqvGen Condition.Rewrites root.tree root'.tree ∧
      (runConditions [] c (some root)).matched = (runConditions [] c (some root')).matched ∧
      ((Condition.group .or [.group .and [], odd]).run [] c []).matched = true ∧
      ((Condition.group .or [odd]).run [] c []).matched = false := by
  intro abroad young odd root root' c
  have main := runConditions_rewritten [] c
  have h : Relation.EqvGen Condition.Rewrites root.tree root'.tree := by
    refine .trans _ (.group .or [odd, abroad, young]) _ ?_ ?_
    · exact .rel _ _ (.merge .or [] [odd, abroad] [young] nofun)
    refine .trans _ (.group .or [odd, .group .and [abroad], young]) _ ?_ ?_
    · exact .rel _ _ (.inside .or [odd] [young] (.wrap .and abroad))
    refine .trans _ (.group .or [odd, odd, .group .and [abroad], young]) _ ?_ ?_
    · exact .rel _ _ (.copy .or [] odd _)
    refine .trans _ (.group .or [young, odd, .group .and [abroad], odd]) _ ?_ ?_
    · refine .rel _ _ (.permute .or ?_)
      exact (List.perm_append_singleton young [odd, odd, .group .and [abroad]]).trans
        (.cons _ (.cons _ (.swap _ _ _)))
    refine .trans _ (.group .and [.group .or [young, odd, .group .and [abroad], odd]]) _ ?_ ?_
    · exact .rel _ _ (.wrap .and _)
    · exact .symm _ _ (.rel _ _ (.clear .or [_] []))
  refine ⟨h, main.2.1 root root' h, (main.2.2 .and [] [odd] []).1, ?_⟩
  exact (main.2.2 .and [] [odd] []).2.mpr ⟨nofun, List.forall_mem_singleton.mpr rfl⟩

end RiskDecision
