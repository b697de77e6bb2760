import Mathlib.Data.List.Basic

/-!
# Picking from what is sorted

Rules are sorted by their priorities and files by their names, and in both cases some of them are
picked out. To a stable sort it makes no difference whether that is done before or after: in which
order two elements come depends on them alone, not on what else there is (`filter_mergeSort`).
-/

namespace RiskDecision

variable {α : Type} {le : α → α → Bool}

/-- A stable sort puts one more element behind those that must come before it. -/
theorem mergeSort_cons_eq (htrans : ∀ a b c, le a b = true → le b c = true → le a c = true)
    (htotal : ∀ a b, (le a b || le b a) = true) (a : α) (l : List α) :
    (a :: l).mergeSort le
      = (l.mergeSort le).filter (fun b => !le a b) ++ a :: (l.mergeSort le).filter (le a) := by
  obtain ⟨before, behind, hcons, htail, hbefore⟩ := List.mergeSort_cons htrans htotal a l
  have hsorted := List.pairwise_mergeSort htrans htotal (a :: l)
  rw [hcons] at hsorted
  have hbehind : ∀ b ∈ behind, le a b = true :=
    (List.pairwise_cons.mp (List.pairwise_append.mp hsorted).2.1).1
  have hnot : behind.filter (fun b => !le a b) = [] := by
    simpa using hbehind
  have hnil : before.filter (le a) = [] := by
    simpa using hbefore
  rw [hcons, htail, List.filter_append, List.filter_append, hnot, hnil, List.append_nil,
    List.nil_append, List.filter_eq_self.mpr hbefore, List.filter_eq_self.mpr hbehind]

/-- Picking elements out before or after a stable sort is the same. -/
theorem filter_mergeSort (htrans : ∀ a b c, le a b = true → le b c = true → le a c = true)
    (htotal : ∀ a b, (le a b || le b a) = true) (keep : α → Bool) (l : List α) :
    (l.mergeSort le).filter keep = (l.filter keep).mergeSort le := by
  induction l with
  | nil => rw [List.filter_nil, List.mergeSort_nil, List.filter_nil]
  | cons a l ih =>
      by_cases h : keep a = true
      · rw [mergeSort_cons_eq htrans htotal, List.filter_append, List.filter_comm keep,
          List.filter_cons_of_pos h, List.filter_comm keep, ih, List.filter_cons_of_pos h,
          mergeSort_cons_eq htrans htotal]
      · obtain ⟨before, behind, hcons, htail, -⟩ := List.mergeSort_cons htrans htotal a l
        rw [hcons, List.filter_append, List.filter_cons_of_neg h, ← List.filter_append, ← htail, ih,
          List.filter_cons_of_neg h]

end RiskDecision
