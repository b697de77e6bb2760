import RiskDecision.Proofs.Verdict.Bounds

/-!
# Clamping is a projection

A policy moves a score in the line of numbers: up to the lower bound if it lies below it, and then
down to the upper bound if it lies above that one. A bound or a score that is no number has no rank
in the line and is passed over. `clip` is what happens to the rank, a maximum and then a minimum,
each of whatever there is, and every policy acts like that (`rank?_apply`). So the laws of policies
are laws of `clip`, whatever the order of the bounds is and whichever of them are missing.
-/

namespace RiskDecision

open Decimal

/-- Two scores are the same number, up to the sign of zero, or neither of them is a number. -/
def SameScore (x y : Float) : Prop := (x == y) = true ∨ x.isNaN = true ∧ y.isNaN = true

/-- Two scores are the same if they have the same rank. -/
theorem sameScore_iff_rank {x y : Float} : SameScore x y ↔ rank? x = rank? y := by
  rw [SameScore]
  cases hx : rank? x with
  | none =>
      have hnan := rank?_eq_none_iff.mp hx
      have hne : ¬ (x == y) = true := fun h => by
        rw [(isNaN_eq_false_of_beq h).1] at hnan
        exact nomatch hnan
      rw [eq_comm (a := none), rank?_eq_none_iff]
      exact ⟨fun h => (h.resolve_left hne).2, fun h => Or.inr ⟨hnan, h⟩⟩
  | some p =>
      have hnumber := isNaN_of_rank hx
      cases hy : rank? y with
      | none =>
          have hnan := rank?_eq_none_iff.mp hy
          refine iff_of_false ?_ nofun
          rintro (h | ⟨h, -⟩)
          · rw [(isNaN_eq_false_of_beq h).2] at hnan
            exact nomatch hnan
          · rw [hnumber] at h
            exact nomatch h
      | some q =>
          rw [beq_iff_rank hx hy, Option.some_inj, hnumber]
          exact or_iff_left nofun

/-! ## Moving a rank between two bounds -/

section Clip

variable {α : Type} [LinearOrder α]

/-- The rank between two bounds that is next to a rank, where the upper bound comes second and a
missing bound or rank does not count. -/
def clip (low high rank : Option α) : Option α :=
  Option.merge min (Option.merge max rank low) high

/-- Ranks keep their order, and none gets lost. -/
theorem clip_mono (low high : Option α) {p q : α} (h : p ≤ q) :
    ∃ p' q', clip low high (some p) = some p' ∧ clip low high (some q) = some q' ∧ p' ≤ q' := by
  cases low with
  | none =>
      cases high with
      | none => exact ⟨_, _, rfl, rfl, h⟩
      | some u => exact ⟨_, _, rfl, rfl, min_le_min_right u h⟩
  | some l =>
      cases high with
      | none => exact ⟨_, _, rfl, rfl, max_le_max_right l h⟩
      | some u => exact ⟨_, _, rfl, rfl, min_le_min_right u (max_le_max_right l h)⟩

/-- A rank between the bounds is not moved. -/
theorem clip_of_between {l u p : α} (hl : l ≤ p) (hu : p ≤ u) :
    clip (some l) (some u) (some p) = some p := by
  rw [clip, Option.merge, Option.merge, max_eq_left hl, min_eq_left hu]

/-- Exchanged bounds leave the upper one only. -/
theorem clip_of_exchanged {l u : α} (h : u ≤ l) (rank : Option α) :
    clip (some l) (some u) rank = some u := by
  cases rank with
  | none => rw [clip, Option.merge, Option.merge, min_eq_right h]
  | some p => rw [clip, Option.merge, Option.merge, min_eq_right (le_max_of_le_right h)]

/-- Bounds in order have what is moved between them. -/
theorem exists_clip_between {l u : α} (h : l ≤ u) (rank : Option α) :
    ∃ p, clip (some l) (some u) rank = some p ∧ l ≤ p ∧ p ≤ u := by
  cases rank with
  | none => exact ⟨min l u, rfl, le_min le_rfl h, min_le_right l u⟩
  | some p => exact ⟨min (max p l) u, rfl, le_min (le_max_right p l) h, min_le_right _ u⟩

/-- **PROJECTION**: what was moved stays where it is. -/
theorem clip_clip (low high rank : Option α) :
    clip low high (clip low high rank) = clip low high rank := by
  cases low with
  | none => cases high <;> cases rank <;> simp [clip, Option.merge]
  | some l =>
      cases high with
      | none => cases rank <;> simp [clip, Option.merge]
      | some u =>
          rcases le_total l u with h | h
          · obtain ⟨p, hp, hl, hu⟩ := exists_clip_between h rank
            rw [hp, clip_of_between hl hu]
          · rw [clip_of_exchanged h, clip_of_exchanged h]

end Clip

/-! ## Policies -/

namespace ScorePolicy

/-- The choice between two scores by a test that only numbers pass, where one that is no number is
passed over. -/
theorem rank?_choice {x y : Float} {test : Bool} {f : Rank → Rank → Rank}
    (hnumber : test = true → x.isNaN = false)
    (hranks : ∀ p q, rank? x = some p → rank? y = some q → f p q = if test then p else q) :
    rank? (if y.isNaN || test then x else y) = Option.merge f (rank? x) (rank? y) := by
  cases hy : rank? y with
  | none => rw [rank?_eq_none_iff.mp hy, Bool.true_or, if_pos rfl, Option.merge_none_right]
  | some q =>
      rw [isNaN_of_rank hy, Bool.false_or]
      cases hx : rank? x with
      | none =>
          have htest : ¬ test = true := fun h => by
            have hnan := rank?_eq_none_iff.mp hx
            rw [hnumber h] at hnan
            exact nomatch hnan
          rw [if_neg htest, hy, Option.merge_none_left]
      | some p =>
          rw [Option.merge, hranks p q hx hy]
          split
          · exact hx
          · exact hy

theorem rank?_larger (x y : Float) :
    rank? (larger x y) = Option.merge max (rank? x) (rank? y) := by
  refine rank?_choice (fun h => (isNaN_eq_false_of_le (le_of_lt (of_decide_eq_true h))).2) ?_
  intro p q hx hy
  rw [max_comm, max_def_lt]
  simp only [decide_eq_true_eq, gt_iff_lt, lt_iff_rank hy hx]

theorem rank?_smaller (x y : Float) :
    rank? (smaller x y) = Option.merge min (rank? x) (rank? y) := by
  refine rank?_choice (fun h => (isNaN_eq_false_of_le (le_of_lt (of_decide_eq_true h))).1) ?_
  intro p q hx hy
  rw [min_def_lt]
  simp only [decide_eq_true_eq, lt_iff_rank hx hy]

/-- The ranks of the bounds; a policy that does not clamp has none. -/
def low? : ScorePolicy → Option Rank
  | .unclamped => none
  | .clamped low _ => rank? low

def high? : ScorePolicy → Option Rank
  | .unclamped => none
  | .clamped _ high => rank? high

/-- **POLICIES** move the rank of a score between their bounds. -/
theorem rank?_apply (policy : ScorePolicy) (score : Float) :
    rank? (policy.apply score) = clip policy.low? policy.high? (rank? score) := by
  cases policy with
  | unclamped => rw [low?, high?, clip, Option.merge_none_right, Option.merge_none_right]; rfl
  | clamped low high => rw [apply, rank?_smaller, rank?_larger]; rfl

/-- **A PROJECTION.** Under any policy, exchanged bounds and bounds that are no numbers included,
what was adjusted once is not moved any more and scores keep their order. Bounds in order move every
score between them, also one that is no number, and leave those alone that lie there; exchanged ones
move every score to the upper bound. -/
theorem apply_projection (policy : ScorePolicy) :
    (∀ s, SameScore (policy.apply (policy.apply s)) (policy.apply s)) ∧
    (∀ s t, s ≤ t → policy.apply s ≤ policy.apply t) ∧
    ∀ low high, policy = .clamped low high →
      (low ≤ high → ∀ s, Within low high (policy.apply s) ∧
        (Within low high s → SameScore (policy.apply s) s)) ∧
      (high < low → ∀ s, SameScore (policy.apply s) high) := by
  refine ⟨?_, ?_, ?_⟩
  · intro s
    rw [sameScore_iff_rank, rank?_apply, rank?_apply, clip_clip]
  · intro s t hst
    obtain ⟨hs, ht⟩ := isNaN_eq_false_of_le hst
    obtain ⟨p, hp⟩ := exists_rank hs
    obtain ⟨q, hq⟩ := exists_rank ht
    obtain ⟨p', q', hp', hq', hle⟩ :=
      clip_mono policy.low? policy.high? ((le_iff_rank hp hq).mp hst)
    rw [← hp, ← rank?_apply] at hp'
    rw [← hq, ← rank?_apply] at hq'
    exact (le_iff_rank hp' hq').mpr hle
  · rintro low high rfl
    constructor
    · intro bounds s
      refine ⟨within_apply_clamped bounds s, ?_⟩
      rintro ⟨hlow, hhigh⟩
      obtain ⟨p, hp⟩ := exists_rank (isNaN_eq_false_of_le hlow).2
      obtain ⟨l, hl⟩ := exists_rank (isNaN_eq_false_of_le hlow).1
      obtain ⟨u, hu⟩ := exists_rank (isNaN_eq_false_of_le hhigh).2
      rw [sameScore_iff_rank, rank?_apply, low?, high?, hl, hu, hp]
      exact clip_of_between ((le_iff_rank hl hp).mp hlow) ((le_iff_rank hp hu).mp hhigh)
    · intro exchanged s
      obtain ⟨hnhigh, hnlow⟩ := isNaN_eq_false_of_le (le_of_lt exchanged)
      obtain ⟨l, hl⟩ := exists_rank hnlow
      obtain ⟨u, hu⟩ := exists_rank hnhigh
      rw [sameScore_iff_rank, rank?_apply, low?, high?, hl, hu]
      exact clip_of_exchanged ((lt_iff_rank hu hl).mp exchanged).le _

/-- A score inside the unit interval, one above it and none at all; its bounds exchanged as well. -/
theorem clamped_unit_interval :
    ((0.25 : Float) ≤ 1.5 ∧
      apply (.clamped 0 1) 0.25 ≤ apply (.clamped 0 1) 1.5) ∧
    ((0 : Float) ≤ 1 ∧ Within 0 1 (apply (.clamped 0 1) (0 / 0))) ∧
    (Within 0 1 0.25 ∧ SameScore (apply (.clamped 0 1) 0.25) 0.25) ∧
    ((0 : Float) < 1 ∧ SameScore (apply (.clamped 1 0) (0 / 0)) 0) := by
  have hscores : (0.25 : Float) ≤ 1.5 := by decide +kernel
  have hbounds : (0 : Float) ≤ 1 := by decide +kernel
  have hexchanged : (0 : Float) < 1 := by decide +kernel
  have hwithin : Within 0 1 0.25 := ⟨by decide +kernel, by decide +kernel⟩
  obtain ⟨-, hmono, hclamped⟩ := apply_projection (.clamped 0 1)
  obtain ⟨-, -, hturned⟩ := apply_projection (.clamped 1 0)
  obtain ⟨hordered, -⟩ := hclamped 0 1 rfl
  exact ⟨⟨hscores, hmono _ _ hscores⟩, ⟨hbounds, (hordered hbounds _).1⟩,
    ⟨hwithin, (hordered hbounds _).2 hwithin⟩, hexchanged, (hturned 1 0 rfl).2 hexchanged _⟩

end ScorePolicy

end RiskDecision
