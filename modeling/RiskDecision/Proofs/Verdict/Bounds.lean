import RiskDecision.Proofs.Decimal.Order
import RiskDecision.Proofs.Verdict.Account

/-!
# Clamped scores stay within their bounds

A policy that clamps is applied to every sum, so the score is within the bounds from the first
adjustment on. The sums may be anything, even no number at all. What is used of doubles is that a
smaller one is not larger, and that what can be compared at all is not larger than itself.
-/

namespace RiskDecision

namespace ScorePolicy

/-- A score that is within two bounds. -/
def Within (low high score : Float) : Prop := low ≤ score ∧ score ≤ high

/-- **CLAMPING** moves every score between the bounds. -/
theorem within_apply_clamped {low high : Float} (bounds : low ≤ high) (score : Float) :
    Within low high ((clamped low high).apply score) := by
  obtain ⟨hlow, hhigh⟩ := Decimal.le_self_of_le bounds
  obtain ⟨hnlow, hnhigh⟩ := Decimal.isNaN_eq_false_of_le bounds
  -- after the lower bound was applied the score is not below it
  have hlarger : low ≤ larger score low := by
    rw [larger, hnlow, Bool.false_or]
    split
    · rename_i h
      exact Decimal.le_of_lt (of_decide_eq_true h)
    · exact hlow
  show Within low high (smaller (larger score low) high)
  rw [smaller, hnhigh, Bool.false_or]
  split
  · rename_i h
    exact ⟨hlarger, Decimal.le_of_lt (of_decide_eq_true h)⟩
  · exact ⟨bounds, hhigh⟩

/-- **SUMS**: after at least one adjustment the score is within the bounds. -/
theorem within_applySums_clamped {low high : Float} (bounds : low ≤ high) (score : Float)
    {points : List Float} (adjusted : points ≠ []) :
    Within low high ((clamped low high).applySums score points) := by
  -- only the last adjustment matters
  rw [← List.dropLast_concat_getLast adjusted, applySums, List.foldl_append]
  exact within_apply_clamped bounds _

/-- Without bounds the score is the plain sum, taken from left to right. -/
theorem applySums_unclamped (score : Float) (points : List Float) :
    unclamped.applySums score points = points.foldl (· + ·) score := rfl

end ScorePolicy

end RiskDecision
