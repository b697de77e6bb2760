import RiskDecision.Value.Basic
import RiskDecision.Proofs.Decimal.Characters
import RiskDecision.Proofs.Decimal.Order
import RiskDecision.Proofs.Decimal.Text

/-!
# Numbers and their texts

A number equals a text if the text denotes it, or if it is the very text of the number. For a number
the second way adds nothing to the first (`matchesText_number_iff`): its own text reads back as an
equal number, without a sign on zero. Only NaN, which equals no number, needs it. So what a number
equals is decided by the number that a text denotes, whatever its spelling
(`matchesText_number_of_read?`).
-/

namespace RiskDecision.Value

/-- The text of a number reads back as an equal number. -/
theorem read?_numberText (x : Float) :
    ∃ y, Decimal.read? (numberText x) = some y ∧ ∀ z, (y == z) = (x == z) := by
  rw [numberText]
  split
  · next hzero => exact ⟨0, rfl, fun z => (Decimal.congr_of_beq hzero z).1.symm⟩
  · exact ⟨x, Decimal.read?_text x, fun _ => rfl⟩

theorem trim_numberText (x : Float) : Text.trim (numberText x) = numberText x := by
  obtain ⟨y, hy, -⟩ := read?_numberText x
  exact Decimal.trim_of_read? hy

theorem denotes_iff {t : String} {x : Float} :
    denotes t x = true ↔ ∃ y, Decimal.read? (Text.trim t) = some y ∧ (y == x) = true := by
  rw [denotes]
  cases Decimal.read? (Text.trim t) with
  | none => exact ⟨(nomatch ·), fun ⟨y, hy, _⟩ => nomatch hy⟩
  | some y => exact ⟨fun h => ⟨y, rfl, h⟩, fun ⟨z, hz, h⟩ => Option.some.inj hz ▸ h⟩

/-- The text of a number denotes what equals the number. -/
theorem denotes_numberText (x z : Float) : denotes (numberText x) z = (x == z) := by
  obtain ⟨y, hy, heq⟩ := read?_numberText x
  rw [denotes, trim_numberText, hy]
  exact heq z

/-- **SPELLINGS.** A number equals the texts that denote it, and no others. -/
theorem matchesText_number_iff {n : Float} (hn : n.isNaN = false) (t : String) :
    (Value.number n).matchesText t = true ↔
      ∃ y, Decimal.read? (Text.trim t) = some y ∧ (y == n) = true := by
  rw [← denotes_iff, matchesText, Bool.or_eq_true, beq_iff_eq]
  constructor
  · rintro (h | rfl)
    · exact h
    · exact (denotes_numberText n n).trans (Decimal.beq_self hn)
  · exact Or.inl

/-- Against a text that denotes a number, this number alone decides, also for NaN. -/
theorem matchesText_number_of_read? {t : String} {y : Float}
    (hread : Decimal.read? (Text.trim t) = some y) (hy : y.isNaN = false) (x : Float) :
    (Value.number x).matchesText t = (y == x) := by
  have hdenotes : ∀ z, denotes t z = (y == z) := fun z => by rw [denotes, hread]
  show (denotes t x || numberText x == t) = (y == x)
  rw [hdenotes]
  by_cases hown : numberText x = t
  · -- the number shows this very text, so it is the number that the text denotes
    have hself : (x == y) = true := by
      rw [← denotes_numberText x y, hown, hdenotes]
      exact Decimal.beq_self hy
    rw [Decimal.beq_symm hself, Bool.true_or]
  · rw [beq_eq_false_iff_ne.mpr hown, Bool.or_false]

/-- Two numbers are compared by the text of one of them. -/
theorem matchesText_numberText {y : Float} (hy : y.isNaN = false) (x : Float) :
    (Value.number x).matchesText (numberText y) = (y == x) := by
  obtain ⟨z, hz, heq⟩ := read?_numberText y
  have hnumber : z.isNaN = false := by
    refine (Decimal.isNaN_eq_false_of_beq (y := y) ?_).1
    rw [heq]
    exact Decimal.beq_self hy
  rw [← heq]
  refine matchesText_number_of_read? ?_ hnumber x
  rw [trim_numberText, hz]

end RiskDecision.Value
