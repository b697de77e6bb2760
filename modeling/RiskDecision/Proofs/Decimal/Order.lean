import Mathlib.Algebra.Order.Group.Int
import Mathlib.Algebra.Order.Ring.Int
import Mathlib.Data.Prod.Lex
import RiskDecision.Decimal.Layout

/-!
# The order of doubles

The doubles that are numbers stand in a line: the negative infinity, the negative numbers, both
zeros in one rank, the positive numbers and the positive infinity. NaN has no rank. Every comparison
is the comparison of ranks (`compare_eq_rank`, `le_iff_rank`), so what is known of linear orders
applies to doubles: a smaller one is not larger, whatever can be compared at all is not larger than
itself, and two numbers stand in exactly one of three orders, which is all that the comparisons
report (`exists_ordering`). Doubles that compare equal are the same but for the sign of zero, and no
comparison tells them apart (`congr_of_beq`).
-/

namespace RiskDecision.Decimal

open Float.Model

/-! ## Ranks -/

/-- A rank in the line of numbers: the kind of the number, then its exponent and its mantissa, both
with its sign. -/
abbrev Rank := ℤ ×ₗ ℤ ×ₗ ℤ

namespace Rank

/-- The rank of a number of some kind. -/
def of (kind exponent mantissa : ℤ) : Rank := toLex (kind, toLex (exponent, mantissa))

theorem compare_of (k₁ k₂ e₁ e₂ m₁ m₂ : ℤ) :
    compare (of k₁ e₁ m₁) (of k₂ e₂ m₂)
      = (compare k₁ k₂).then ((compare e₁ e₂).then (compare m₁ m₂)) := rfl

/-- The rank of a datum, if it is a number. -/
def ofUnpacked? : UnpackedFloat → Option Rank
  | .notANumber => none
  | .infinity .negative => some (of (-2) 0 0)
  | .finite .negative m e _ => some (of (-1) (-e) (-m))
  | .zero _ => some (of 0 0 0)
  | .finite .positive m e _ => some (of 1 e m)
  | .infinity .positive => some (of 2 0 0)

end Rank

theorem compare_natCast (m n : ℕ) : compare (m : ℤ) (n : ℤ) = compare m n := by
  rw [← cmp_eq_compare, ← cmp_eq_compare]
  exact Int.natCast_strictMono.cmp_map_eq m n

theorem compare_neg (a b : ℤ) : compare (-a) (-b) = (compare a b).swap := by
  have hanti : StrictAnti fun n : ℤ => -n := fun _ _ h => neg_lt_neg h
  rw [← cmp_eq_compare, ← cmp_eq_compare, cmp_swap]
  exact hanti.cmp_map_eq a b

/-- **RANKS** are compared as the data are. -/
theorem compare_eq_rank {a b : UnpackedFloat} {p q : Rank} (ha : Rank.ofUnpacked? a = some p)
    (hb : Rank.ofUnpacked? b = some q) : a.compare b = some (compare p q) := by
  cases a with
  | notANumber => exact nomatch ha
  | infinity s =>
      cases b with
      | notANumber => exact nomatch hb
      | infinity t => cases s <;> cases t <;> cases ha <;> cases hb <;> rfl
      | zero t => cases s <;> cases ha <;> cases hb <;> rfl
      | finite t m e pos => cases s <;> cases t <;> cases ha <;> cases hb <;> rfl
  | zero s =>
      cases ha
      cases b with
      | notANumber => exact nomatch hb
      | infinity t => cases t <;> cases hb <;> rfl
      | zero t => cases hb; rfl
      | finite t m e pos => cases t <;> cases hb <;> rfl
  | finite s m e pos =>
      cases b with
      | notANumber => exact nomatch hb
      | infinity t => cases s <;> cases t <;> cases ha <;> cases hb <;> rfl
      | zero t => cases s <;> cases ha <;> cases hb <;> rfl
      | finite t m' e' pos' =>
          cases s with
          | positive =>
              cases ha
              cases t with
              | positive =>
                  cases hb
                  rw [Rank.compare_of, compare_natCast]
                  rfl
              | negative => cases hb; rfl
          | negative =>
              cases ha
              cases t with
              | positive => cases hb; rfl
              | negative =>
                  cases hb
                  rw [Rank.compare_of, compare_neg e e', compare_neg m m', compare_natCast,
                    ← Ordering.swap_then]
                  rfl

theorem Rank.ofUnpacked?_eq_none_iff {a : UnpackedFloat} :
    Rank.ofUnpacked? a = none ↔ a = .notANumber := by
  cases a with
  | notANumber => exact iff_of_true rfl rfl
  | infinity s => cases s <;> exact iff_of_false nofun nofun
  | zero s => exact iff_of_false nofun nofun
  | finite s m e pos => cases s <;> exact iff_of_false nofun nofun

/-- Numbers have ranks. -/
theorem Rank.exists_ofUnpacked? {a : UnpackedFloat} (h : a ≠ .notANumber) :
    ∃ p, Rank.ofUnpacked? a = some p :=
  Option.ne_none_iff_exists'.mp (mt Rank.ofUnpacked?_eq_none_iff.mp h)

/-! ## Comparing the parts of doubles -/

/-- A datum that is smaller than another one is not larger. -/
theorem unpackedLe_of_lt {a b : UnpackedFloat} (h : a.lt b = true) : a.le b = true := by
  have hcompare : a.compare b = some .lt := eq_of_beq h
  rw [UnpackedFloat.le, hcompare]
  rfl

/-- A datum that is a number is not larger than itself. -/
theorem unpackedLe_self {a : UnpackedFloat} (h : a ≠ .notANumber) : a.le a = true := by
  obtain ⟨p, hp⟩ := Rank.exists_ofUnpacked? h
  rw [UnpackedFloat.le, compare_eq_rank hp hp, compare_eq_iff_eq.mpr rfl]
  rfl

/-- What is no number cannot be compared. -/
theorem ne_notANumber_of_unpackedLe {a b : UnpackedFloat} (h : a.le b = true) :
    a ≠ .notANumber ∧ b ≠ .notANumber := by
  constructor
  · rintro rfl
    exact nomatch h
  · rintro rfl
    cases a <;> exact nomatch h

/-- Two numbers can be compared, and exchanging them exchanges the answer. -/
theorem compare_numbers {a b : UnpackedFloat} (ha : a ≠ .notANumber) (hb : b ≠ .notANumber) :
    ∃ o : Ordering, a.compare b = some o ∧ b.compare a = some o.swap := by
  obtain ⟨p, hp⟩ := Rank.exists_ofUnpacked? ha
  obtain ⟨q, hq⟩ := Rank.exists_ofUnpacked? hb
  refine ⟨compare p q, compare_eq_rank hp hq, ?_⟩
  rw [compare_eq_rank hq hp, ← cmp_eq_compare, ← cmp_eq_compare, cmp_swap]

/-- Two positive data that compare equal are the same. -/
theorem eq_of_compare_then {e₁ e₂ : Int} {m₁ m₂ : Nat}
    (h : (compare e₁ e₂).then (compare m₁ m₂) = .eq) : e₁ = e₂ ∧ m₁ = m₂ := by
  rw [Ordering.then_eq_eq] at h
  exact ⟨Std.LawfulEqOrd.eq_of_compare h.1, Std.LawfulEqOrd.eq_of_compare h.2⟩

/-- Data that compare equal are the same, or two zeros. -/
theorem eq_or_zero_of_compare {a b : UnpackedFloat} (h : a.compare b = some .eq) :
    a = b ∨ ∃ s t, a = .zero s ∧ b = .zero t := by
  cases a with
  | notANumber => exact nomatch h
  | infinity s =>
      cases b with
      | notANumber => exact nomatch h
      | infinity t => cases s <;> cases t <;> first | exact Or.inl rfl | exact nomatch h
      | zero t => cases s <;> exact nomatch h
      | finite t m e pos => cases s <;> exact nomatch h
  | zero s =>
      cases b with
      | notANumber => exact nomatch h
      | infinity t => cases t <;> exact nomatch h
      | zero t => exact Or.inr ⟨s, t, rfl, rfl⟩
      | finite t m e pos => cases t <;> exact nomatch h
  | finite s m e pos =>
      cases b with
      | notANumber => exact nomatch h
      | infinity t => cases t <;> exact nomatch h
      | zero t => cases s <;> exact nomatch h
      | finite t m' e' pos' =>
          cases s with
          | positive =>
              cases t with
              | positive =>
                  obtain ⟨rfl, rfl⟩ := eq_of_compare_then (Option.some.inj h)
                  exact Or.inl rfl
              | negative => exact nomatch h
          | negative =>
              cases t with
              | positive => exact nomatch h
              | negative =>
                  have heq := congrArg Ordering.swap (Option.some.inj h)
                  rw [Ordering.swap_swap] at heq
                  obtain ⟨rfl, rfl⟩ := eq_of_compare_then heq
                  exact Or.inl rfl

/-- No comparison tells data apart that compare equal. -/
theorem compare_congr {a b : UnpackedFloat} (h : a.compare b = some .eq) (c : UnpackedFloat) :
    a.compare c = b.compare c ∧ c.compare a = c.compare b := by
  rcases eq_or_zero_of_compare h with rfl | ⟨s, t, rfl, rfl⟩
  · exact ⟨rfl, rfl⟩
  · cases c with
    | notANumber => exact ⟨rfl, rfl⟩
    | infinity u => cases u <;> exact ⟨rfl, rfl⟩
    | zero u => exact ⟨rfl, rfl⟩
    | finite u m e pos => cases u <;> exact ⟨rfl, rfl⟩

/-! ## Comparing doubles -/

theorem le_iff {x y : Float} : x ≤ y ↔ x.toModel.unpack.le y.toModel.unpack = true :=
  decide_eq_true_iff

theorem lt_iff {x y : Float} : x < y ↔ x.toModel.unpack.lt y.toModel.unpack = true :=
  decide_eq_true_iff

theorem beq_iff {x y : Float} :
    (x == y) = true ↔ x.toModel.unpack.compare y.toModel.unpack = some .eq := by
  show (x.toModel.unpack.compare y.toModel.unpack == some .eq) = true ↔ _
  exact beq_iff_eq

theorem le_of_lt {x y : Float} (h : x < y) : x ≤ y := le_iff.mpr (unpackedLe_of_lt (lt_iff.mp h))

theorem isNaN_eq_false_iff {x : Float} : x.isNaN = false ↔ x.toModel.unpack ≠ .notANumber := by
  rw [Float.isNaN, Float.Model.isNaN]
  cases hx : x.toModel.unpack with
  | notANumber => exact ⟨(nomatch ·), fun h => absurd rfl h⟩
  | _ => exact ⟨fun _ => (nomatch ·), fun _ => rfl⟩

/-- Both ends of a comparison are numbers. -/
theorem isNaN_eq_false_of_le {x y : Float} (h : x ≤ y) : x.isNaN = false ∧ y.isNaN = false := by
  obtain ⟨hx, hy⟩ := ne_notANumber_of_unpackedLe (le_iff.mp h)
  exact ⟨isNaN_eq_false_iff.mpr hx, isNaN_eq_false_iff.mpr hy⟩

/-- Whatever equals anything is a number. -/
theorem isNaN_eq_false_of_beq {x y : Float} (h : (x == y) = true) :
    x.isNaN = false ∧ y.isNaN = false := by
  refine isNaN_eq_false_of_le (le_iff.mpr ?_)
  rw [UnpackedFloat.le, beq_iff.mp h]
  rfl

theorem le_self {x : Float} (h : x.isNaN = false) : x ≤ x :=
  le_iff.mpr (unpackedLe_self (isNaN_eq_false_iff.mp h))

/-- Both ends of a comparison are not larger than themselves. -/
theorem le_self_of_le {x y : Float} (h : x ≤ y) : x ≤ x ∧ y ≤ y := by
  obtain ⟨hx, hy⟩ := isNaN_eq_false_of_le h
  exact ⟨le_self hx, le_self hy⟩

theorem decide_lt (x y : Float) :
    decide (x < y) = x.toModel.unpack.lt y.toModel.unpack := by
  rw [Bool.eq_iff_iff, decide_eq_true_iff, lt_iff]

theorem decide_le (x y : Float) :
    decide (x ≤ y) = x.toModel.unpack.le y.toModel.unpack := by
  rw [Bool.eq_iff_iff, decide_eq_true_iff, le_iff]

/-- **TRICHOTOMY.** Two numbers stand in exactly one order, and every comparison reports it. -/
theorem exists_ordering {x y : Float} (hx : x.isNaN = false) (hy : y.isNaN = false) :
    ∃ o : Ordering, decide (y < x) = (o == .gt) ∧ decide (x < y) = (o == .lt) ∧
      (x == y) = (o == .eq) ∧ decide (y ≤ x) = o.isGE ∧ decide (x ≤ y) = o.isLE := by
  obtain ⟨o, ho, hswap⟩ := compare_numbers (isNaN_eq_false_iff.mp hx) (isNaN_eq_false_iff.mp hy)
  have hbeq : (x == y) = (o == .eq) := by
    rw [Bool.eq_iff_iff, beq_iff, ho, Option.some_inj, beq_iff_eq]
  refine ⟨o, ?_, ?_, hbeq, ?_, ?_⟩
  · rw [decide_lt, UnpackedFloat.lt, hswap]
    cases o <;> rfl
  · rw [decide_lt, UnpackedFloat.lt, ho]
    cases o <;> rfl
  · rw [decide_le, UnpackedFloat.le, hswap]
    cases o <;> rfl
  · rw [decide_le, UnpackedFloat.le, ho]
    cases o <;> rfl

/-- No comparison tells doubles apart that are equal. -/
theorem congr_of_beq {x y : Float} (h : (x == y) = true) (z : Float) :
    (x == z) = (y == z) ∧ decide (x ≤ z) = decide (y ≤ z) ∧ decide (z ≤ x) = decide (z ≤ y) := by
  obtain ⟨hleft, hright⟩ := compare_congr (beq_iff.mp h) z.toModel.unpack
  refine ⟨?_, ?_, ?_⟩
  · rw [Bool.eq_iff_iff, beq_iff, beq_iff, hleft]
  · rw [decide_le, decide_le, UnpackedFloat.le, UnpackedFloat.le, hleft]
  · rw [decide_le, decide_le, UnpackedFloat.le, UnpackedFloat.le, hright]

/-- A number equals itself. -/
theorem beq_self {x : Float} (hx : x.isNaN = false) : (x == x) = true := by
  obtain ⟨p, hp⟩ := Rank.exists_ofUnpacked? (isNaN_eq_false_iff.mp hx)
  rw [beq_iff, compare_eq_rank hp hp, compare_eq_iff_eq.mpr rfl]

theorem beq_symm {x y : Float} (h : (x == y) = true) : (y == x) = true := by
  rw [← (congr_of_beq h x).1]
  exact beq_self (isNaN_eq_false_of_beq h).1

theorem beq_comm (x y : Float) : (x == y) = (y == x) :=
  Bool.eq_iff_iff.mpr ⟨beq_symm, beq_symm⟩

/-! ## The rank of a double -/

/-- The rank of a double, if it is a number. -/
def rank? (x : Float) : Option Rank := Rank.ofUnpacked? x.toModel.unpack

theorem rank?_eq_none_iff {x : Float} : rank? x = none ↔ x.isNaN = true := by
  rw [← Bool.not_eq_false, isNaN_eq_false_iff, not_ne_iff, rank?, Rank.ofUnpacked?_eq_none_iff]

theorem exists_rank {x : Float} (h : x.isNaN = false) : ∃ p, rank? x = some p :=
  Rank.exists_ofUnpacked? (isNaN_eq_false_iff.mp h)

theorem isNaN_of_rank {x : Float} {p : Rank} (h : rank? x = some p) : x.isNaN = false := by
  rw [← Bool.not_eq_true, ← rank?_eq_none_iff, h]
  exact nofun

section Compare

variable {x y : Float} {p q : Rank} (hx : rank? x = some p) (hy : rank? y = some q)
include hx hy

theorem le_iff_rank : x ≤ y ↔ p ≤ q := by
  rw [le_iff, UnpackedFloat.le, compare_eq_rank hx hy, ← compare_le_iff_le]
  cases compare p q <;> decide

theorem lt_iff_rank : x < y ↔ p < q := by
  rw [lt_iff, UnpackedFloat.lt, compare_eq_rank hx hy, ← compare_lt_iff_lt]
  cases compare p q <;> decide

theorem beq_iff_rank : (x == y) = true ↔ p = q := by
  rw [beq_iff, compare_eq_rank hx hy, Option.some_inj, compare_eq_iff_eq]

end Compare

end RiskDecision.Decimal
