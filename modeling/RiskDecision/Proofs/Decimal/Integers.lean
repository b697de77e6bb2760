import Mathlib
import RiskDecision.Proofs.Decimal.Nearest

/-!
# The double nearest to an integer

Every finite double stands for a rational number (`rational`). Between a double and its neighbours
there are no others (`IsDouble.gap`), so a number in the rounding interval of a double has none that
is nearer, and another one that is as near only where the mantissa is even (`nearest_of_holds`).
Every natural number of 64 bits lies in the interval of some double, which is the one that it
becomes. Together: an integer of 64 bits becomes the nearest double, the even one of two
(`isNearest_ofInt`).
-/

namespace RiskDecision.Decimal

open Float.Model
open Float.Model.UnpackedFloat

/-! ## Exact values -/

/-- The number that a datum stands for; zero if there is none. -/
def rationalUnpacked : UnpackedFloat → ℚ
  | .finite s m e _ => s.apply m * 2 ^ e
  | _ => 0

/-- The number that a double stands for; zero if there is none. -/
def rational (x : Float) : ℚ := rationalUnpacked x.toModel.unpack

/-- The double is finite, and no other one is nearer to the number; where another one is as near,
the double is the one of the two with the even mantissa. -/
structure IsNearest (x : Float) (q : ℚ) : Prop where
  finite : x.isFinite = true
  nearest : ∀ y : Float, y.isFinite = true → |rational x - q| ≤ |rational y - q| ∧
    (rational y ≠ rational x → |rational y - q| = |rational x - q| →
      (Binary.ofBits x.toBits).endsIncluded = true)

theorem rational_of_unpack {x : Float} {m : Nat} {e : Int} {hm : 0 < m}
    (h : x.toModel.unpack = .finite .positive m e hm) : rational x = m * 2 ^ e := by
  rw [rational, h]
  show ((m : Int) : ℚ) * 2 ^ e = m * 2 ^ e
  rw [Int.cast_natCast]

/-! ## Neighbours -/

section Gap

variable {m m' : Nat} {e e' : Int}

/-- How far the next smaller double is away, in last places. -/
def gapBelow (m : Nat) : ℚ := if m = 2 ^ 52 then 1 / 2 else 1

theorem gapBelow_pos (m : Nat) : 0 < gapBelow m := by
  rw [gapBelow]
  split_ifs <;> norm_num

theorem gapBelow_le_one (m : Nat) : gapBelow m ≤ 1 := by
  rw [gapBelow]
  split_ifs <;> norm_num

/-- A double with a larger exponent is a multiple of the last place. -/
theorem exists_places {m : Nat} {e e' : Int} (h : e ≤ e') :
    ∃ n : Nat, (m * 2 ^ e' : ℚ) = n * 2 ^ e := by
  obtain ⟨k, rfl⟩ : ∃ k : Nat, e' = e + k := ⟨(e' - e).toNat, by omega⟩
  refine ⟨m * 2 ^ k, ?_⟩
  rw [zpow_add₀ two_ne_zero, zpow_natCast, Nat.cast_mul, Nat.cast_pow, Nat.cast_ofNat]
  ring

/-- A double with a smaller exponent lies below all those of the exponent above. -/
theorem le_of_exponent_lt (h : IsDouble m e) (h' : IsDouble m' e') (hlt : e' < e) :
    (m' * 2 ^ e' : ℚ) ≤ (m - gapBelow m) * 2 ^ e := by
  have hfull : 2 ^ 52 ≤ m := h.full.resolve_right (by have := h'.low; omega)
  have hm' : (m' + 1 : ℚ) ≤ 2 ^ 53 := by exact_mod_cast h'.lt
  have hm : (2 ^ 52 - 1 / 2 : ℚ) ≤ m - gapBelow m := by
    rw [gapBelow]
    split_ifs with heq
    · rw [heq]
      norm_num
    · have : (2 ^ 52 + 1 : ℚ) ≤ m := by exact_mod_cast Nat.lt_of_le_of_ne hfull (Ne.symm heq)
      linarith
  calc (m' * 2 ^ e' : ℚ) ≤ (2 ^ 53 - 1) * 2 ^ e' :=
        mul_le_mul_of_nonneg_right (by linarith) (by positivity)
    _ ≤ (2 ^ 53 - 1) * 2 ^ (e - 1) :=
        mul_le_mul_of_nonneg_left (zpow_le_zpow_right₀ one_le_two (by omega)) (by norm_num)
    _ = (2 ^ 52 - 1 / 2) * 2 ^ e := by
        rw [zpow_sub_one₀ two_ne_zero]
        ring
    _ ≤ (m - gapBelow m) * 2 ^ e := mul_le_mul_of_nonneg_right hm (by positivity)

/-- **NEIGHBOURS.** Another double is at least a gap below or a last place above. -/
theorem IsDouble.gap (h : IsDouble m e) (h' : IsDouble m' e')
    (hne : (m' * 2 ^ e' : ℚ) ≠ m * 2 ^ e) :
    (m' * 2 ^ e' : ℚ) ≤ (m - gapBelow m) * 2 ^ e ∨ ((m + 1) * 2 ^ e : ℚ) ≤ m' * 2 ^ e' := by
  have hpow : (0 : ℚ) < 2 ^ e := by positivity
  rcases lt_or_ge e' e with hlt | hle
  · exact Or.inl (le_of_exponent_lt h h' hlt)
  · obtain ⟨n, hn⟩ := exists_places (m := m') hle
    rw [hn] at hne ⊢
    rw [mul_le_mul_iff_left₀ hpow, mul_le_mul_iff_left₀ hpow]
    have hnm : n ≠ m := fun heq => hne (by rw [heq])
    rcases Nat.lt_or_gt_of_ne hnm with hlt | hgt
    · left
      have hgap := gapBelow_le_one m
      have : (n + 1 : ℚ) ≤ m := by exact_mod_cast hlt
      linarith
    · right
      exact_mod_cast hgt

end Gap

/-- The rounding interval reaches half a gap down and half a last place up. -/
theorem holds_iff_gap {m : Nat} {e : Int} {x : ℚ} :
    (binary m e).Holds x ↔ ((m - gapBelow m / 2) * 2 ^ e ≤ x ∧ x ≤ (m + 1 / 2) * 2 ^ e) ∧
      (m % 2 = 1 → (m - gapBelow m / 2) * 2 ^ e < x ∧ x < (m + 1 / 2) * 2 ^ e) := by
  have hhalf : (if m = 2 ^ 52 then (1 / 4 : ℚ) else 1 / 2) = gapBelow m / 2 := by
    rw [gapBelow]
    split_ifs <;> norm_num
  rw [binary_holds_iff, binary_low, binary_high, hhalf]

/-- **NEARNESS.** To a number of its interval a double is nearer than what lies a gap below it or a
last place above it; as near is such a thing only if the mantissa is even. -/
theorem nearest_of_holds {m : Nat} {e : Int} {x v : ℚ} (hx : (binary m e).Holds x)
    (hv : v ≤ (m - gapBelow m) * 2 ^ e ∨ (m + 1) * 2 ^ e ≤ v) :
    |m * 2 ^ e - x| ≤ |v - x| ∧ (|v - x| = |m * 2 ^ e - x| → m % 2 = 0) := by
  obtain ⟨⟨hlow, hhigh⟩, hodd⟩ := holds_iff_gap.mp hx
  have hpow : (0 : ℚ) < 2 ^ e := by positivity
  have hstep : 0 < gapBelow m * 2 ^ e := mul_pos (gapBelow_pos m) hpow
  simp only [sub_mul, add_mul, div_mul_eq_mul_div, one_mul] at hlow hhigh hodd hv
  generalize (m * 2 ^ e : ℚ) = value at *
  generalize gapBelow m * 2 ^ e = gap at *
  generalize (2 : ℚ) ^ e = place at *
  constructor
  · rcases abs_cases (value - x) with h | h <;> rcases abs_cases (v - x) with h' | h' <;>
      rcases hv with hv | hv <;> linarith
  · intro heq
    by_contra hne
    obtain ⟨hlow', hhigh'⟩ := hodd (Nat.mod_two_ne_zero.mp hne)
    rcases abs_cases (value - x) with h | h <;> rcases abs_cases (v - x) with h' | h' <;>
      rcases hv with hv | hv <;> linarith

/-- What is no positive double lies a gap below any positive double. -/
theorem le_gap_of_nonpos {m : Nat} (hm : 0 < m) (e : Int) {v : ℚ} (hv : v ≤ 0) :
    v ≤ (m - gapBelow m) * 2 ^ e := by
  have hone : (1 : ℚ) ≤ m := by exact_mod_cast hm
  have hgap := gapBelow_le_one m
  exact hv.trans (mul_nonneg (by linarith) (by positivity))

/-- Every other finite double is a gap below a positive double or a last place above it. -/
theorem rational_gap {m : Nat} {e : Int} (h : IsDouble m e) {y : Float}
    (hne : rational y ≠ m * 2 ^ e) :
    rational y ≤ (m - gapBelow m) * 2 ^ e ∨ (m + 1) * 2 ^ e ≤ rational y := by
  rw [rational] at hne ⊢
  cases hy : y.toModel.unpack with
  | notANumber => exact Or.inl (le_gap_of_nonpos h.pos e le_rfl)
  | infinity s => exact Or.inl (le_gap_of_nonpos h.pos e le_rfl)
  | zero s => exact Or.inl (le_gap_of_nonpos h.pos e le_rfl)
  | finite s m' e' hm' =>
      rw [hy] at hne
      have hdouble := isDouble_of_unpack hy
      cases s with
      | positive =>
          have hvalue : rationalUnpacked (.finite .positive m' e' hm') = m' * 2 ^ e' :=
            congrArg (· * (2 : ℚ) ^ e') (Int.cast_natCast m')
          rw [hvalue] at hne ⊢
          exact h.gap hdouble hne
      | negative =>
          refine Or.inl (le_gap_of_nonpos h.pos e ?_)
          show ((-(m' : Int) : Int) : ℚ) * 2 ^ e' ≤ 0
          rw [Int.cast_neg, Int.cast_natCast, neg_mul, neg_nonpos]
          positivity

/-! ## Integers -/

/-- A number between two doubles of one exponent is rounded down or up, to the even one if it lies
in the middle. -/
theorem exists_holds_between {q r k : Nat} (hlow : 2 ^ 52 ≤ q) (hhigh : q < 2 ^ 53)
    (hr : r < 2 ^ k) (hk : k < 12) :
    ∃ m e, IsDouble m e ∧ (binary m e).Holds (q * 2 ^ k + r : Nat) := by
  have hpow : (0 : ℚ) < 2 ^ (k : Int) := by positivity
  have hn : ((q * 2 ^ k + r : Nat) : ℚ) = q * 2 ^ (k : Int) + r := by
    rw [zpow_natCast]
    push_cast
    rfl
  have hrest : (r : ℚ) < 2 ^ (k : Int) := by
    rw [zpow_natCast]
    exact_mod_cast hr
  have hnonneg : (0 : ℚ) ≤ r := Nat.cast_nonneg r
  rw [hn]
  by_cases hdown : 2 * r < 2 ^ k ∨ 2 * r = 2 ^ k ∧ q % 2 = 0
  · refine ⟨q, k, ⟨by omega, hhigh, by omega, by omega, Or.inl hlow⟩, holds_iff_gap.mpr ?_⟩
    have hgap : 0 < gapBelow q * 2 ^ (k : Int) := mul_pos (gapBelow_pos q) hpow
    have hhalf : (2 * r : ℚ) ≤ 2 ^ (k : Int) := by
      rw [zpow_natCast]
      exact_mod_cast (show 2 * r ≤ 2 ^ k by omega)
    have hodd : q % 2 = 1 → (2 * r : ℚ) < 2 ^ (k : Int) := by
      intro hq
      rw [zpow_natCast]
      exact_mod_cast (show 2 * r < 2 ^ k by omega)
    simp only [sub_mul, add_mul, div_mul_eq_mul_div, one_mul]
    refine ⟨⟨by linarith, by linarith⟩, fun hq => ⟨by linarith, by linarith [hodd hq]⟩⟩
  · have hhalf : (2 ^ (k : Int) : ℚ) ≤ 2 * r := by
      rw [zpow_natCast]
      exact_mod_cast (show 2 ^ k ≤ 2 * r by omega)
    rcases (show q + 1 < 2 ^ 53 ∨ q + 1 = 2 ^ 53 by omega) with hroom | hcarry
    · refine ⟨q + 1, k, ⟨by omega, hroom, by omega, by omega, Or.inl (by omega)⟩,
        holds_iff_gap.mpr ?_⟩
      have hgap : gapBelow (q + 1) = 1 := if_neg (by omega)
      have hodd : (q + 1) % 2 = 1 → (2 ^ (k : Int) : ℚ) < 2 * r := by
        intro hq
        rw [zpow_natCast]
        exact_mod_cast (show 2 ^ k < 2 * r by omega)
      rw [hgap]
      push_cast
      simp only [sub_mul, add_mul, div_mul_eq_mul_div, one_mul]
      refine ⟨⟨by linarith, by linarith⟩, fun hq => ⟨by linarith [hodd hq], by linarith⟩⟩
    · -- rounding up takes a further bit, so the last place counts twice
      refine ⟨2 ^ 52, k + 1, ⟨by positivity, by decide, by omega, by omega, Or.inl le_rfl⟩,
        holds_iff_gap.mpr ⟨?_, fun hodd => absurd hodd (by decide)⟩⟩
      have hgap : gapBelow (2 ^ 52) = 1 / 2 := if_pos rfl
      have hq : (q : ℚ) = 2 ^ 53 - 1 := by
        rw [eq_sub_iff_add_eq]
        exact_mod_cast hcarry
      rw [hgap, hq, zpow_add_one₀ two_ne_zero]
      push_cast
      constructor <;> linarith

/-- **CUTTING DOWN.** Every natural number of 64 bits lies in the rounding interval of a double. -/
theorem exists_holds {n : Nat} (hpos : 0 < n) (hn : n < 2 ^ 64) :
    ∃ m e, IsDouble m e ∧ (binary m e).Holds n := by
  rcases Nat.lt_or_ge n (2 ^ 53) with hsmall | hlarge
  · have hlog : n.log2 < 53 := (Nat.log2_lt hpos.ne').mpr hsmall
    have hself := binary_holds_self (n * 2 ^ (52 - n.log2)) (n.log2 - 52)
    rw [ofNat_value (by omega)] at hself
    exact ⟨_, _, isDouble_ofNat hpos hsmall, hself⟩
  · obtain ⟨k, hk⟩ : ∃ k : Nat, n.log2 = 52 + k :=
      ⟨n.log2 - 52, by have := (Nat.le_log2 hpos.ne').mpr hlarge; omega⟩
    have hunit : 0 < 2 ^ k := by positivity
    have hlow : 2 ^ 52 ≤ n / 2 ^ k := by
      rw [Nat.le_div_iff_mul_le hunit, ← pow_add, ← hk]
      exact Nat.log2_self_le hpos.ne'
    have hhigh : n / 2 ^ k < 2 ^ 53 := by
      rw [Nat.div_lt_iff_lt_mul hunit, ← pow_add]
      exact Nat.lt_log2_self.trans_eq (by rw [hk]; congr 1; omega)
    have hbits : k < 12 := by
      have := (Nat.log2_lt hpos.ne').mpr hn
      omega
    have hbetween := exists_holds_between hlow hhigh (Nat.mod_lt n hunit) hbits
    rwa [Nat.div_add_mod' n (2 ^ k)] at hbetween

theorem unpack_ofNat {m n : Nat} {e : Int} (h : IsDouble m e) (hpos : 0 < n)
    (hx : (binary m e).Holds n) :
    (Float.ofNat n).toModel.unpack = .finite .positive m e h.pos := by
  refine unpack_ofScientific (p := 0) h hpos ?_ (by omega) (by omega)
  rwa [zpow_zero, mul_one]

/-- A natural number of 64 bits becomes the nearest double. -/
theorem isNearest_ofNat {n : Nat} (hn : n < 2 ^ 64) : IsNearest (Float.ofNat n) n := by
  refine ⟨isFinite_ofNat hn, ?_⟩
  rcases Nat.eq_zero_or_pos n with rfl | hpos
  · have hzero : rational (Float.ofNat 0) = 0 := rfl
    intro y _
    rw [hzero, Nat.cast_zero, sub_zero, sub_zero, abs_zero]
    exact ⟨abs_nonneg _, fun hne heq => absurd (abs_eq_zero.mp heq) hne⟩
  · obtain ⟨m, e, hdouble, hx⟩ := exists_holds hpos hn
    have hunpack := unpack_ofNat hdouble hpos hx
    have hvalue := rational_of_unpack hunpack
    intro y _
    rw [hvalue]
    by_cases hne : rational y = m * 2 ^ e
    · rw [hne]
      exact ⟨le_rfl, fun h => absurd rfl h⟩
    · obtain ⟨hle, heven⟩ := nearest_of_holds hx (rational_gap hdouble hne)
      refine ⟨hle, fun _ heq => ?_⟩
      rw [Binary.ofBits_eq hunpack, Binary.endsIncluded, beq_iff_eq]
      exact heven heq

theorem unpack_neg_eq (x : Float) : x.neg.toModel.unpack
    = UnpackedFloat.unpack Format.binary64 (pack Format.binary64 x.toModel.unpack.neg) := rfl

/-- The opposite double stands for the opposite number. -/
theorem rational_neg (x : Float) : rational x.neg = -rational x := by
  rw [rational, rational]
  cases hx : x.toModel.unpack with
  | notANumber =>
      rw [unpack_neg_eq, hx]
      exact neg_zero.symm
  | infinity s =>
      rw [unpack_neg_eq, hx]
      cases s <;> exact neg_zero.symm
  | zero s =>
      rw [unpack_neg_eq, hx]
      cases s <;> exact neg_zero.symm
  | finite s m e hm =>
      have hneg : x.neg.toModel.unpack = .finite (-s) m e hm := unpack_neg hx
      rw [hneg, rationalUnpacked, rationalUnpacked, ← neg_mul, ← Int.cast_neg]
      cases s with
      | positive => rfl
      | negative => rw [Sign.apply, neg_neg]; rfl

/-- The opposite double has the same mantissa. -/
theorem endsIncluded_neg {x : Float} (h : x.isFinite = true) :
    (Binary.ofBits x.neg.toBits).endsIncluded = (Binary.ofBits x.toBits).endsIncluded := by
  have hfinite : x.toModel.unpack.isFinite = true := h
  cases hx : x.toModel.unpack with
  | notANumber => rw [hx] at hfinite; exact nomatch hfinite
  | infinity s => rw [hx] at hfinite; exact nomatch hfinite
  | zero s =>
      have hself := ofModel_pack x
      rw [hx] at hself
      rw [← hself]
      cases s <;> rfl
  | finite s m e hm =>
      have hneg : x.neg.toModel.unpack = .finite (-s) m e hm := unpack_neg hx
      rw [Binary.ofBits_eq hneg, Binary.ofBits_eq hx]

theorem abs_rational_neg_sub (x : Float) (q : ℚ) : |rational x.neg - q| = |rational x - -q| := by
  rw [rational_neg, ← abs_neg]
  congr 1
  ring

/-- The double nearest to the opposite number is the opposite double. -/
theorem IsNearest.neg {x : Float} {q : ℚ} (h : IsNearest x q) : IsNearest x.neg (-q) := by
  refine ⟨isFinite_neg h.finite, fun y hy => ?_⟩
  obtain ⟨hle, heven⟩ := h.nearest y.neg (isFinite_neg hy)
  have hdistance : |rational y.neg - q| = |rational y - -q| := abs_rational_neg_sub y q
  have hself : |rational x.neg - -q| = |rational x - q| := by rw [abs_rational_neg_sub, neg_neg]
  rw [hdistance] at hle heven
  rw [hself, endsIncluded_neg h.finite]
  refine ⟨hle, fun hne => heven fun heq => hne ?_⟩
  rw [rational_neg, ← heq, rational_neg, neg_neg]

/-- **INTEGERS** of 64 bits, with or without a sign, become the nearest double. -/
theorem isNearest_ofInt {n : Int} (h : -2 ^ 64 < n ∧ n < 2 ^ 64) : IsNearest (Float.ofInt n) n := by
  cases n with
  | ofNat n => exact isNearest_ofNat (Int.ofNat_lt.mp h.2)
  | negSucc n =>
      have hn : n.succ < 2 ^ 64 := by
        have := h.1
        omega
      rw [Int.cast_negSucc]
      exact (isNearest_ofNat hn).neg

end RiskDecision.Decimal
