import Mathlib
import RiskDecision.Proofs.Decimal.Packing

/-!
# Rounding to the nearest double

An operation on doubles computes its exact result, cuts it down to the bits that a mantissa has room
for while keeping two bits about the rest, and rounds by these two bits. What is kept is a quotient
of natural numbers with the position of its remainder (`extended`), and giving up a bit only doubles
the divisor. So the whole pipeline computes one thing: a number in the rounding interval of a double
is rounded to this double (`roundWithAccuracy_of_holds`), also where the rounding carries into a
further bit. Products and quotients are special cases.
-/

namespace RiskDecision.Decimal

open Float.Model
open Float.Model.UnpackedFloat

/-! ## Cutting off bits -/

/-- The quotient `a / b` cut down to a natural number, with the two bits about its remainder: whether
it is at least a half, and whether it is neither nothing nor a half. -/
def extended (a b : Nat) : ExtendedMantissa :=
  ⟨a / b, decide (b ≤ 2 * (a % b)), decide (2 * (a % b) ≠ 0 ∧ 2 * (a % b) ≠ b)⟩

theorem ofMantissaAndAccuracy_eq_extended {b : Nat} (a : Nat) (hb : 0 < b) :
    ExtendedMantissa.ofMantissaAndAccuracy (a / b) (accuracyOfFraction (a % b) b)
      = extended a b := by
  rw [accuracyOfFraction, extended]
  split
  · next hzero =>
      rw [hzero]
      simp [ExtendedMantissa.ofMantissaAndAccuracy, hb.ne']
  · next hzero =>
      rcases Nat.lt_trichotomy (2 * (a % b)) b with h | h | h
      · rw [Nat.compare_eq_lt.mpr h]
        simp [ExtendedMantissa.ofMantissaAndAccuracy, h, hzero, h.ne]
      · rw [Nat.compare_eq_eq.mpr h]
        simp [ExtendedMantissa.ofMantissaAndAccuracy, h]
      · rw [Nat.compare_eq_gt.mpr h]
        simp [ExtendedMantissa.ofMantissaAndAccuracy, h.le, hzero, h.ne']

/-- To give up a bit is to divide by twice as much. -/
theorem shiftRightOne_extended {b : Nat} (a : Nat) (hb : 0 < b) :
    (extended a b).shiftRightOne = extended a (b * 2) := by
  have hrest : a % (b * 2) = a % b + b * (a / b % 2) := Nat.mod_mul
  have hlt : a % b < b := Nat.mod_lt a hb
  have hbit := Nat.mod_two_eq_zero_or_one (a / b)
  rw [ExtendedMantissa.shiftRightOne, extended, extended, hrest, Nat.div_div_eq_div_mul]
  congr 1
  · refine Bool.eq_iff_iff.mpr ?_
    rw [bne_iff_ne, decide_eq_true_iff]
    rcases hbit with hbit | hbit <;> rw [hbit] <;> omega
  · refine Bool.eq_iff_iff.mpr ?_
    rw [Bool.or_eq_true, decide_eq_true_iff, decide_eq_true_iff, decide_eq_true_iff]
    rcases hbit with hbit | hbit <;> rw [hbit] <;> omega

theorem shiftRight_extended {b : Nat} (a : Nat) (hb : 0 < b) (k : Nat) :
    extended a b >>> k = extended a (b * 2 ^ k) := by
  show k.repeat ExtendedMantissa.shiftRightOne (extended a b) = _
  induction k with
  | zero => rw [pow_zero, mul_one]; rfl
  | succ k ih =>
      show (k.repeat ExtendedMantissa.shiftRightOne (extended a b)).shiftRightOne = _
      rw [ih, shiftRightOne_extended a (by positivity), pow_succ, mul_assoc]

theorem roundedMantissa_mk (m : Nat) (half rest : Bool) :
    ExtendedMantissa.roundedMantissa ⟨m, half, rest⟩
      = if half then if rest then m + 1 else m + m % 2 else m := by
  cases half <;> cases rest <;> rfl

/-- The two bits suffice to round to the nearest natural number, and to the even one of two. -/
theorem roundedMantissa_extended {a b n : Nat} (hb : 0 < b) (hlow : 2 * n * b ≤ 2 * a + b)
    (hhigh : 2 * a ≤ 2 * n * b + b)
    (hodd : n % 2 = 1 → 2 * n * b < 2 * a + b ∧ 2 * a < 2 * n * b + b) :
    (extended a b).roundedMantissa = n := by
  have ha := Nat.div_add_mod a b
  have hlt : a % b < b := Nat.mod_lt a hb
  have hn : n = a / b ∧ 2 * (a % b) ≤ b ∧ (n % 2 = 1 → 2 * (a % b) < b)
      ∨ n = a / b + 1 ∧ b ≤ 2 * (a % b) ∧ (n % 2 = 1 → b < 2 * (a % b)) := by
    generalize a / b = q at *
    generalize a % b = r at *
    have hle : q ≤ n := by
      by_contra h
      have : (n + 1) * b ≤ q * b := Nat.mul_le_mul_right b (by omega)
      nlinarith
    have hge : n ≤ q + 1 := by
      by_contra h
      have : (q + 2) * b ≤ n * b := Nat.mul_le_mul_right b (by omega)
      nlinarith
    obtain rfl | rfl : n = q ∨ n = q + 1 := by omega
    · refine Or.inl ⟨rfl, by nlinarith, fun h => ?_⟩
      have := (hodd h).2
      nlinarith
    · refine Or.inr ⟨rfl, by nlinarith, fun h => ?_⟩
      have := (hodd h).1
      nlinarith
  rw [extended, roundedMantissa_mk]
  simp only [decide_eq_true_eq]
  split_ifs <;> omega

/-! ## The rounding interval -/

/-- The lower end of the interval. -/
def Binary.low (b : Binary) : ℚ := (4 * b.significand - b.below) * 2 ^ (b.exponent - 2)

/-- The upper end of the interval. -/
def Binary.high (b : Binary) : ℚ := (4 * b.significand + 2) * 2 ^ (b.exponent - 2)

/-- The number lies in the interval, whose ends belong to it or not. -/
def Binary.Holds (b : Binary) (x : ℚ) : Prop :=
  if b.endsIncluded then b.low ≤ x ∧ x ≤ b.high else b.low < x ∧ x < b.high

/-- The double `m * 2 ^ e` with its rounding interval. -/
def binary (m : Nat) (e : Int) : Binary := ⟨m, e, if m = 2 ^ 52 then 1 else 2⟩

/-- An odd mantissa excludes the ends of its interval. -/
theorem binary_holds_iff {m : Nat} {e : Int} {x : ℚ} :
    (binary m e).Holds x ↔ ((binary m e).low ≤ x ∧ x ≤ (binary m e).high) ∧
      (m % 2 = 1 → (binary m e).low < x ∧ x < (binary m e).high) := by
  rw [Binary.Holds, Binary.endsIncluded]
  show (if (m % 2 == 0) = true then _ else _) ↔ _
  rcases Nat.mod_two_eq_zero_or_one m with h | h <;> rw [h]
  · simp
  · simp only [Nat.one_ne_zero, beq_iff_eq, if_false, forall_const]
    exact ⟨fun hx => ⟨⟨hx.1.le, hx.2.le⟩, hx⟩, fun hx => hx.2⟩

/-! ## Which exponent a number is brought to -/

theorem targetExponent_binary64 (t : Int) :
    Format.binary64.targetExponent t = max (t - 53) (-1074) := rfl

/-- A number below `2 ^ (53 + e)` is brought to an exponent of at most `e`. -/
theorem targetExponent_le_of_lt {a b : Nat} {E e : Int}
    (hx : (a / b : ℚ) * 2 ^ E < 2 ^ (53 + e)) (he : -1074 ≤ e)
    (hE : E ≤ Format.binary64.targetExponent (totalExponent (a / b) E)) :
    Format.binary64.targetExponent (totalExponent (a / b) E) ≤ e := by
  rw [targetExponent_binary64, totalExponent] at hE ⊢
  by_cases hzero : a / b = 0
  · rw [hzero, Nat.log2_zero] at hE ⊢
    omega
  · have hlog : (2 : ℚ) ^ (a / b).log2 ≤ a / b := by
      calc (2 : ℚ) ^ (a / b).log2 ≤ (a / b : Nat) := by exact_mod_cast Nat.log2_self_le hzero
        _ ≤ a / b := Nat.cast_div_le
    have hlt : (2 : ℚ) ^ ((a / b).log2 + E) < 2 ^ (53 + e) := by
      refine lt_of_le_of_lt ?_ hx
      rw [zpow_add₀ two_ne_zero, zpow_natCast]
      exact mul_le_mul_of_nonneg_right hlog (by positivity)
    have := (zpow_lt_zpow_iff_right₀ one_lt_two).mp hlt
    omega

/-- A number of at least `2 ^ (52 + e)` is brought to an exponent of at least `e`. -/
theorem le_targetExponent_of_le {a b : Nat} {E e : Int} (hb : 0 < b)
    (hx : 2 ^ (52 + e) ≤ (a / b : ℚ) * 2 ^ E)
    (hE : E ≤ Format.binary64.targetExponent (totalExponent (a / b) E)) :
    e ≤ Format.binary64.targetExponent (totalExponent (a / b) E) := by
  rw [targetExponent_binary64, totalExponent] at hE ⊢
  by_contra hlt
  -- the quotient is a natural number of fewer than `52 + e - E` bits
  obtain ⟨k, hk⟩ : ∃ k : Nat, 52 + e - E = k := ⟨(52 + e - E).toNat, by omega⟩
  have hlog : a / b < 2 ^ k := by
    refine lt_of_lt_of_le Nat.lt_log2_self (Nat.pow_le_pow_right two_pos ?_)
    omega
  have hfraction : (a / b : ℚ) < 2 ^ k := by
    rw [div_lt_iff₀ (by exact_mod_cast hb)]
    exact_mod_cast (Nat.div_lt_iff_lt_mul hb).mp hlog
  have hx' : (2 : ℚ) ^ (52 + e) < 2 ^ (52 + e) := by
    calc (2 : ℚ) ^ (52 + e) ≤ (a / b : ℚ) * 2 ^ E := hx
      _ < 2 ^ k * 2 ^ E := mul_lt_mul_of_pos_right hfraction (by positivity)
      _ = 2 ^ (52 + e) := by rw [← zpow_natCast, ← zpow_add₀ two_ne_zero]; congr 1; omega
  exact lt_irrefl _ hx'

/-! ## Rounding a number of the interval -/

/-- A last place has four quarters. -/
theorem two_zpow_eq_quarters (e : Int) : (2 : ℚ) ^ e = 4 * 2 ^ (e - 2) := by
  rw [zpow_sub₀ two_ne_zero]
  norm_num
  ring

/-- The interval of a double, in last places of it: from half a step below, or a quarter step where
the smaller doubles lie closer, to half a step above. -/
theorem binary_low {m : Nat} {e : Int} :
    (binary m e).low = (m - (if m = 2 ^ 52 then 1 / 4 else 1 / 2)) * 2 ^ e := by
  rw [Binary.low, two_zpow_eq_quarters e, binary]
  dsimp only
  split_ifs <;> push_cast <;> ring

theorem binary_high {m : Nat} {e : Int} : (binary m e).high = (m + 1 / 2) * 2 ^ e := by
  rw [Binary.high, two_zpow_eq_quarters e, binary]
  ring

/-- The first shift, of a quotient. -/
theorem shiftToTargetExponent_fraction {a b : Nat} {E : Int} {k : Nat} (hb : 0 < b)
    (hk : Format.binary64.targetExponent (totalExponent (a / b) E) = E + k) :
    shiftToTargetExponent Format.binary64 (a / b) E (accuracyOfFraction (a % b) b)
      = (extended a (b * 2 ^ k), E + k) := by
  have hshift : (E + k - E).toNat = k := by omega
  rw [shiftToTargetExponent, hk, shiftToExponent, hshift, ofMantissaAndAccuracy_eq_extended a hb,
    shiftRight_extended a hb]

theorem shiftToTargetExponent_exact {m : Nat} {E : Int} {k : Nat}
    (hk : Format.binary64.targetExponent (totalExponent m E) = E + k) :
    shiftToTargetExponent Format.binary64 m E .exact = (extended m (2 ^ k), E + k) := by
  have h := shiftToTargetExponent_fraction (a := m) (k := k) one_pos (by rwa [Nat.div_one])
  rwa [Nat.div_one, Nat.mod_one, one_mul] at h

/-- A mantissa that has the exponent for its size is left alone. -/
theorem shiftToTargetExponent_of_target {m : Nat} {e : Int}
    (h : Format.binary64.targetExponent (totalExponent m e) = e) :
    shiftToTargetExponent Format.binary64 m e .exact = (extended m 1, e) := by
  have hshift := shiftToTargetExponent_exact (k := 0) (h.trans (add_zero e).symm)
  rwa [pow_zero, Nat.cast_zero, add_zero] at hshift

/-- The second shift leaves a double as it is. -/
theorem shiftToTargetExponent_isDouble {m : Nat} {e : Int} (h : IsDouble m e) :
    shiftToTargetExponent Format.binary64 m e .exact = (extended m 1, e) := by
  have hlog : m.log2 < 53 := (Nat.log2_lt h.pos.ne').mpr h.lt
  have hfull : 52 ≤ m.log2 ∨ e = -1074 := h.full.imp_left (Nat.le_log2 h.pos.ne').mpr
  have hlow := h.low
  refine shiftToTargetExponent_of_target ?_
  rw [targetExponent_binary64, totalExponent]
  omega

/-- Where the rounding has carried into a further bit, the second shift gives this bit up. -/
theorem shiftToTargetExponent_carry {e : Int} (h : -1074 ≤ e) :
    shiftToTargetExponent Format.binary64 (2 ^ 53) e .exact = (extended (2 ^ 53) 2, e + 1) := by
  have htarget : Format.binary64.targetExponent (totalExponent (2 ^ 53) e) = e + (1 : Nat) := by
    rw [targetExponent_binary64, totalExponent, Nat.log2_two_pow]
    omega
  exact shiftToTargetExponent_exact htarget

/-- The rounding in its steps: a shift, the rounding proper, and a second shift. -/
theorem roundWithAccuracy_eq {s : Sign} {m₀ n m : Nat} {E T e : Int} {a : Accuracy}
    {cut kept : ExtendedMantissa} (hm : 0 < m)
    (hfirst : shiftToTargetExponent Format.binary64 m₀ E a = (cut, T))
    (hround : cut.roundedMantissa = n)
    (hsecond : shiftToTargetExponent Format.binary64 n T .exact = (kept, e))
    (hkept : kept.mantissa = m) :
    roundWithAccuracy Format.binary64 s m₀ E a = .finite s m e hm := by
  subst hround hkept
  rw [roundWithAccuracy, hfirst]
  dsimp only
  rw [hsecond]
  dsimp only
  rw [dif_neg hm.ne']

/-- A fraction next to a natural number is rounded to it. -/
theorem roundedMantissa_of_near {a b n : Nat} (hb : 0 < b) (hlow : (n - 1 / 2 : ℚ) ≤ a / b)
    (hhigh : (a / b : ℚ) ≤ n + 1 / 2)
    (hodd : n % 2 = 1 → (n - 1 / 2 : ℚ) < a / b ∧ (a / b : ℚ) < n + 1 / 2) :
    (extended a b).roundedMantissa = n := by
  have hb' : (0 : ℚ) < b := by exact_mod_cast hb
  rw [le_div_iff₀ hb'] at hlow
  rw [div_le_iff₀ hb'] at hhigh
  rw [lt_div_iff₀ hb', div_lt_iff₀ hb'] at hodd
  refine roundedMantissa_extended hb ?_ ?_ fun h => ⟨?_, ?_⟩
  · have : (2 * n * b : ℚ) ≤ 2 * a + b := by linarith
    exact_mod_cast this
  · have : (2 * a : ℚ) ≤ 2 * n * b + b := by linarith
    exact_mod_cast this
  · have : (2 * n * b : ℚ) < 2 * a + b := by linarith [(hodd h).1]
    exact_mod_cast this
  · have : (2 * a : ℚ) < 2 * n * b + b := by linarith [(hodd h).2]
    exact_mod_cast this

theorem fraction_shift {a b : Nat} (E : Int) (k : Nat) :
    (a / b : ℚ) * 2 ^ E = a / (b * 2 ^ k : Nat) * 2 ^ (E + k) := by
  have hpow : (2 : ℚ) ^ k ≠ 0 := by positivity
  rw [zpow_add₀ two_ne_zero, zpow_natCast, Nat.cast_mul, Nat.cast_pow, Nat.cast_ofNat]
  field_simp

section Holds

variable {m : Nat} {e : Int} {a b : Nat} {E : Int}

/-- The exponent of the double itself: the quotient that is left lies next to the mantissa. -/
theorem roundWithAccuracy_of_target_eq (h : IsDouble m e) (hb : 0 < b)
    (hx : (binary m e).Holds (a / b * 2 ^ E))
    (hE : E ≤ Format.binary64.targetExponent (totalExponent (a / b) E)) (s : Sign)
    (hT : Format.binary64.targetExponent (totalExponent (a / b) E) = e) :
    roundWithAccuracy Format.binary64 s (a / b) E (accuracyOfFraction (a % b) b)
      = .finite s m e h.pos := by
  obtain ⟨k, rfl⟩ : ∃ k : Nat, e = E + k := ⟨(e - E).toNat, by omega⟩
  obtain ⟨⟨hlow, hhigh⟩, hodd⟩ := binary_holds_iff.mp hx
  rw [binary_low, fraction_shift E k] at hlow
  rw [binary_high, fraction_shift E k] at hhigh
  rw [binary_low, binary_high, fraction_shift E k] at hodd
  have hpow : (0 : ℚ) < 2 ^ (E + k) := by positivity
  simp only [mul_le_mul_iff_left₀ hpow, mul_lt_mul_iff_left₀ hpow] at hlow hhigh hodd
  have hquarter : (if m = 2 ^ 52 then (1 / 4 : ℚ) else 1 / 2) ≤ 1 / 2 := by
    split_ifs <;> norm_num
  have hround : (extended a (b * 2 ^ k)).roundedMantissa = m := by
    refine roundedMantissa_of_near (by positivity) (by linarith) hhigh fun hm => ⟨?_, (hodd hm).2⟩
    linarith [(hodd hm).1]
  exact roundWithAccuracy_eq h.pos (shiftToTargetExponent_fraction hb hT) hround
    (shiftToTargetExponent_isDouble h) (Nat.div_one m)

/-- A number of the interval that lies below all mantissas of 53 bits belongs to the least of
them. -/
theorem eq_of_holds_of_lt {x : ℚ} (hfull : 2 ^ 52 ≤ m) (hx : (binary m e).Holds x)
    (hlt : x < 2 ^ 52 * 2 ^ e) : m = 2 ^ 52 := by
  have hlow := (binary_holds_iff.mp hx).1.1
  rw [binary_low] at hlow
  by_contra hne
  have hge : (2 ^ 52 + 1 : ℚ) ≤ m := by
    exact_mod_cast Nat.lt_of_le_of_ne hfull (Ne.symm hne)
  rw [if_neg hne] at hlow
  have hpow : (0 : ℚ) < 2 ^ e := by positivity
  have := (mul_lt_mul_iff_left₀ hpow).mp (hlow.trans_lt hlt)
  linarith

/-- The exponent below: the number lies right below the least mantissa of 53 bits, is rounded up to
it, and takes a bit more than there is room for. -/
theorem roundWithAccuracy_of_target_lt (h : IsDouble m e) (hb : 0 < b)
    (hx : (binary m e).Holds (a / b * 2 ^ E))
    (hE : E ≤ Format.binary64.targetExponent (totalExponent (a / b) E)) (s : Sign)
    (hT : Format.binary64.targetExponent (totalExponent (a / b) E) < e) :
    roundWithAccuracy Format.binary64 s (a / b) E (accuracyOfFraction (a % b) b)
      = .finite s m e h.pos := by
  have hmin : -1074 ≤ Format.binary64.targetExponent (totalExponent (a / b) E) := by
    rw [targetExponent_binary64]
    exact le_max_right _ _
  have hlt : (a / b : ℚ) * 2 ^ E < 2 ^ 52 * 2 ^ e := by
    rw [← zpow_natCast, ← zpow_add₀ two_ne_zero]
    exact lt_of_not_ge fun hge => absurd (le_targetExponent_of_le hb hge hE) (by omega)
  obtain rfl := eq_of_holds_of_lt (h.full.resolve_right (by omega)) hx hlt
  have hlow : (2 ^ 52 - 1 / 4 : ℚ) * 2 ^ e ≤ a / b * 2 ^ E := by
    have hlow := (binary_holds_iff.mp hx).1.1
    rwa [binary_low, if_pos rfl, Nat.cast_pow, Nat.cast_ofNat] at hlow
  obtain ⟨k, hk⟩ : ∃ k : Nat, e - 1 = E + k := by
    refine ⟨(e - 1 - E).toNat, ?_⟩
    omega
  have hstep : (2 : ℚ) ^ e = 2 * 2 ^ (E + k) := by
    rw [← hk, ← zpow_one_add₀ two_ne_zero]
    congr 1
    ring
  have hpow : (0 : ℚ) < 2 ^ (E + k) := by positivity
  have htarget : Format.binary64.targetExponent (totalExponent (a / b) E) = E + k := by
    have hge : (2 : ℚ) ^ (52 + (e - 1)) ≤ a / b * 2 ^ E := by
      refine le_trans ?_ hlow
      rw [hk, hstep, zpow_add₀ two_ne_zero, ← mul_assoc]
      exact mul_le_mul_of_nonneg_right (by norm_num) hpow.le
    have := le_targetExponent_of_le hb hge hE
    omega
  rw [hstep, ← mul_assoc, fraction_shift E k] at hlow hlt
  rw [mul_le_mul_iff_left₀ hpow] at hlow
  rw [mul_lt_mul_iff_left₀ hpow] at hlt
  have hround : (extended a (b * 2 ^ k)).roundedMantissa = 2 ^ 53 := by
    refine roundedMantissa_of_near (by positivity) ?_ ?_ fun hodd => absurd hodd (by decide)
    · rw [Nat.cast_pow, Nat.cast_ofNat]
      linarith
    · rw [Nat.cast_pow, Nat.cast_ofNat]
      linarith
  have hsecond := shiftToTargetExponent_carry (show -1074 ≤ e - 1 by omega)
  rw [sub_add_cancel, hk] at hsecond
  exact roundWithAccuracy_eq h.pos (shiftToTargetExponent_fraction hb htarget) hround hsecond rfl

/-- **ROUNDING.** A number in the rounding interval of a double is rounded to it. -/
theorem roundWithAccuracy_of_holds (h : IsDouble m e) (hb : 0 < b)
    (hx : (binary m e).Holds (a / b * 2 ^ E))
    (hE : E ≤ Format.binary64.targetExponent (totalExponent (a / b) E)) (s : Sign) :
    roundWithAccuracy Format.binary64 s (a / b) E (accuracyOfFraction (a % b) b)
      = .finite s m e h.pos := by
  have hbelow : (a / b : ℚ) * 2 ^ E < 2 ^ (53 + e) := by
    have hhigh := (binary_holds_iff.mp hx).1.2
    rw [binary_high] at hhigh
    have hm : (m + 1 / 2 : ℚ) < 2 ^ 53 := by
      have : (m + 1 : ℚ) ≤ 2 ^ 53 := by exact_mod_cast h.lt
      linarith
    calc (a / b : ℚ) * 2 ^ E ≤ (m + 1 / 2) * 2 ^ e := hhigh
      _ < 2 ^ 53 * 2 ^ e := mul_lt_mul_of_pos_right hm (by positivity)
      _ = 2 ^ (53 + e) := (zpow_add₀ two_ne_zero 53 e).symm
  rcases (targetExponent_le_of_lt hbelow h.low hE).eq_or_lt with hT | hT
  · exact roundWithAccuracy_of_target_eq h hb hx hE s hT
  · exact roundWithAccuracy_of_target_lt h hb hx hE s hT

/-! ## Products and quotients -/

/-- **PRODUCTS.** Two numbers whose product rounds to a double are multiplied to it. -/
theorem mul_of_holds {m₁ m₂ : Nat} {e₁ e₂ : Int} {h₁ : 0 < m₁} {h₂ : 0 < m₂} (h : IsDouble m e)
    (hbits : 2 ^ 52 ≤ m₁ * m₂) (hx : (binary m e).Holds (m₁ * m₂ * 2 ^ (e₁ + e₂)))
    (s₁ s₂ : Sign) :
    UnpackedFloat.mul Format.binary64 (.finite s₁ m₁ e₁ h₁) (.finite s₂ m₂ e₂ h₂)
      = .finite (s₁ * s₂) m e h.pos := by
  have hlog : 52 ≤ (m₁ * m₂).log2 := (Nat.le_log2 (by positivity)).mpr hbits
  have hround := roundWithAccuracy_of_holds (a := m₁ * m₂) (b := 1) (E := e₁ + e₂) h one_pos
    (by rwa [Nat.cast_mul, Nat.cast_one, div_one])
    (by rw [targetExponent_binary64, totalExponent, Nat.div_one]; omega) (s₁ * s₂)
  rwa [Nat.div_one, Nat.mod_one] at hround

/-- A quotient is computed to more bits than a mantissa has room for. -/
theorem divCore_bits {m₁ m₂ : Nat} {e₁ e₂ T : Int} {shift : Nat} (h₁ : 0 < m₁) (h₂ : 0 < m₂)
    (hT : T = min (e₁ - e₂)
      (Format.binary64.targetExponent (totalExponent m₁ e₁ - totalExponent m₂ e₂)))
    (hshift : e₁ - e₂ = T + shift) :
    T ≤ Format.binary64.targetExponent (totalExponent (m₁ * 2 ^ shift / m₂) T) := by
  rw [targetExponent_binary64, totalExponent, totalExponent] at hT
  rw [targetExponent_binary64, totalExponent]
  by_cases hlog : m₂.log2 + 1 ≤ m₁.log2 + shift
  · -- the quotient has about as many bits as the shifted dividend has more than the divisor
    have hquotient : 2 ^ (m₁.log2 + shift - (m₂.log2 + 1)) ≤ m₁ * 2 ^ shift / m₂ := by
      rw [Nat.le_div_iff_mul_le h₂]
      calc 2 ^ (m₁.log2 + shift - (m₂.log2 + 1)) * m₂
          ≤ 2 ^ (m₁.log2 + shift - (m₂.log2 + 1)) * 2 ^ (m₂.log2 + 1) :=
            Nat.mul_le_mul_left _ Nat.lt_log2_self.le
        _ = 2 ^ m₁.log2 * 2 ^ shift := by rw [← pow_add, ← pow_add, Nat.sub_add_cancel hlog]
        _ ≤ m₁ * 2 ^ shift := Nat.mul_le_mul_right _ (Nat.log2_self_le h₁.ne')
    have hbits := (Nat.le_log2 (lt_of_lt_of_le (by positivity) hquotient).ne').mpr hquotient
    omega
  · omega

/-- **QUOTIENTS.** Two numbers whose quotient rounds to a double are divided to it. -/
theorem div_of_holds {m₁ m₂ : Nat} {e₁ e₂ : Int} {h₁ : 0 < m₁} {h₂ : 0 < m₂} (h : IsDouble m e)
    (hx : (binary m e).Holds (m₁ / m₂ * 2 ^ (e₁ - e₂))) (s₁ s₂ : Sign) :
    UnpackedFloat.div Format.binary64 (.finite s₁ m₁ e₁ h₁) (.finite s₂ m₂ e₂ h₂)
      = .finite (s₁ / s₂) m e h.pos := by
  rw [UnpackedFloat.div, divCore]
  dsimp only
  generalize hT : min (e₁ - e₂)
    (Format.binary64.targetExponent (totalExponent m₁ e₁ - totalExponent m₂ e₂)) = T
  obtain ⟨shift, hshift⟩ : ∃ shift : Nat, e₁ - e₂ = T + shift := by
    refine ⟨(e₁ - e₂ - T).toNat, ?_⟩
    have := hT ▸ min_le_left (e₁ - e₂) _
    omega
  rw [show (e₁ - e₂ - T).toNat = shift by omega, Nat.shiftLeft_eq]
  refine roundWithAccuracy_of_holds h h₂ ?_ (divCore_bits h₁ h₂ hT.symm hshift) _
  have hvalue : ((m₁ * 2 ^ shift : Nat) / m₂ : ℚ) * 2 ^ T = m₁ / m₂ * 2 ^ (e₁ - e₂) := by
    rw [hshift, zpow_add₀ two_ne_zero, zpow_natCast, Nat.cast_mul, Nat.cast_pow, Nat.cast_ofNat]
    ring
  rwa [hvalue]

end Holds

end RiskDecision.Decimal
