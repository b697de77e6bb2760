import Mathlib
import RiskDecision.Decimal.Width

/-!
# Integers within 64 bits are finite doubles

The double nearest to an integer of 64 bits is neither an infinity nor NaN. Nothing is said about
which double it is: all that matters is how large the exponent can get on the way. Rounding shifts
the mantissa to the right, which makes it no larger and raises the exponent by the bits that are
given up, and this happens twice, since the first rounding may carry into a further bit. So a bound
on the bits of the mantissa and on the exponent carries through every step, and a datum whose
exponent is at most 971 packs into a finite double.
-/

namespace RiskDecision.Decimal

open Float.Model
open Float.Model.UnpackedFloat

/-- The datum is a zero or a finite number whose exponent is at most the given one. -/
def ExponentAtMost (top : Int) : UnpackedFloat → Prop
  | .zero _ => True
  | .finite _ _ e _ => e ≤ top
  | .infinity _ => False
  | .notANumber => False

/-! ## Rounding -/

theorem mantissa_shiftRight_le (em : ExtendedMantissa) (k : Nat) :
    (em >>> k).mantissa ≤ em.mantissa := by
  show (k.repeat ExtendedMantissa.shiftRightOne em).mantissa ≤ em.mantissa
  induction k with
  | zero => exact Nat.le_refl _
  | succ k ih => exact Nat.le_trans (Nat.div_le_self _ 2) ih

theorem roundedMantissa_le (em : ExtendedMantissa) : em.roundedMantissa ≤ em.mantissa + 1 := by
  obtain ⟨m, r, s⟩ := em
  show (ExtendedMantissa.accuracy ⟨m, r, s⟩).roundToNearestEven m ≤ m + 1
  cases r <;> cases s <;>
    simp only [ExtendedMantissa.accuracy, Accuracy.roundToNearestEven] <;> omega

theorem mantissa_ofMantissaAndAccuracy (m : Nat) (a : Accuracy) :
    (ExtendedMantissa.ofMantissaAndAccuracy m a).mantissa = m := by
  cases a with
  | exact => rfl
  | inexact o => cases o <;> rfl

/-- The exponent that a mantissa of at most `k` bits is shifted to. -/
theorem targetExponent_le {m k : Nat} (hm : m < 2 ^ k) (hk : 53 ≤ k) {e top : Int} (he : e ≤ top)
    (htop : -1074 ≤ top) :
    Format.binary64.targetExponent (totalExponent m e) ≤ top + k - 53 := by
  have hlog : m.log2 + 1 ≤ k := by
    by_cases h0 : m = 0
    · rw [h0, Nat.log2_zero]
      omega
    · exact (Nat.log2_lt h0).mpr hm
  simp only [Format.targetExponent, totalExponent, Format.mantissaBits, Format.minExponent]
  omega

/-- A shift to the target exponent gives up bits and raises the exponent by at most as many. -/
theorem shiftToTargetExponent_bounds {m k : Nat} (hm : m < 2 ^ k) (hk : 53 ≤ k) {e top : Int}
    (he : e ≤ top) (htop : -1074 ≤ top) (a : Accuracy) :
    (shiftToTargetExponent Format.binary64 m e a).1.mantissa ≤ m ∧
      (shiftToTargetExponent Format.binary64 m e a).2 ≤ top + k - 53 := by
  have htarget := targetExponent_le hm hk he htop
  rw [shiftToTargetExponent, shiftToExponent]
  constructor
  · have hle := mantissa_shiftRight_le (ExtendedMantissa.ofMantissaAndAccuracy m a)
      (Format.binary64.targetExponent (totalExponent m e) - e).toNat
    rw [mantissa_ofMantissaAndAccuracy] at hle
    exact hle
  · show e + ((Format.binary64.targetExponent (totalExponent m e) - e).toNat : Int) ≤ _
    omega

/-- Rounding a mantissa of at most `k` bits shifts twice. -/
theorem exponentAtMost_roundWithAccuracy (s : Sign) (k : Nat) (top : Int) {bound : Int} {m : Nat}
    {e : Int} (hm : m < 2 ^ k) (hk : 53 ≤ k) (he : e ≤ top) (htop : -1074 ≤ top)
    (hbound : top + 2 * k - 105 ≤ bound) (a : Accuracy) :
    ExponentAtMost bound (roundWithAccuracy Format.binary64 s m e a) := by
  obtain ⟨hm₁, he₁⟩ := shiftToTargetExponent_bounds hm hk he htop a
  -- rounding up may carry into one more bit, so the second shift is made for k + 1 bits
  have hround := roundedMantissa_le (shiftToTargetExponent Format.binary64 m e a).1
  have hm₂ : (shiftToTargetExponent Format.binary64 m e a).1.roundedMantissa < 2 ^ (k + 1) := by
    rw [Nat.pow_succ]
    omega
  obtain ⟨-, he₂⟩ := shiftToTargetExponent_bounds hm₂ (Nat.le_succ_of_le hk) he₁ (by omega) .exact
  rw [roundWithAccuracy]
  dsimp only
  split
  · exact True.intro
  · show _ ≤ _
    push_cast at he₂
    omega

/-- A natural number of at most 53 bits, read as a datum. -/
theorem exponentAtMost_ofNat {n : Nat} (hn : n < 2 ^ 53) :
    ExponentAtMost 107 (UnpackedFloat.ofNat Format.binary64 n) := by
  rw [UnpackedFloat.ofNat, UnpackedFloat.ofInt, UnpackedFloat.normalize]
  cases n with
  | zero => exact True.intro
  | succ n =>
      show ExponentAtMost 107 (UnpackedFloat.round Format.binary64 .positive (n + 1) 0)
      rw [UnpackedFloat.round, decreaseExponent]
      dsimp only
      -- a mantissa of fewer than 53 bits is first shifted to the left to have exactly so many
      generalize hshift :
        (0 - Format.binary64.targetExponent (totalExponent (n + 1) 0)).toNat = shift
      have hle : shift ≤ 53 := by
        simp only [Format.targetExponent, totalExponent, Format.mantissaBits,
          Format.minExponent] at hshift
        omega
      have hm : (n + 1) <<< shift < 2 ^ 106 := by
        rw [Nat.shiftLeft_eq]
        calc (n + 1) * 2 ^ shift
            ≤ (n + 1) * 2 ^ 53 := Nat.mul_le_mul_left _ (Nat.pow_le_pow_right (by decide) hle)
          _ < 2 ^ 53 * 2 ^ 53 := Nat.mul_lt_mul_of_pos_right hn (by decide)
      exact exponentAtMost_roundWithAccuracy .positive 106 0 hm (by decide) (by omega) (by decide)
        (by decide) .exact

/-- A product of two finite numbers is rounded once. -/
theorem exponentAtMost_mul (k : Nat) (top : Int) {bound : Int} {s₁ s₂ : Sign} {m₁ m₂ : Nat}
    {e₁ e₂ : Int} {h₁ : 0 < m₁} {h₂ : 0 < m₂} (hm : m₁ * m₂ < 2 ^ k) (hk : 53 ≤ k)
    (he : e₁ + e₂ ≤ top) (htop : -1074 ≤ top) (hbound : top + 2 * k - 105 ≤ bound) :
    ExponentAtMost bound
      (UnpackedFloat.mul Format.binary64 (.finite s₁ m₁ e₁ h₁) (.finite s₂ m₂ e₂ h₂)) :=
  exponentAtMost_roundWithAccuracy (s₁ * s₂) k top hm hk he htop hbound .exact

/-! ## Packing -/

/-- The mantissa of an unpacked double has at most 53 bits. -/
theorem mantissa_unpack_lt {b : BitVec Format.binary64.numBits} {s : Sign} {m : Nat} {e : Int}
    {hm : 0 < m} (h : UnpackedFloat.unpack Format.binary64 b = .finite s m e hm) : m < 2 ^ 53 := by
  rw [UnpackedFloat.unpack] at h
  dsimp only at h
  split at h
  · split at h <;> exact nomatch h
  · split at h
    · split at h
      · exact nomatch h
      · cases h
        exact Nat.lt_trans (BitVec.isLt _) (by decide)
    · cases h
      exact BitVec.isLt _

/-- A double whose exponent bits are not all set is a zero or a finite number. -/
theorem exponentAtMost_unpack {b : BitVec Format.binary64.numBits} {top : Int}
    (hbits : (unpackExponent b).toNat < 2047) (hlow : -1074 ≤ top)
    (hle : ((unpackExponent b).toNat : Int) - 1075 ≤ top) :
    ExponentAtMost top (UnpackedFloat.unpack Format.binary64 b) := by
  rw [UnpackedFloat.unpack]
  dsimp only
  split
  · -- all bits of the exponent are set: an infinity or NaN
    next hones =>
      rw [hones] at hbits
      exact absurd hbits (by decide)
  · split
    · next hzero =>
        split
        · exact True.intro
        · show ((unpackExponent b).toNat : Int) - 1075 + 1 ≤ top
          rw [hzero]
          exact hlow
    · exact hle

/-- Packing keeps a number whose exponent is at most 971 finite. -/
theorem exponentAtMost_unpack_pack {u : UnpackedFloat} {top : Int} (hu : ExponentAtMost top u)
    (hlow : -1074 ≤ top) (htop : top ≤ 971) :
    ExponentAtMost top (UnpackedFloat.unpack Format.binary64 (pack Format.binary64 u)) := by
  cases u with
  | infinity s => exact hu.elim
  | notANumber => exact hu.elim
  | zero s =>
      rw [UnpackedFloat.pack, packedZero]
      refine exponentAtMost_unpack ?_ hlow ?_
      · rw [unpackExponent_packComponents]
        decide
      · rw [unpackExponent_packComponents]
        show (0 : Int) - 1075 ≤ top
        omega
  | finite s m e hm =>
      have he : e ≤ top := hu
      have hbias : (Format.binary64.exponentBias : Int) = 1023 := rfl
      generalize hbiased : (e + Format.binary64.exponentBias + (52 : Nat)).toNat = biased
      have hfits : biased < 2047 := by omega
      rw [UnpackedFloat.pack]
      dsimp only
      rw [hbiased, if_neg (show ¬ 2 ^ 11 ≤ biased + 1 by omega)]
      split
      · -- a normal number: the biased exponent is written as it is
        refine exponentAtMost_unpack ?_ hlow ?_ <;>
          rw [unpackExponent_packComponents, BitVec.toNat_ofNat,
            Nat.mod_eq_of_lt (show biased < 2 ^ 11 by omega)]
        · exact hfits
        · omega
      · refine exponentAtMost_unpack ?_ hlow ?_
        · rw [unpackExponent_packComponents]
          decide
        · rw [unpackExponent_packComponents]
          show (0 : Int) - 1075 ≤ top
          omega

/-! ## Integers -/

theorem isFinite_of_exponentAtMost {u : UnpackedFloat} {top : Int} (h : ExponentAtMost top u) :
    u.isFinite = true := by
  cases u with
  | zero s => rfl
  | finite s m e hm => rfl
  | infinity s => exact h.elim
  | notANumber => exact h.elim

/-- A double that is packed from a number whose exponent is at most 971 is finite. -/
theorem isFinite_ofModel_pack {u : UnpackedFloat} {top : Int} (hu : ExponentAtMost top u)
    (hlow : -1074 ≤ top) (htop : top ≤ 971) :
    (Float.ofModel (Float.Model.pack u)).isFinite = true :=
  isFinite_of_exponentAtMost (exponentAtMost_unpack_pack hu hlow htop)

theorem unpack_one : (Float.Model.ofBits 0x3FF0000000000000).unpack
    = .finite .positive (2 ^ 52) (-52) (by decide) := by
  rfl

theorem exponentAtMost_toFloat {n : Nat} (hn : n < 2 ^ 53) :
    ExponentAtMost 107 n.toUInt64.toFloat.toModel.unpack := by
  have hsize : n.toUInt64.toNat = n := by
    rw [Nat.toUInt64_eq, UInt64.toNat_ofNat_of_lt']
    exact Nat.lt_trans hn (by decide)
  have hofNat := exponentAtMost_ofNat hn
  rw [← hsize] at hofNat
  exact exponentAtMost_unpack_pack hofNat (by decide) (by decide)

/-- A natural number of at most 53 bits is read as a product with one. -/
theorem isFinite_toFloat_mul_one {n : Nat} (hn : n < 2 ^ 53) :
    (n.toUInt64.toFloat * Float.ofBits 0x3FF0000000000000).isFinite = true := by
  have hu := exponentAtMost_toFloat hn
  show (Float.ofModel (Float.Model.pack (UnpackedFloat.mul Format.binary64
    n.toUInt64.toFloat.toModel.unpack
    (Float.Model.ofBits 0x3FF0000000000000).unpack))).isFinite = true
  rw [unpack_one]
  cases hx : n.toUInt64.toFloat.toModel.unpack with
  | infinity s =>
      rw [hx] at hu
      exact hu.elim
  | notANumber =>
      rw [hx] at hu
      exact hu.elim
  | zero s =>
      have hzero : ExponentAtMost 0 (.zero (s * .positive)) := True.intro
      exact isFinite_ofModel_pack hzero (by decide) (by decide)
  | finite s m e hpos =>
      rw [hx] at hu
      have he : e ≤ 107 := hu
      have hm : m * 2 ^ 52 < 2 ^ 105 := by
        have := mantissa_unpack_lt hx
        omega
      have hproduct : ExponentAtMost 160 (UnpackedFloat.mul Format.binary64 (.finite s m e hpos)
          (.finite .positive (2 ^ 52) (-52) (by decide))) :=
        exponentAtMost_mul 105 55 hm (by decide) (by omega) (by decide) (by decide)
      exact isFinite_ofModel_pack hproduct (by decide) (by decide)

/-- A natural number of more than 53 bits is read as a product with a power of ten. -/
theorem exponentAtMost_ofScientific {n : Nat} (hpos : n ≠ 0) (hn : n < 2 ^ 64) :
    ExponentAtMost 76 (UnpackedFloat.ofScientific Format.binary64 n 0) := by
  have hlog : ¬ (0 : Int) < -((2 : Int) ^ 11 + n.log2) := by
    omega
  rw [UnpackedFloat.ofScientific, dif_neg hpos, if_neg (by decide), if_neg hlog,
    if_pos (by decide)]
  refine exponentAtMost_mul 117 (-53) ?_ ?_ ?_ ?_ ?_
  · rw [Nat.shiftLeft_eq]
    show n * 2 ^ 53 * 1 < 2 ^ 117
    omega
  all_goals decide

theorem isFinite_ofNat {n : Nat} (hn : n < 2 ^ 64) : (Float.ofNat n).isFinite = true := by
  show (Float.ofScientific n false 0).isFinite = true
  rw [Float.ofScientific]
  split
  · next h => exact isFinite_toFloat_mul_one h.1
  · next h =>
      exact isFinite_ofModel_pack (exponentAtMost_ofScientific (by omega) hn) (by decide)
        (by decide)

/-- The exponent of a finite double is at most 971. -/
theorem exponentAtMost_of_isFinite {b : BitVec Format.binary64.numBits}
    (h : (UnpackedFloat.unpack Format.binary64 b).isFinite = true) :
    ExponentAtMost 971 (UnpackedFloat.unpack Format.binary64 b) := by
  have hlt : (unpackExponent b).toNat < 2048 := BitVec.isLt _
  have hne : (unpackExponent b).toNat ≠ 2047 := by
    intro heq
    have hones : unpackExponent b = -1#11 := BitVec.eq_of_toNat_eq heq
    rw [UnpackedFloat.unpack] at h
    dsimp only at h
    rw [if_pos hones] at h
    split at h <;> exact nomatch h
  exact exponentAtMost_unpack (by omega) (by decide) (by omega)

theorem exponentAtMost_neg {u : UnpackedFloat} {top : Int} (h : ExponentAtMost top u) :
    ExponentAtMost top u.neg := by
  cases u with
  | zero s => exact True.intro
  | finite s m e hm => exact h
  | infinity s => exact h.elim
  | notANumber => exact h.elim

theorem isFinite_neg {x : Float} (h : x.isFinite = true) : x.neg.isFinite = true := by
  cases x with
  | ofModel f =>
      exact isFinite_ofModel_pack (exponentAtMost_neg (exponentAtMost_of_isFinite h)) (by decide)
        (by decide)

/-- **FINITE.** The double nearest to an integer of 64 bits, with or without a sign, is finite. -/
theorem isFinite_ofInt {n : Int} (h : -2 ^ 64 < n ∧ n < 2 ^ 64) :
    (Float.ofInt n).isFinite = true := by
  cases n with
  | ofNat n =>
      have hn : n < 2 ^ 64 := Int.ofNat_lt.mp h.2
      exact isFinite_ofNat hn
  | negSucc n =>
      have hn : n.succ < 2 ^ 64 := by
        have := h.1
        omega
      exact isFinite_neg (isFinite_ofNat hn)

end RiskDecision.Decimal
