import Mathlib
import RiskDecision.Proofs.Decimal.Order
import RiskDecision.Proofs.Decimal.Rounding

/-!
# Sums of doubles

The exact sum of two doubles is a multiple of the least positive double. Rounding it leaves it as it
is where it has room, and keeps 53 bits of it where it has not, so it never gets lost altogether.
Therefore a sum is zero only if the exact sum is, and then one double is the opposite of the other
(`add_beq_zero_iff`). Where a sum is the denominator of a quotient, this is when the quotient is no
finite number (`isFinite_div_of_zero`).
-/

namespace RiskDecision.Decimal

open Float.Model
open Float.Model.UnpackedFloat

/-! ## Rounding keeps what is not zero -/

theorem log2_mul_two_pow {m : Nat} (hm : 0 < m) (k : Nat) : (m * 2 ^ k).log2 = m.log2 + k := by
  induction k with
  | zero => rw [pow_zero, mul_one, Nat.add_zero]
  | succ k ih =>
      rw [pow_succ', mul_left_comm, Nat.log2_two_mul (by positivity), ih, Nat.add_assoc]

theorem roundedMantissa_extended_one (m : Nat) : (extended m 1).roundedMantissa = m :=
  roundedMantissa_extended one_pos (by omega) (by omega) fun _ => ⟨by omega, by omega⟩

/-- Rounding goes down or one up. -/
theorem roundedMantissa_bounds (a b : Nat) :
    a / b ≤ (extended a b).roundedMantissa ∧ (extended a b).roundedMantissa ≤ a / b + 1 := by
  refine ⟨?_, roundedMantissa_le _⟩
  rw [extended, roundedMantissa_mk]
  split_ifs <;> omega

/-- A number of at most 53 bits is a double unless its exponent is too large. -/
def IsRounded (m : Nat) (e : Int) : Prop := IsDouble m e ∨ 971 < e

theorem isRounded_of_target {m : Nat} {e : Int} (hm : 0 < m)
    (h : Format.binary64.targetExponent (totalExponent m e) = e) : IsRounded m e := by
  rw [targetExponent_binary64, totalExponent] at h
  by_cases hhigh : e ≤ 971
  · refine Or.inl ⟨hm, (Nat.log2_lt hm.ne').mp (by omega), by omega, hhigh, ?_⟩
    by_cases hlow : e = -1074
    · exact Or.inr hlow
    · exact Or.inl ((Nat.le_log2 hm.ne').mp (by omega))
  · exact Or.inr (not_le.mp hhigh)

variable {m : Nat} {e : Int}

/-- There is room for the number: it is rounded to itself. -/
theorem round_of_target_le (hm : 0 < m) (s : Sign) {k : Nat}
    (hk : Format.binary64.targetExponent (totalExponent m e) + k = e) :
    ∃ (m' : Nat) (e' : Int) (h : 0 < m'),
      round Format.binary64 s m e = .finite s m' e' h ∧ IsRounded m' e' := by
  generalize hT : Format.binary64.targetExponent (totalExponent m e) = T at hk
  subst hk
  have hpos : 0 < m * 2 ^ k := by positivity
  have htarget : Format.binary64.targetExponent (totalExponent (m * 2 ^ k) T) = T := by
    rw [totalExponent, log2_mul_two_pow hm]
    rw [totalExponent] at hT
    convert hT using 2
    push_cast
    ring
  refine ⟨m * 2 ^ k, T, hpos, ?_, isRounded_of_target hpos htarget⟩
  have hshift : (T + k - T).toNat = k := by omega
  have hexponent : T + k - (k : Int) = T := by omega
  rw [UnpackedFloat.round, hT, decreaseExponent, hshift, hexponent, Nat.shiftLeft_eq]
  have hself := shiftToTargetExponent_of_target htarget
  exact roundWithAccuracy_eq hpos hself (roundedMantissa_extended_one _) hself (Nat.div_one _)

/-- There is no room for some of the bits: 53 of them are kept, or one is carried over. -/
theorem round_of_lt_target (hm : 0 < m) (he : -1074 ≤ e) (s : Sign) {k : Nat} (hpos : 0 < k)
    (hk : Format.binary64.targetExponent (totalExponent m e) = e + k) :
    ∃ (m' : Nat) (e' : Int) (h : 0 < m'),
      round Format.binary64 s m e = .finite s m' e' h ∧ IsRounded m' e' := by
  have hfirst := shiftToTargetExponent_exact hk
  have hround : round Format.binary64 s m e
      = roundWithAccuracy Format.binary64 s m e .exact := by
    have hnone : (e - (e + k)).toNat = 0 := by omega
    rw [UnpackedFloat.round, hk, decreaseExponent, hnone, Nat.shiftLeft_zero, Nat.cast_zero,
      sub_zero]
  have hlog : m.log2 = 52 + k := by
    rw [targetExponent_binary64, totalExponent] at hk
    omega
  -- what is kept has 53 bits
  have hlow : 2 ^ 52 ≤ m / 2 ^ k := by
    rw [Nat.le_div_iff_mul_le (by positivity), ← pow_add, ← hlog]
    exact Nat.log2_self_le hm.ne'
  have hhigh : m / 2 ^ k < 2 ^ 53 := by
    rw [Nat.div_lt_iff_lt_mul (by positivity), ← pow_add]
    exact Nat.lt_log2_self.trans_eq (by rw [hlog]; congr 1; omega)
  obtain ⟨hge, hle⟩ := roundedMantissa_bounds m (2 ^ k)
  generalize hn : (extended m (2 ^ k)).roundedMantissa = n at hge hle
  rcases (show n ≤ 2 ^ 53 by omega).lt_or_eq with hlt | rfl
  · have hbits : n.log2 = 52 := by
      have := (Nat.le_log2 (show n ≠ 0 by omega)).mpr (show 2 ^ 52 ≤ n by omega)
      have := (Nat.log2_lt (show n ≠ 0 by omega)).mpr hlt
      omega
    have htarget : Format.binary64.targetExponent (totalExponent n (e + k)) = e + k := by
      rw [targetExponent_binary64, totalExponent, hbits]
      omega
    have hn0 : 0 < n := by omega
    exact ⟨n, e + k, hn0, hround.trans (roundWithAccuracy_eq hn0 hfirst hn
      (shiftToTargetExponent_of_target htarget) (Nat.div_one n)), isRounded_of_target hn0 htarget⟩
  · have hcarry := shiftToTargetExponent_carry (show -1074 ≤ e + k by omega)
    have hpos' : 0 < 2 ^ 52 := by positivity
    have htarget : Format.binary64.targetExponent (totalExponent (2 ^ 52) (e + k + 1))
        = e + k + 1 := by
      rw [targetExponent_binary64, totalExponent, Nat.log2_two_pow]
      omega
    exact ⟨2 ^ 52, e + k + 1, hpos', hround.trans (roundWithAccuracy_eq hpos' hfirst hn hcarry rfl),
      isRounded_of_target hpos' htarget⟩

/-- **NOTHING GETS LOST**: a positive multiple of the least double is not rounded to zero. -/
theorem round_isRounded (hm : 0 < m) (he : -1074 ≤ e) (s : Sign) :
    ∃ (m' : Nat) (e' : Int) (h : 0 < m'),
      round Format.binary64 s m e = .finite s m' e' h ∧ IsRounded m' e' := by
  rcases le_or_gt (Format.binary64.targetExponent (totalExponent m e)) e with h | h
  · exact round_of_target_le hm s (k := (e - Format.binary64.targetExponent
      (totalExponent m e)).toNat) (by omega)
  · exact round_of_lt_target hm he s (k := (Format.binary64.targetExponent
      (totalExponent m e) - e).toNat) (by omega) (by omega)

/-- A signed sum that is not zero is rounded to a number that is not zero. -/
theorem normalize_isRounded {n : Int} (hn : n ≠ 0) (he : -1074 ≤ e) (zero : Sign) :
    ∃ (s : Sign) (m' : Nat) (e' : Int) (h : 0 < m'),
      normalize Format.binary64 n e zero = .finite s m' e' h ∧ IsRounded m' e' := by
  rw [UnpackedFloat.normalize]
  rcases lt_trichotomy n 0 with h | h | h
  · rw [Int.compare_eq_lt.mpr h]
    exact ⟨.negative, round_isRounded (by omega) he .negative⟩
  · exact absurd h hn
  · rw [Int.compare_eq_gt.mpr h]
    exact ⟨.positive, round_isRounded (by omega) he .positive⟩

/-! ## Zeros -/

theorem beq_zero_iff {x : Float} : (x == 0) = true ↔ ∃ s, x.toModel.unpack = .zero s := by
  have hzero : (0 : Float).toModel.unpack = .zero .positive := rfl
  rw [beq_iff, hzero]
  constructor
  · intro h
    rcases eq_or_zero_of_compare h with h | ⟨s, t, h, -⟩
    · exact ⟨_, h⟩
    · exact ⟨s, h⟩
  · rintro ⟨s, h⟩
    rw [h]
    rfl

theorem unpack_packedNaN :
    UnpackedFloat.unpack Format.binary64 (packedNaN Format.binary64) = .notANumber := rfl

theorem unpack_packedInfinity (s : Sign) :
    UnpackedFloat.unpack Format.binary64 (packedInfinity Format.binary64 s) = .infinity s := by
  cases s <;> rfl

/-- What is not rounded to zero is not packed into a zero. -/
theorem unpack_pack_ne_zero {s : Sign} {hm : 0 < m} (h : IsRounded m e) (t : Sign) :
    UnpackedFloat.unpack Format.binary64 (pack Format.binary64 (.finite s m e hm)) ≠ .zero t := by
  rcases h with h | h
  · rw [unpack_pack h]
    exact nofun
  · intro hzero
    have hbias : (Format.binary64.exponentBias : Int) = 1023 := rfl
    have hinf : pack Format.binary64 (.finite s m e hm) = packedInfinity Format.binary64 s :=
      if_pos (show 2 ^ 11 ≤ (e + Format.binary64.exponentBias + (52 : Nat)).toNat + 1 by omega)
    rw [hinf, unpack_packedInfinity] at hzero
    exact nomatch hzero

/-- A quotient by zero is an infinity or no number. -/
theorem isFinite_div_of_zero {x y : Float} (h : (y == 0) = true) : (x / y).isFinite = false := by
  obtain ⟨s, hs⟩ := beq_zero_iff.mp h
  show (UnpackedFloat.unpack Format.binary64 (pack Format.binary64
    (UnpackedFloat.div Format.binary64 x.toModel.unpack y.toModel.unpack))).isFinite = false
  rw [hs]
  cases x.toModel.unpack with
  | notANumber => exact congrArg UnpackedFloat.isFinite unpack_packedNaN
  | infinity t => exact congrArg UnpackedFloat.isFinite (unpack_packedInfinity _)
  | zero t => exact congrArg UnpackedFloat.isFinite unpack_packedNaN
  | finite t m e hm => exact congrArg UnpackedFloat.isFinite (unpack_packedInfinity _)

/-! ## Sums -/

/-- Two doubles of one size are the same. -/
theorem isDouble_unique {m₁ m₂ : Nat} {e₁ e₂ : Int} (h₁ : IsDouble m₁ e₁) (h₂ : IsDouble m₂ e₂)
    {k₁ k₂ : Nat} (he : e₁ - k₁ = e₂ - k₂) (h : m₁ * 2 ^ k₁ = m₂ * 2 ^ k₂) :
    m₁ = m₂ ∧ e₁ = e₂ := by
  -- the one with the larger exponent has all 53 bits, so the other one would have more
  have hle : ∀ {m₁ m₂ : Nat} {e₁ e₂ : Int} {k₁ k₂ : Nat}, IsDouble m₁ e₁ → IsDouble m₂ e₂ →
      e₁ - k₁ = e₂ - k₂ → m₁ * 2 ^ k₁ = m₂ * 2 ^ k₂ → e₂ ≤ e₁ := by
    intro m₁ m₂ e₁ e₂ k₁ k₂ h₁ h₂ he h
    by_contra hlt
    obtain ⟨d, rfl⟩ : ∃ d : Nat, k₂ = k₁ + (d + 1) := ⟨k₂ - k₁ - 1, by omega⟩
    have hfull : 2 ^ 52 ≤ m₂ := h₂.full.resolve_right (by have := h₁.low; omega)
    have hm : m₁ = m₂ * 2 ^ (d + 1) := by
      refine Nat.eq_of_mul_eq_mul_right (show 0 < 2 ^ k₁ by positivity) ?_
      rw [h, mul_assoc, ← pow_add, Nat.add_comm k₁]
    have hge : 2 ^ 53 ≤ m₁ := by
      rw [hm, pow_succ' 2 d]
      have := Nat.one_le_two_pow (n := d)
      nlinarith
    exact absurd h₁.lt (not_lt.mpr hge)
  obtain rfl : e₁ = e₂ := le_antisymm (hle h₂ h₁ he.symm h.symm) (hle h₁ h₂ he h)
  obtain rfl : k₁ = k₂ := by omega
  exact ⟨Nat.eq_of_mul_eq_mul_right (by positivity) h, rfl⟩

/-- Two signed numbers add up to nothing if they have one size and opposite signs. -/
theorem apply_add_apply_eq_zero_iff {s₁ s₂ : Sign} {a b : Nat} (ha : 0 < a) :
    s₁.apply a + s₂.apply b = 0 ↔ s₁ = -s₂ ∧ a = b := by
  have hpos : -Sign.positive = .negative := rfl
  have hneg : -Sign.negative = .positive := rfl
  cases s₁ <;> cases s₂ <;> simp only [Sign.apply, hpos, hneg, reduceCtorEq,
    true_and, false_and, iff_false] <;> omega

/-- **THE EXACT SUM** decides whether the sum of two numbers is zero. -/
theorem unpack_pack_add_iff {m₁ m₂ : Nat} {e₁ e₂ : Int} {h₁ : 0 < m₁} {h₂ : 0 < m₂}
    (d₁ : IsDouble m₁ e₁) (d₂ : IsDouble m₂ e₂) (s₁ s₂ : Sign) :
    (∃ t, UnpackedFloat.unpack Format.binary64 (pack Format.binary64 (UnpackedFloat.add
        Format.binary64 (.finite s₁ m₁ e₁ h₁) (.finite s₂ m₂ e₂ h₂))) = .zero t) ↔
      s₁ = -s₂ ∧ m₁ = m₂ ∧ e₁ = e₂ := by
  obtain ⟨k₁, hk₁⟩ : ∃ k₁ : Nat, e₁ - min e₁ e₂ = k₁ := ⟨(e₁ - min e₁ e₂).toNat, by omega⟩
  obtain ⟨k₂, hk₂⟩ : ∃ k₂ : Nat, e₂ - min e₁ e₂ = k₂ := ⟨(e₂ - min e₁ e₂).toNat, by omega⟩
  have hadd : UnpackedFloat.add Format.binary64 (.finite s₁ m₁ e₁ h₁) (.finite s₂ m₂ e₂ h₂)
      = normalize Format.binary64
          (s₁.apply (m₁ * 2 ^ k₁ : Nat) + s₂.apply (m₂ * 2 ^ k₂ : Nat)) (min e₁ e₂) .positive := by
    rw [UnpackedFloat.add, decreaseExponent, decreaseExponent, hk₁, hk₂, Nat.shiftLeft_eq,
      Nat.shiftLeft_eq]
    rfl
  have hexact : s₁.apply (m₁ * 2 ^ k₁ : Nat) + s₂.apply (m₂ * 2 ^ k₂ : Nat) = 0
      ↔ s₁ = -s₂ ∧ m₁ * 2 ^ k₁ = m₂ * 2 ^ k₂ := apply_add_apply_eq_zero_iff (by positivity)
  have hsame : m₁ * 2 ^ k₁ = m₂ * 2 ^ k₂ ↔ m₁ = m₂ ∧ e₁ = e₂ := by
    constructor
    · exact isDouble_unique d₁ d₂ (by omega)
    · rintro ⟨rfl, rfl⟩
      rw [show k₁ = k₂ by omega]
  rw [hadd, ← hsame, ← hexact]
  by_cases hn : s₁.apply (m₁ * 2 ^ k₁ : Nat) + s₂.apply (m₂ * 2 ^ k₂ : Nat) = 0
  · have hzero : normalize Format.binary64 0 (min e₁ e₂) .positive = .zero .positive := rfl
    rw [hn, hzero]
    exact iff_of_true ⟨.positive, rfl⟩ rfl
  · obtain ⟨s, m', e', h, hnormal, hrounded⟩ :=
      normalize_isRounded hn (le_min d₁.low d₂.low) .positive
    rw [hnormal]
    refine iff_of_false ?_ hn
    rintro ⟨t, ht⟩
    exact unpack_pack_ne_zero hrounded t ht

/-- A number equals the opposite of a double if it has the same parts but for the sign. -/
theorem beq_neg_iff {x y : Float} {s : Sign} {m : Nat} {e : Int} {hm : 0 < m}
    (hy : y.toModel.unpack = .finite s m e hm) :
    (x == -y) = true ↔ x.toModel.unpack = .finite (-s) m e hm := by
  rw [beq_iff, unpack_neg hy]
  constructor
  · intro h
    rcases eq_or_zero_of_compare h with h | ⟨_, _, -, h⟩
    · exact h
    · exact nomatch h
  · intro h
    rw [h]
    cases s <;> simp [UnpackedFloat.compare]

/-- **ZERO SUMS.** The sum of a number and a finite double other than zero is zero only if one is
the opposite of the other. -/
theorem add_beq_zero_iff {x y : Float} {s : Sign} {m : Nat} {e : Int} {hm : 0 < m}
    (hy : y.toModel.unpack = .finite s m e hm) : (x + y == 0) = true ↔ (x == -y) = true := by
  have hsum : (x + y).toModel.unpack = UnpackedFloat.unpack Format.binary64 (pack Format.binary64
      (UnpackedFloat.add Format.binary64 x.toModel.unpack (.finite s m e hm))) := by
    rw [← hy]
    rfl
  rw [beq_zero_iff, beq_neg_iff hy, hsum]
  cases hx : x.toModel.unpack with
  | notANumber =>
      refine iff_of_false ?_ nofun
      rintro ⟨u, hu⟩
      exact nomatch unpack_packedNaN.symm.trans hu
  | infinity t =>
      refine iff_of_false ?_ nofun
      rintro ⟨u, hu⟩
      exact nomatch (unpack_packedInfinity t).symm.trans hu
  | zero t =>
      refine iff_of_false ?_ nofun
      rintro ⟨u, hu⟩
      exact unpack_pack_ne_zero (Or.inl (isDouble_of_unpack hy)) u hu
  | finite t m' e' hm' =>
      rw [unpack_pack_add_iff (isDouble_of_unpack hx) (isDouble_of_unpack hy)]
      simp only [UnpackedFloat.finite.injEq]

end RiskDecision.Decimal
