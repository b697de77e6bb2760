import Mathlib
import RiskDecision.Decimal.Shortest
import RiskDecision.Proofs.Decimal.Nearest

/-!
# The shortest decimal rounds to its number

The search for the shortest decimal compares natural numbers, on one grid after another. Each
comparison is one of rational numbers in steps of the grid (`Scaled.holds_iff`), so a point that the
search takes lies in the rounding interval. The search does take one: on the finest grid a step is
shorter than half a last place, and the point above the number lies in the interval
(`Scaled.nearest?_isSome`).
-/

namespace RiskDecision.Decimal

/-! ## The steps of a grid -/

/-- Both sides of a comparison on a grid are measured in this unit. -/
def gridUnit (b : Binary) (p : Int) : ℚ := 2 ^ (-(b.exponent - 2)).toNat * 10 ^ (-p).toNat

theorem gridUnit_pos (b : Binary) (p : Int) : 0 < gridUnit b p := by
  rw [gridUnit]
  positivity

theorem Scaled.ofBinary_unit (b : Binary) (p : Int) (n : Nat) :
    ((n * (Scaled.ofBinary b p).unit : Nat) : ℚ) = n * 10 ^ p * gridUnit b p := by
  rw [Scaled.ofBinary, gridUnit]
  simp only [Nat.pow_eq, Nat.cast_mul, Nat.cast_pow, Nat.cast_ofNat]
  rw [← zpow_mul_pow_toNat (c := 10) (by norm_num) p]
  ring

/-- A number of quarters of the last place. -/
theorem Scaled.ofBinary_quarters (b : Binary) (p : Int) (c : Nat) :
    ((c * (Nat.pow 2 (b.exponent - 2).toNat * Nat.pow 10 (-p).toNat) : Nat) : ℚ)
      = c * 2 ^ (b.exponent - 2) * gridUnit b p := by
  rw [gridUnit]
  simp only [Nat.pow_eq, Nat.cast_mul, Nat.cast_pow, Nat.cast_ofNat]
  rw [← zpow_mul_pow_toNat (c := 2) (by norm_num) (b.exponent - 2)]
  ring

section Grid

variable {b : Binary} (hbelow : b.below ≤ 4 * b.significand) (p : Int)

include hbelow in
theorem Scaled.ofBinary_lower :
    ((Scaled.ofBinary b p).lower : ℚ) = b.low * gridUnit b p := by
  show (((4 * b.significand - b.below) * _ : Nat) : ℚ) = _
  rw [Scaled.ofBinary_quarters, Binary.low, Nat.cast_sub hbelow, Nat.cast_mul, Nat.cast_ofNat]

theorem Scaled.ofBinary_upper : ((Scaled.ofBinary b p).upper : ℚ) = b.high * gridUnit b p := by
  show (((4 * b.significand + 2) * _ : Nat) : ℚ) = _
  rw [Scaled.ofBinary_quarters, Binary.high, Nat.cast_add, Nat.cast_mul, Nat.cast_ofNat,
    Nat.cast_ofNat]

theorem Scaled.ofBinary_value :
    ((Scaled.ofBinary b p).value : ℚ) = b.significand * 2 ^ b.exponent * gridUnit b p := by
  show ((4 * b.significand * _ : Nat) : ℚ) = _
  rw [Scaled.ofBinary_quarters, two_zpow_eq_quarters b.exponent, Nat.cast_mul, Nat.cast_ofNat]
  ring

include hbelow in
/-- A point of the grid lies in the interval. -/
theorem Scaled.holds_iff (n : Nat) :
    (Scaled.ofBinary b p).holds b.endsIncluded n = true ↔ b.Holds (n * 10 ^ p) := by
  have hunit := gridUnit_pos b p
  have hlower := Scaled.ofBinary_lower hbelow p
  have hupper := Scaled.ofBinary_upper (b := b) p
  have hpoint := Scaled.ofBinary_unit b p n
  rw [Scaled.holds, Binary.Holds]
  split
  · rw [Bool.and_eq_true, decide_eq_true_iff, decide_eq_true_iff, ← Nat.cast_le (α := ℚ),
      ← Nat.cast_le (α := ℚ), hlower, hupper, hpoint, mul_le_mul_iff_left₀ hunit,
      mul_le_mul_iff_left₀ hunit]
  · rw [Bool.and_eq_true, decide_eq_true_iff, decide_eq_true_iff, ← Nat.cast_lt (α := ℚ),
      ← Nat.cast_lt (α := ℚ), hlower, hupper, hpoint, mul_lt_mul_iff_left₀ hunit,
      mul_lt_mul_iff_left₀ hunit]

end Grid

/-- A point that is taken lies in the interval. -/
theorem Scaled.holds_of_nearest? {s : Scaled} {tie : Tie} {ends : Bool} {n : Nat}
    (h : s.nearest? tie ends = some n) : s.holds ends n = true := by
  rw [Scaled.nearest?.eq_def] at h
  dsimp only at h
  split at h
  · exact nomatch h
  · next hn _ => cases h; exact hn
  · next _ hn => cases h; exact hn
  · next hn hn' =>
      have hboth : n = s.value / s.unit ∨ n = s.value / s.unit + 1 := by
        cases tie <;> split_ifs at h <;> rw [Option.some_inj] at h <;> omega
      rcases hboth with rfl | rfl
      · exact hn
      · exact hn'

/-- A point is taken where the interval holds the one right above the number. -/
theorem Scaled.nearest?_ne_none {s : Scaled} {tie : Tie} {ends : Bool}
    (h : s.holds ends (s.value / s.unit + 1) = true) : s.nearest? tie ends ≠ none := by
  rw [Scaled.nearest?.eq_def]
  dsimp only
  rw [h]
  split
  · next hfalse => exact nomatch hfalse
  · exact Option.some_ne_none _
  · exact Option.some_ne_none _
  · cases tie <;> split_ifs <;> exact Option.some_ne_none _

section Search

variable {b : Binary} (hbelow : b.below ≤ 4 * b.significand) (hpos : 0 < b.below)

include hpos in
/-- The interval surrounds the number, half a last place above it. -/
theorem Binary.low_lt_value : b.low < b.significand * 2 ^ b.exponent ∧
    b.high = b.significand * 2 ^ b.exponent + 2 ^ (b.exponent - 1) := by
  have hhalf : (2 : ℚ) ^ (b.exponent - 1) = 2 * 2 ^ (b.exponent - 2) := by
    rw [← zpow_one_add₀ two_ne_zero]
    congr 1
    ring
  have hpow : (0 : ℚ) < 2 ^ (b.exponent - 2) := by positivity
  have hbelow : (0 : ℚ) < b.below := by exact_mod_cast hpos
  rw [Binary.low, Binary.high, two_zpow_eq_quarters b.exponent, hhalf]
  constructor
  · rw [← mul_assoc, mul_lt_mul_iff_left₀ hpow]
    linarith
  · ring

include hbelow hpos in
/-- On a grid whose step is shorter than half a last place, the point right above the number lies in
the interval. -/
theorem Scaled.holds_above {p : Int} (hstep : (10 : ℚ) ^ p < 2 ^ (b.exponent - 1)) :
    (Scaled.ofBinary b p).holds b.endsIncluded
      ((Scaled.ofBinary b p).value / (Scaled.ofBinary b p).unit + 1) = true := by
  have hunit := gridUnit_pos b p
  have hpositive : 0 < (Scaled.ofBinary b p).unit :=
    Nat.mul_pos (Nat.pow_pos two_pos) (Nat.pow_pos (by decide))
  have hfloor := Nat.div_mul_le_self (Scaled.ofBinary b p).value (Scaled.ofBinary b p).unit
  have hceil := (Nat.div_lt_iff_lt_mul hpositive).mp
    (Nat.lt_succ_self ((Scaled.ofBinary b p).value / (Scaled.ofBinary b p).unit))
  rw [Scaled.holds_iff hbelow]
  generalize (Scaled.ofBinary b p).value / (Scaled.ofBinary b p).unit = n at hfloor hceil ⊢
  rw [← Nat.cast_le (α := ℚ), Scaled.ofBinary_unit, Scaled.ofBinary_value,
    mul_le_mul_iff_left₀ hunit] at hfloor
  rw [← Nat.cast_lt (α := ℚ), Scaled.ofBinary_unit, Scaled.ofBinary_value,
    mul_lt_mul_iff_left₀ hunit] at hceil
  obtain ⟨hlow, hhigh⟩ := Binary.low_lt_value hpos
  have hlt : b.low < (n + 1 : Nat) * 10 ^ p := hlow.trans hceil
  have hgt : ((n + 1 : Nat) * 10 ^ p : ℚ) < b.high := by
    rw [hhigh, Nat.cast_add, Nat.cast_one]
    linarith
  rw [Binary.Holds]
  split
  · exact ⟨hlt.le, hgt.le⟩
  · exact ⟨hlt, hgt⟩

include hbelow hpos in
/-- The search down the grids ends with a point of the interval, if one of them is that fine. -/
theorem searchGrid_holds {tie : Tie} {fuel : Nat} {p : Int} (k : Nat) (hk : k < fuel)
    (hstep : (10 : ℚ) ^ (p - k) < 2 ^ (b.exponent - 1)) :
    b.Holds ((searchGrid b tie p fuel).digits * 10 ^ (searchGrid b tie p fuel).exponent) := by
  induction fuel generalizing p k with
  | zero => exact absurd hk (Nat.not_lt_zero k)
  | succ fuel ih =>
      rw [searchGrid]
      split
      · next n hn => exact (Scaled.holds_iff hbelow p n).mp (Scaled.holds_of_nearest? hn)
      · next hnone =>
          -- the grid was too coarse, so the fine one is still ahead
          cases k with
          | zero =>
              rw [Nat.cast_zero, sub_zero] at hstep
              exact absurd hnone (Scaled.nearest?_ne_none (Scaled.holds_above hbelow hpos hstep))
          | succ k =>
              refine ih k (Nat.lt_of_succ_lt_succ hk) ?_
              rwa [sub_sub, add_comm (1 : Int), ← Nat.cast_one (R := Int), ← Nat.cast_add]

end Search

/-! ## The finest grid -/

/-- Three decimal digits take ten binary ones. -/
theorem ten_pow_le_two_pow (k : Nat) : 10 ^ k ≤ 2 ^ ((10 * k + 2) / 3) := by
  have hrest : ∀ r < 3, 10 ^ r ≤ 2 ^ ((10 * r + 2) / 3) := by decide
  have hsplit : (10 * k + 2) / 3 = 10 * (k / 3) + (10 * (k % 3) + 2) / 3 := by omega
  calc 10 ^ k = (10 ^ 3) ^ (k / 3) * 10 ^ (k % 3) := by
        rw [← pow_mul, ← pow_add, Nat.div_add_mod]
    _ ≤ (2 ^ 10) ^ (k / 3) * 2 ^ ((10 * (k % 3) + 2) / 3) :=
        Nat.mul_le_mul (Nat.pow_le_pow_left (by decide) _) (hrest _ (Nat.mod_lt k (by decide)))
    _ = 2 ^ ((10 * k + 2) / 3) := by rw [hsplit, pow_add, pow_mul]

/-- The step of the finest grid is shorter than half a last place. -/
theorem finest_step {p e : Int} (hp : 100000 * p ≤ 30103 * e - 204541) (hlow : -1074 ≤ e)
    (hhigh : e ≤ 971) : (10 : ℚ) ^ p < 2 ^ (e - 1) := by
  rcases Int.le_total 0 p with hnonneg | hneg
  · obtain ⟨k, rfl⟩ := Int.eq_ofNat_of_zero_le hnonneg
    calc (10 : ℚ) ^ (k : Int) = (10 ^ k : Nat) := by rw [zpow_natCast, Nat.cast_pow, Nat.cast_ofNat]
      _ ≤ (2 ^ ((10 * k + 2) / 3) : Nat) := by exact_mod_cast ten_pow_le_two_pow k
      _ = (2 : ℚ) ^ (((10 * k + 2) / 3 : Nat) : Int) := by
          rw [zpow_natCast, Nat.cast_pow, Nat.cast_ofNat]
      _ < 2 ^ (e - 1) := zpow_lt_zpow_right₀ one_lt_two (by omega)
  · obtain ⟨k, rfl⟩ : ∃ k : Nat, p = -k := ⟨(-p).toNat, by omega⟩
    have hpow : (2 : ℚ) ^ (93 * k / 28) ≤ 10 ^ k := by exact_mod_cast two_pow_le_ten_pow k
    calc (10 : ℚ) ^ (-(k : Int)) = (10 ^ k)⁻¹ := by rw [zpow_neg, zpow_natCast]
      _ ≤ (2 ^ (93 * k / 28))⁻¹ := inv_anti₀ (by positivity) hpow
      _ = (2 : ℚ) ^ (-((93 * k / 28 : Nat) : Int)) := by rw [zpow_neg, zpow_natCast]
      _ < 2 ^ (e - 1) := zpow_lt_zpow_right₀ one_lt_two (by omega)

/-- **SHORTEST.** The shortest decimal of a double rounds to it. -/
theorem shortest_holds {m : Nat} {e : Int} (h : IsDouble m e) (tie : Tie) :
    (binary m e).Holds (((binary m e).shortest tie).digits
      * 10 ^ ((binary m e).shortest tie).exponent) := by
  have hm := h.pos
  have hlow := h.low
  have hlog : m.log2 < 53 := (Nat.log2_lt h.pos.ne').mpr h.lt
  have hbelow : (binary m e).below ≤ 4 * (binary m e).significand := by
    rw [binary]
    dsimp only
    split_ifs <;> omega
  have hpos : 0 < (binary m e).below := by
    rw [binary]
    dsimp only
    split_ifs <;> decide
  refine searchGrid_holds hbelow hpos 19 (by decide) (finest_step ?_ h.low h.high)
  show 100000 * (((m.log2 : Int) + e + 1) * 30103 / 100000 + 1 - (19 : Nat))
    ≤ 30103 * e - 204541
  omega

end RiskDecision.Decimal
