import Mathlib
import RiskDecision.Decimal.Reader
import RiskDecision.Proofs.Decimal.Digits
import RiskDecision.Proofs.Decimal.Rounding

/-!
# A decimal is read as the nearest double

The decimal of a number text is read as the double whose rounding interval it lies in
(`Written.unpack_magnitude`). A short decimal is computed by one operation on two doubles, which
holds because both its digits and the power of ten are doubles themselves; every other one is
computed from natural numbers of any size. The two bounds that settle decimals far outside of the
doubles never apply to one that lies in the rounding interval of a double.
-/

namespace RiskDecision.Decimal

open Float.Model
open Float.Model.UnpackedFloat

/-! ## Numbers that are doubles -/

/-- A double lies in its own interval. -/
theorem binary_holds_self (m : Nat) (e : Int) : (binary m e).Holds (m * 2 ^ e) := by
  have hpow : (0 : ℚ) < 2 ^ e := by positivity
  have hlow : (binary m e).low < m * 2 ^ e := by
    rw [binary_low, mul_lt_mul_iff_left₀ hpow]
    split_ifs <;> linarith
  have hhigh : m * 2 ^ e < (binary m e).high := by
    rw [binary_high, mul_lt_mul_iff_left₀ hpow]
    linarith
  exact binary_holds_iff.mpr ⟨⟨hlow.le, hhigh.le⟩, fun _ => ⟨hlow, hhigh⟩⟩

/-- A natural number of at most 53 bits is a double. -/
theorem isDouble_ofNat {n : Nat} (hpos : 0 < n) (hn : n < 2 ^ 53) :
    IsDouble (n * 2 ^ (52 - n.log2)) (n.log2 - 52) := by
  have hlog : n.log2 < 53 := (Nat.log2_lt hpos.ne').mpr hn
  have hlow : 2 ^ 52 ≤ n * 2 ^ (52 - n.log2) := by
    calc 2 ^ 52 = 2 ^ n.log2 * 2 ^ (52 - n.log2) := by
          rw [← pow_add, Nat.add_sub_cancel' (by omega)]
      _ ≤ n * 2 ^ (52 - n.log2) := Nat.mul_le_mul_right _ (Nat.log2_self_le hpos.ne')
  have hhigh : n * 2 ^ (52 - n.log2) < 2 ^ 53 := by
    calc n * 2 ^ (52 - n.log2) < 2 ^ (n.log2 + 1) * 2 ^ (52 - n.log2) :=
          Nat.mul_lt_mul_of_pos_right Nat.lt_log2_self (by positivity)
      _ = 2 ^ 53 := by
          rw [← pow_add]
          congr 1
          omega
  exact ⟨by positivity, hhigh, by omega, by omega, Or.inl hlow⟩

theorem ofNat_value {n : Nat} (hn : n.log2 ≤ 52) :
    ((n * 2 ^ (52 - n.log2) : Nat) : ℚ) * 2 ^ ((n.log2 : Int) - 52) = n := by
  have hexponent : ((n.log2 : Int) - 52) = -((52 - n.log2 : Nat) : Int) := by omega
  rw [hexponent, zpow_neg, zpow_natCast, Nat.cast_mul, Nat.cast_pow, Nat.cast_ofNat]
  field_simp

/-- A natural number of at most 53 bits keeps its value when it becomes a double. -/
theorem unpack_toFloat {n : Nat} (hpos : 0 < n) (hn : n < 2 ^ 53) :
    n.toUInt64.toFloat.toModel.unpack = .finite .positive (n * 2 ^ (52 - n.log2)) (n.log2 - 52)
      (by positivity) := by
  have hsize : n.toUInt64.toNat = n := by
    rw [Nat.toUInt64_eq, UInt64.toNat_ofNat_of_lt']
    exact Nat.lt_trans hn (by decide)
  have hlog : n.log2 < 53 := (Nat.log2_lt hpos.ne').mpr hn
  have hdouble := isDouble_ofNat hpos hn
  have hofNat : UnpackedFloat.ofNat Format.binary64 n
      = .finite .positive (n * 2 ^ (52 - n.log2)) (n.log2 - 52) hdouble.pos := by
    have hcompare : compare (n : Int) 0 = .gt := Std.compare_eq_gt.mpr (by omega)
    rw [UnpackedFloat.ofNat, UnpackedFloat.ofInt, UnpackedFloat.normalize, hcompare]
    show UnpackedFloat.round Format.binary64 .positive n 0 = _
    have hshift : (0 - Format.binary64.targetExponent (totalExponent n 0)).toNat
        = 52 - n.log2 := by
      rw [targetExponent_binary64, totalExponent]
      omega
    have hbits : 2 ^ 52 ≤ n * 2 ^ (52 - n.log2) := hdouble.full.resolve_right (by omega)
    have hbits := (Nat.le_log2 hdouble.pos.ne').mpr hbits
    have hround := roundWithAccuracy_of_holds (a := n * 2 ^ (52 - n.log2)) (b := 1) hdouble one_pos
      (by rw [Nat.cast_one, div_one]; exact binary_holds_self _ _)
      (by rw [targetExponent_binary64, totalExponent, Nat.div_one]; omega) .positive
    rw [Nat.div_one, Nat.mod_one] at hround
    rw [UnpackedFloat.round, decreaseExponent, hshift]
    dsimp only
    rw [Nat.shiftLeft_eq, show (0 : Int) - (52 - n.log2 : Nat) = n.log2 - 52 by omega]
    exact hround
  show UnpackedFloat.unpack Format.binary64 (pack Format.binary64
    (UnpackedFloat.ofNat Format.binary64 n.toUInt64.toNat)) = _
  rw [hsize, hofNat]
  exact unpack_pack hdouble

/-- A power with an integer exponent in terms of natural exponents. -/
theorem zpow_mul_pow_toNat {c : ℚ} (hc : c ≠ 0) (x : Int) :
    c ^ x * c ^ (-x).toNat = c ^ x.toNat := by
  rw [← zpow_natCast, ← zpow_natCast, ← zpow_add₀ hc]
  congr 1
  omega

/-- The double is the power of ten with this exponent, with a mantissa of 53 bits. -/
def isPowerOfTen (k : Nat) (x : Float) : Bool :=
  match x.toModel.unpack with
  | .finite .positive m e _ =>
    m * 2 ^ e.toNat == 10 ^ k * 2 ^ (-e).toNat && decide (2 ^ 52 ≤ m)
  | _ => false

theorem isPowerOfTen_table :
    ∀ e : Fin 23, isPowerOfTen e.val Float.exactlyRepresentablePowersOfTen[e] = true := by
  decide

theorem unpack_exactPower (e : Fin 23) :
    ∃ m x hm, (Float.exactlyRepresentablePowersOfTen[e]).toModel.unpack
        = .finite .positive m x hm ∧ (m * 2 ^ x : ℚ) = 10 ^ e.val ∧ 2 ^ 52 ≤ m := by
  have h := isPowerOfTen_table e
  rw [isPowerOfTen] at h
  split at h
  · next m x hm heq =>
      rw [Bool.and_eq_true, beq_iff_eq, decide_eq_true_iff] at h
      refine ⟨m, x, hm, heq, ?_, h.2⟩
      have hvalue : (m * 2 ^ x.toNat : ℚ) = 10 ^ e.val * 2 ^ (-x).toNat := by exact_mod_cast h.1
      have hpow : (2 : ℚ) ^ (-x).toNat ≠ 0 := by positivity
      rw [← zpow_mul_pow_toNat two_ne_zero, ← mul_assoc] at hvalue
      exact mul_right_cancel₀ hpow hvalue
  · exact nomatch h

/-! ## Decimals -/

section Decimal

variable {m : Nat} {e : Int} {n : Nat}

/-- A double that is packed from a mantissa and an exponent of the right sizes unpacks to them. -/
theorem unpack_ofModel_pack (h : IsDouble m e) {u : UnpackedFloat} {s : Sign}
    (hu : u = .finite s m e h.pos) :
    (Float.ofModel (Float.Model.pack u)).toModel.unpack = .finite s m e h.pos := by
  rw [hu]
  exact unpack_pack h

/-- A short decimal without places is a product of two doubles. -/
theorem unpack_short_mul (h : IsDouble m e) (hpos : 0 < n) (hn : n < 2 ^ 53) (k : Fin 23)
    (hx : (binary m e).Holds (n * 10 ^ k.val)) :
    (n.toUInt64.toFloat * Float.exactlyRepresentablePowersOfTen[k]).toModel.unpack
      = .finite .positive m e h.pos := by
  obtain ⟨m₂, e₂, h₂, hten, hvalue, hbits⟩ := unpack_exactPower k
  have hlog : n.log2 < 53 := (Nat.log2_lt hpos.ne').mpr hn
  refine unpack_ofModel_pack h (s := .positive) ?_
  show UnpackedFloat.mul Format.binary64 n.toUInt64.toFloat.toModel.unpack
    (Float.exactlyRepresentablePowersOfTen[k]).toModel.unpack = _
  rw [unpack_toFloat hpos hn, hten]
  refine mul_of_holds h (le_trans hbits (Nat.le_mul_of_pos_left _ (by positivity))) ?_ _ _
  rwa [zpow_add₀ two_ne_zero, mul_mul_mul_comm, ofNat_value (by omega), hvalue]

/-- A short decimal with places is a quotient of two doubles. -/
theorem unpack_short_div (h : IsDouble m e) (hpos : 0 < n) (hn : n < 2 ^ 53) (k : Fin 23)
    (hx : (binary m e).Holds (n / 10 ^ k.val)) :
    (n.toUInt64.toFloat / Float.exactlyRepresentablePowersOfTen[k]).toModel.unpack
      = .finite .positive m e h.pos := by
  obtain ⟨m₂, e₂, h₂, hten, hvalue, hbits⟩ := unpack_exactPower k
  have hlog : n.log2 < 53 := (Nat.log2_lt hpos.ne').mpr hn
  refine unpack_ofModel_pack h (s := .positive) ?_
  show UnpackedFloat.div Format.binary64 n.toUInt64.toFloat.toModel.unpack
    (Float.exactlyRepresentablePowersOfTen[k]).toModel.unpack = _
  rw [unpack_toFloat hpos hn, hten]
  refine div_of_holds h ?_ _ _
  rwa [zpow_sub₀ two_ne_zero, div_mul_div_comm, ofNat_value (by omega), hvalue]

/-- Every other decimal is computed from natural numbers. -/
theorem ofScientific_of_holds (h : IsDouble m e) (hpos : 0 < n) {p : Int}
    (hx : (binary m e).Holds (n * 10 ^ p)) (hhigh : p ≤ 2048)
    (hlow : -(2048 + n.log2 : Int) ≤ p) :
    UnpackedFloat.ofScientific Format.binary64 n p = .finite .positive m e h.pos := by
  have hbits : (2 : Int) ^ Format.binary64.exponentBits = 2048 := rfl
  rw [UnpackedFloat.ofScientific, hbits, dif_neg hpos.ne', if_neg (by omega), if_neg (by omega)]
  split
  · next hnonneg =>
      obtain ⟨k, rfl⟩ := Int.eq_ofNat_of_zero_le hnonneg
      have hshift : n <<< Format.binary64.mantissaBits = n * 2 ^ 53 := Nat.shiftLeft_eq _ _
      refine mul_of_holds h ?_ ?_ .positive .positive
      · rw [hshift]
        calc 2 ^ 52 ≤ 1 * 2 ^ 53 * 1 := by decide
          _ ≤ n * 2 ^ 53 * 10 ^ (k : Int).toNat :=
            Nat.mul_le_mul (Nat.mul_le_mul_right _ hpos) (Nat.pos_of_ne_zero (by positivity))
      · have hvalue : ((n <<< Format.binary64.mantissaBits : Nat) * (10 ^ (k : Int).toNat : Nat)
            * 2 ^ (-(Format.binary64.mantissaBits : Int) + 0) : ℚ) = n * 10 ^ (k : Int) := by
          rw [hshift, Int.toNat_natCast, add_zero, zpow_neg, zpow_natCast, zpow_natCast]
          show ((n * 2 ^ 53 : Nat) * (10 ^ k : Nat) * (2 ^ 53)⁻¹ : ℚ) = n * 10 ^ k
          rw [Nat.cast_mul, Nat.cast_pow, Nat.cast_pow, Nat.cast_ofNat, Nat.cast_ofNat]
          field_simp
        rwa [hvalue]
  · next hneg =>
      obtain ⟨k, rfl⟩ : ∃ k : Nat, p = -k := ⟨(-p).toNat, by omega⟩
      refine div_of_holds h ?_ .positive .positive
      rw [neg_neg, Int.toNat_natCast, sub_zero, zpow_zero, mul_one, Nat.cast_pow,
        Nat.cast_ofNat]
      rwa [zpow_neg, zpow_natCast, ← div_eq_mul_inv] at hx

/-- A decimal is computed to the double that it rounds to. -/
theorem unpack_ofScientific (h : IsDouble m e) (hpos : 0 < n) {p : Int}
    (hx : (binary m e).Holds (n * 10 ^ p)) (hhigh : p ≤ 2048)
    (hlow : -(2048 + n.log2 : Int) ≤ p) :
    (Float.ofScientific n (p < 0) p.natAbs).toModel.unpack = .finite .positive m e h.pos := by
  have hsign : (if (decide (p < 0)) = true then Int.negOfNat p.natAbs else Int.ofNat p.natAbs)
      = p := by
    simp only [decide_eq_true_eq, Int.negOfNat_eq, Int.ofNat_eq_natCast]
    split_ifs <;> omega
  rw [Float.ofScientific]
  split
  · next hshort =>
      dsimp only
      split
      · next hneg =>
          obtain ⟨k, rfl⟩ : ∃ k : Nat, p = -k := ⟨(-p).toNat, by have := of_decide_eq_true hneg; omega⟩
          have hk : (-(k : Int)).natAbs = k := by omega
          simp only [hk] at hshort ⊢
          rw [zpow_neg, zpow_natCast, ← div_eq_mul_inv] at hx
          exact unpack_short_div h hpos hshort.1 ⟨k, by omega⟩ hx
      · next hnonneg =>
          obtain ⟨k, rfl⟩ : ∃ k : Nat, p = k := ⟨p.toNat, by have := mt decide_eq_true hnonneg; omega⟩
          have hk : (k : Int).natAbs = k := by omega
          simp only [hk] at hshort ⊢
          rw [zpow_natCast] at hx
          exact unpack_short_mul h hpos hshort.1 ⟨k, by omega⟩ hx
  · show (Float.ofModel (Float.Model.pack (UnpackedFloat.ofScientific Format.binary64 n _))
      ).toModel.unpack = _
    rw [hsign]
    exact unpack_ofModel_pack h (ofScientific_of_holds h hpos hx hhigh hlow)

/-! ## Number texts -/

/-- Twenty-eight decimal digits hold ninety-three binary ones. -/
theorem two_pow_le_ten_pow (k : Nat) : 2 ^ (93 * k / 28) ≤ 10 ^ k := by
  have hrest : ∀ r < 28, 2 ^ (93 * r / 28) ≤ 10 ^ r := by decide
  have hsplit : 93 * k / 28 = 93 * (k / 28) + 93 * (k % 28) / 28 := by omega
  calc 2 ^ (93 * k / 28) = (2 ^ 93) ^ (k / 28) * 2 ^ (93 * (k % 28) / 28) := by
        rw [hsplit, pow_add, pow_mul]
    _ ≤ (10 ^ 28) ^ (k / 28) * 10 ^ (k % 28) :=
        Nat.mul_le_mul (Nat.pow_le_pow_left (by decide) _) (hrest _ (Nat.mod_lt k (by decide)))
    _ = 10 ^ k := by rw [← pow_mul, ← pow_add, Nat.div_add_mod]

theorem two_pow_lt_ten_pow {j k : Nat} (h : j < 93 * k / 28) : 2 ^ j < 10 ^ k :=
  (Nat.pow_lt_pow_right one_lt_two h).trans_le (two_pow_le_ten_pow k)

/-- Whatever rounds to a double lies between these powers of ten. -/
theorem bounds_of_holds (h : IsDouble m e) {x : ℚ} (hx : (binary m e).Holds x) :
    10 ^ (-324 : Int) < x ∧ x < 10 ^ (309 : Int) := by
  obtain ⟨⟨hlow, hhigh⟩, -⟩ := binary_holds_iff.mp hx
  rw [binary_low] at hlow
  rw [binary_high] at hhigh
  constructor
  · have hpow : (2 : ℚ) ^ 1075 < 10 ^ 324 := by
      exact_mod_cast two_pow_lt_ten_pow (show 1075 < 93 * 324 / 28 by decide)
    have hm : (1 / 2 : ℚ) ≤ m - (if m = 2 ^ 52 then 1 / 4 else 1 / 2) := by
      have : (1 : ℚ) ≤ m := by exact_mod_cast h.pos
      split_ifs <;> linarith
    calc (10 : ℚ) ^ (-324 : Int) = (10 ^ 324)⁻¹ := zpow_neg 10 324
      _ < (2 ^ 1075)⁻¹ := inv_strictAnti₀ (by positivity) hpow
      _ = 1 / 2 * 2 ^ (-1074 : Int) := by rw [pow_succ, mul_inv, mul_comm, one_div, zpow_neg]; rfl
      _ ≤ 1 / 2 * 2 ^ e :=
        mul_le_mul_of_nonneg_left (zpow_le_zpow_right₀ one_le_two h.low) (by norm_num)
      _ ≤ (m - (if m = 2 ^ 52 then 1 / 4 else 1 / 2)) * 2 ^ e :=
        mul_le_mul_of_nonneg_right hm (by positivity)
      _ ≤ x := hlow
  · have hpow : (2 : ℚ) ^ 1024 < 10 ^ 309 := by
      exact_mod_cast two_pow_lt_ten_pow (show 1024 < 93 * 309 / 28 by decide)
    have hm : (m + 1 / 2 : ℚ) ≤ 2 ^ 53 := by
      have : (m + 1 : ℚ) ≤ 2 ^ 53 := by exact_mod_cast h.lt
      linarith
    calc x ≤ (m + 1 / 2) * 2 ^ e := hhigh
      _ ≤ 2 ^ 53 * 2 ^ e := mul_le_mul_of_nonneg_right hm (by positivity)
      _ ≤ 2 ^ 53 * 2 ^ (971 : Int) :=
        mul_le_mul_of_nonneg_left (zpow_le_zpow_right₀ one_le_two h.high) (by positivity)
      _ = 2 ^ 1024 := (pow_add 2 53 971).symm
      _ < 10 ^ (309 : Int) := hpow

/-- Where the first digit stands in a decimal between these powers of ten. -/
theorem top_of_bounds {c : Char} {cs : List Char} {p : Int}
    (hall : ∀ d ∈ c :: cs, d.isDigit = true) (hne : c ≠ '0')
    (hlow : 10 ^ (-324 : Int) < (digitsValue (c :: cs) * 10 ^ p : ℚ))
    (hhigh : (digitsValue (c :: cs) * 10 ^ p : ℚ) < 10 ^ (309 : Int)) :
    -324 < p + (c :: cs).length ∧ p + (c :: cs).length ≤ 309 := by
  have hten : (1 : ℚ) < 10 := by norm_num
  have hpow : (0 : ℚ) < 10 ^ p := by positivity
  have hfirst : (10 ^ cs.length : ℚ) ≤ digitsValue (c :: cs) := by
    exact_mod_cast le_digitsValue cs (hall c List.mem_cons_self) hne
  have hlast : (digitsValue (c :: cs) : ℚ) < 10 ^ (c :: cs).length := by
    exact_mod_cast digitsValue_lt hall
  constructor
  · refine (zpow_lt_zpow_iff_right₀ hten).mp (hlow.trans ?_)
    rw [add_comm, zpow_add₀ (by norm_num), zpow_natCast]
    exact mul_lt_mul_of_pos_right hlast hpow
  · have hlt : (10 : ℚ) ^ (cs.length + p) < 10 ^ (309 : Int) := by
      refine lt_of_le_of_lt ?_ hhigh
      rw [zpow_add₀ (by norm_num), zpow_natCast]
      exact mul_le_mul_of_nonneg_right hfirst hpow.le
    have := (zpow_lt_zpow_iff_right₀ hten).mp hlt
    rw [List.length_cons]
    omega

/-- The value of a decimal. -/
def Written.value (w : Written) : ℚ :=
  digitsValue (w.whole ++ w.fraction) * 10 ^ (w.exponent - w.fraction.length)

/-- **NEAREST.** A decimal that rounds to a double is read as this double. -/
theorem Written.unpack_magnitude {w : Written} (h : IsDouble m e)
    (hdigits : ∀ c ∈ w.whole ++ w.fraction, c.isDigit = true) (hx : (binary m e).Holds w.value) :
    w.magnitude.toModel.unpack = .finite .positive m e h.pos := by
  obtain ⟨hlow, hhigh⟩ := bounds_of_holds h hx
  rw [Written.value, ← digitsValue_dropWhile_zero] at hx hlow hhigh
  rw [Written.magnitude]
  have hall : ∀ c ∈ (w.whole ++ w.fraction).dropWhile (· == '0'), c.isDigit = true :=
    fun c hc => hdigits c ((List.dropWhile_suffix _).subset hc)
  have hhead := List.head?_dropWhile_not (· == '0') (w.whole ++ w.fraction)
  generalize w.exponent - (w.fraction.length : Int) = p at hx hlow hhigh ⊢
  generalize (w.whole ++ w.fraction).dropWhile (· == '0') = cs at hx hlow hhigh hall hhead ⊢
  cases cs with
  | nil =>
      -- only zeros, and no double is that small
      have hzero : (digitsValue [] : ℚ) = 0 := rfl
      rw [hzero, zero_mul] at hlow
      exact absurd hlow (not_lt_of_ge (by positivity))
  | cons c cs =>
      have hne : c ≠ '0' := beq_eq_false_iff_ne.mp hhead
      obtain ⟨hbottom, htop⟩ := top_of_bounds hall hne hlow hhigh
      have hfirst := le_digitsValue cs (hall c List.mem_cons_self) hne
      have hlog : cs.length ≤ (digitsValue (c :: cs)).log2 := by
        refine (Nat.le_log2 (lt_of_lt_of_le (by positivity) hfirst).ne').mpr (le_trans ?_ hfirst)
        exact Nat.pow_le_pow_left (by decide) _
      have hlength : (c :: cs).length = cs.length + 1 := rfl
      rw [if_neg, if_neg (by omega)]
      · exact unpack_ofScientific h (lt_of_lt_of_le (by positivity) hfirst) hx (by omega) (by omega)
      · rw [List.isEmpty_cons, Bool.false_or, decide_eq_true_iff]
        omega

end Decimal

end RiskDecision.Decimal
