import Mathlib.Tactic.Ring
import RiskDecision.Decimal.Reader

/-!
# Digits and their value

A digit sequence denotes a number below the power of ten that its length says, and one of at least
the power before where it begins with a digit other than zero. Zeros in front change nothing.
-/

namespace RiskDecision.Decimal

theorem digitsValue_eq_ofDigitChars (cs : List Char) :
    digitsValue cs = Nat.ofDigitChars 10 cs 0 := by
  rw [digitsValue, Nat.ofDigitChars_eq_foldl]

theorem digitsValue_cons (c : Char) (cs : List Char) :
    digitsValue (c :: cs) = (c.toNat - '0'.toNat) * 10 ^ cs.length + digitsValue cs := by
  rw [digitsValue_eq_ofDigitChars, digitsValue_eq_ofDigitChars, Nat.ofDigitChars_cons,
    Nat.ofDigitChars_eq_ofDigitChars_zero, mul_zero, zero_add, mul_comm]

theorem digitsValue_append_zeros (cs : List Char) (k : Nat) :
    digitsValue (cs ++ List.replicate k '0') = digitsValue cs * 10 ^ k := by
  rw [digitsValue_eq_ofDigitChars, digitsValue_eq_ofDigitChars, Nat.ofDigitChars_append,
    Nat.ofDigitChars_replicate_zero, mul_comm]

theorem digitsValue_zeros_append (k : Nat) (cs : List Char) :
    digitsValue (List.replicate k '0' ++ cs) = digitsValue cs := by
  rw [digitsValue_eq_ofDigitChars, digitsValue_eq_ofDigitChars, Nat.ofDigitChars_append,
    Nat.ofDigitChars_replicate_zero, mul_zero]

/-- Zeros in front of a digit sequence change nothing. -/
theorem digitsValue_dropWhile_zero (cs : List Char) :
    digitsValue (cs.dropWhile (· == '0')) = digitsValue cs := by
  induction cs with
  | nil => rfl
  | cons c cs ih =>
      rw [List.dropWhile_cons]
      split
      · next hzero =>
          rw [ih, digitsValue_cons, beq_iff_eq.mp hzero, Nat.sub_self, zero_mul, zero_add]
      · rfl

/-- The digits of a number have its value. -/
theorem digitsValue_toDigits (n : Nat) : digitsValue (Nat.toDigits 10 n) = n := by
  rw [digitsValue_eq_ofDigitChars, Nat.ofDigitChars_ten_toDigits]

/-- A digit has a value below ten, and only the digit zero has the value zero. -/
theorem toNat_of_isDigit {c : Char} (h : c.isDigit = true) :
    c.toNat - '0'.toNat < 10 ∧ (c ≠ '0' → 1 ≤ c.toNat - '0'.toNat) := by
  rw [Char.isDigit, Bool.and_eq_true, decide_eq_true_iff, decide_eq_true_iff] at h
  have hlow : 48 ≤ c.toNat := UInt32.le_iff_toNat_le.mp h.1
  have hhigh : c.toNat ≤ 57 := UInt32.le_iff_toNat_le.mp h.2
  have hzero : '0'.toNat = 48 := rfl
  refine ⟨by omega, fun hne => ?_⟩
  have : c.toNat ≠ 48 := fun heq => hne (Char.toNat_inj.mp heq)
  omega

theorem digitsValue_lt {cs : List Char} (h : ∀ c ∈ cs, c.isDigit = true) :
    digitsValue cs < 10 ^ cs.length := by
  induction cs with
  | nil => exact one_pos
  | cons c cs ih =>
      have hrest := ih fun d hd => h d (List.mem_cons_of_mem c hd)
      have hc := (toNat_of_isDigit (h c List.mem_cons_self)).1
      rw [digitsValue_cons, List.length_cons, pow_succ]
      calc (c.toNat - '0'.toNat) * 10 ^ cs.length + digitsValue cs
          < (c.toNat - '0'.toNat) * 10 ^ cs.length + 10 ^ cs.length := by omega
        _ = (c.toNat - '0'.toNat + 1) * 10 ^ cs.length := by ring
        _ ≤ 10 * 10 ^ cs.length := Nat.mul_le_mul_right _ hc
        _ = 10 ^ cs.length * 10 := mul_comm _ _

theorem le_digitsValue {c : Char} (cs : List Char) (h : c.isDigit = true) (hne : c ≠ '0') :
    10 ^ cs.length ≤ digitsValue (c :: cs) := by
  rw [digitsValue_cons]
  calc 10 ^ cs.length = 1 * 10 ^ cs.length := (one_mul _).symm
    _ ≤ (c.toNat - '0'.toNat) * 10 ^ cs.length :=
      Nat.mul_le_mul_right _ ((toNat_of_isDigit h).2 hne)
    _ ≤ _ := Nat.le_add_right _ _

end RiskDecision.Decimal
