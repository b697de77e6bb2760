import RiskDecision.Decimal.Reader
import RiskDecision.Proofs.Decimal.Finite

/-!
# Decimals are never read as NaN

A decimal reads as a number or as an infinity: the product or quotient of a finite number and a
power of ten is rounded, and rounding gives a zero or a finite number, which packs into a finite
double or an infinity. So a decimal that is read as no infinity is read as a finite double.
-/

namespace RiskDecision.Decimal

open Float.Model
open Float.Model.UnpackedFloat

/-- The datum is a zero or a finite number. -/
def IsNumber : UnpackedFloat → Prop
  | .zero _ => True
  | .finite _ _ _ _ => True
  | .infinity _ => False
  | .notANumber => False

theorem isNumber_of_exponentAtMost {u : UnpackedFloat} {top : Int} (h : ExponentAtMost top u) :
    IsNumber u := by
  cases u with
  | zero s => exact True.intro
  | finite s m e hm => exact True.intro
  | infinity s => exact h.elim
  | notANumber => exact h.elim

theorem isNumber_roundWithAccuracy (s : Sign) (m : Nat) (e : Int) (a : Accuracy) :
    IsNumber (roundWithAccuracy Format.binary64 s m e a) := by
  rw [roundWithAccuracy]
  dsimp only
  split <;> exact True.intro

/-- A product of a number and a finite number is a number. -/
theorem isNumber_mul {u : UnpackedFloat} (hu : IsNumber u) (s : Sign) (m : Nat) (e : Int)
    (hm : 0 < m) : IsNumber (UnpackedFloat.mul Format.binary64 u (.finite s m e hm)) := by
  cases u with
  | zero s => exact True.intro
  | finite s m e hm => exact isNumber_roundWithAccuracy _ _ _ _
  | infinity s => exact hu.elim
  | notANumber => exact hu.elim

/-- A quotient of a number and a finite number is a number. -/
theorem isNumber_div {u : UnpackedFloat} (hu : IsNumber u) (s : Sign) (m : Nat) (e : Int)
    (hm : 0 < m) : IsNumber (UnpackedFloat.div Format.binary64 u (.finite s m e hm)) := by
  cases u with
  | zero s => exact True.intro
  | finite s m e hm => exact isNumber_roundWithAccuracy _ _ _ _
  | infinity s => exact hu.elim
  | notANumber => exact hu.elim

theorem IsNumber.ne_notANumber {u : UnpackedFloat} (hu : IsNumber u) : u ≠ .notANumber := by
  intro h
  rw [h] at hu
  exact hu

/-! ## Packing -/

theorem isInf_packedInfinity (s : Sign) :
    (UnpackedFloat.unpack Format.binary64 (packedInfinity Format.binary64 s)).isInf = true := by
  rw [UnpackedFloat.unpack]
  dsimp only
  rw [packedInfinity, unpackExponent_packComponents, if_pos rfl, unpackMantissa_packComponents]
  rfl

/-- A datum that packs into no infinity packs into a finite double, unless it is NaN. -/
theorem isFinite_of_ne_notANumber {u : UnpackedFloat} (hu : u ≠ .notANumber)
    (hinf : (Float.ofModel (Float.Model.pack u)).isInf = false) :
    (Float.ofModel (Float.Model.pack u)).isFinite = true := by
  have hoverflow : ∀ s,
      UnpackedFloat.pack Format.binary64 u ≠ packedInfinity Format.binary64 s := by
    intro s hpack
    have hisInf : (UnpackedFloat.unpack Format.binary64
        (UnpackedFloat.pack Format.binary64 u)).isInf = true := by
      rw [hpack]
      exact isInf_packedInfinity s
    exact absurd (hisInf.symm.trans hinf) (by decide)
  cases u with
  | infinity s => exact absurd rfl (hoverflow s)
  | notANumber => exact absurd rfl hu
  | zero s =>
      have hzero : ExponentAtMost 0 (.zero s) := True.intro
      exact isFinite_ofModel_pack hzero (by decide) (by decide)
  | finite s m e hm =>
      by_cases he : e ≤ 971
      · have htop : ExponentAtMost 971 (.finite s m e hm) := he
        exact isFinite_ofModel_pack htop (by decide) (by decide)
      · -- the exponent does not fit, so the number has become an infinity
        have hbias : (Format.binary64.exponentBias : Int) = 1023 := rfl
        have hlarge : 2 ^ 11 ≤ (e + Format.binary64.exponentBias + (52 : Nat)).toNat + 1 := by
          omega
        refine absurd ?_ (hoverflow s)
        rw [UnpackedFloat.pack]
        exact if_pos hlarge

/-! ## Reading -/

/-- The power of ten in the table of exact ones is a finite number. -/
def isFiniteAt (e : Fin 23) : Bool :=
  match (Float.exactlyRepresentablePowersOfTen[e]).toModel.unpack with
  | .finite _ _ _ _ => true
  | _ => false

theorem isFiniteAt_eq_true : ∀ e, isFiniteAt e = true := by
  decide

theorem unpack_powerOfTen (e : Fin 23) :
    ∃ s m x hm, (Float.exactlyRepresentablePowersOfTen[e]).toModel.unpack = .finite s m x hm := by
  have h := isFiniteAt_eq_true e
  rw [isFiniteAt] at h
  split at h
  · next s m x hm heq => exact ⟨s, m, x, hm, heq⟩
  · exact nomatch h

/-- A decimal of at most 53 bits and a small exponent is read by one operation on two numbers. -/
theorem isFinite_short {n : Nat} (hn : n < 2 ^ 53) (e : Fin 23) :
    ((n.toUInt64.toFloat / Float.exactlyRepresentablePowersOfTen[e]).isInf = false →
      (n.toUInt64.toFloat / Float.exactlyRepresentablePowersOfTen[e]).isFinite = true) ∧
    ((n.toUInt64.toFloat * Float.exactlyRepresentablePowersOfTen[e]).isInf = false →
      (n.toUInt64.toFloat * Float.exactlyRepresentablePowersOfTen[e]).isFinite = true) := by
  have hnumber := isNumber_of_exponentAtMost (exponentAtMost_toFloat hn)
  obtain ⟨s, m, x, hm, hten⟩ := unpack_powerOfTen e
  constructor
  · refine isFinite_of_ne_notANumber ?_
    rw [hten]
    exact (isNumber_div hnumber s m x hm).ne_notANumber
  · refine isFinite_of_ne_notANumber ?_
    rw [hten]
    exact (isNumber_mul hnumber s m x hm).ne_notANumber

/-- Every other decimal is read by the general way. -/
theorem ofScientific_ne_notANumber (n : Nat) (e : Int) :
    UnpackedFloat.ofScientific Format.binary64 n e ≠ .notANumber := by
  rw [UnpackedFloat.ofScientific]
  split
  · exact UnpackedFloat.noConfusion
  · split
    · exact UnpackedFloat.noConfusion
    · split
      · exact UnpackedFloat.noConfusion
      · split
        · exact (isNumber_roundWithAccuracy _ _ _ _).ne_notANumber
        · exact (isNumber_roundWithAccuracy _ _ _ _).ne_notANumber

theorem isFinite_ofScientific (m : Nat) (s : Bool) (e : Nat)
    (h : (Float.ofScientific m s e).isInf = false) :
    (Float.ofScientific m s e).isFinite = true := by
  rw [Float.ofScientific] at h ⊢
  split at h
  · next hfast =>
      rw [dif_pos hfast]
      have hshort := isFinite_short hfast.1 ⟨e, by omega⟩
      cases s with
      | true => exact hshort.1 h
      | false => exact hshort.2 h
  · next hslow =>
      rw [dif_neg hslow]
      exact isFinite_of_ne_notANumber (ofScientific_ne_notANumber _ _) h

/-- **NO NAN.** A decimal that lies within the doubles is read as a finite double. -/
theorem Written.isFinite_magnitude {w : Written} (h : w.magnitude.isInf = false) :
    w.magnitude.isFinite = true := by
  rw [Written.magnitude] at h ⊢
  split at h
  · next hzero =>
      rw [if_pos hzero]
      exact isFinite_ofNat (by decide)
  · next hzero =>
      rw [if_neg hzero]
      split at h
      · exact absurd h (by decide)
      · next htop =>
          rw [if_neg htop]
          exact isFinite_ofScientific _ _ _ h

end RiskDecision.Decimal
