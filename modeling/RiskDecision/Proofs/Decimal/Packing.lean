import Mathlib
import RiskDecision.Decimal.Layout
import RiskDecision.Proofs.Decimal.Finite

/-!
# Doubles and their words

A double is kept as a word of 64 bits and computed with as a sign, a mantissa and an exponent. The
two forms determine each other: a double is what its parts pack into (`ofModel_pack`), and a
mantissa and an exponent of the right sizes come back from the word that they are packed into
(`unpack_pack`). `Binary.ofBits` reads the same mantissa and exponent off the word.
-/

namespace RiskDecision.Decimal

open Float.Model
open Float.Model.UnpackedFloat

/-! ## The fields of a word -/

theorem toNat_unpackMantissa (b : BitVec Format.binary64.numBits) :
    (unpackMantissa b).toNat = b.toNat % 2 ^ 52 := by
  rw [unpackMantissa, BitVec.toNat_cast, BitVec.extractLsb_toNat, Nat.shiftRight_zero]
  rfl

theorem toNat_unpackExponent (b : BitVec Format.binary64.numBits) :
    (unpackExponent b).toNat = b.toNat / 2 ^ 52 % 2 ^ 11 := by
  rw [unpackExponent, BitVec.toNat_cast, BitVec.extractLsb_toNat, Nat.shiftRight_eq_div_pow]
  rfl

theorem toNat_unpackSign (b : BitVec Format.binary64.numBits) :
    (unpackSign b).toNat = b.toNat / 2 ^ 63 % 2 := by
  rw [unpackSign, BitVec.toNat_cast, BitVec.extractLsb_toNat, Nat.shiftRight_eq_div_pow]
  rfl

theorem toNat_packComponents (s : Sign) (e : BitVec 11) (m : BitVec 52) :
    (packComponents Format.binary64 s e m).toNat
      = (s.toBitVec.toNat * 2 ^ 11 + e.toNat) * 2 ^ 52 + m.toNat := by
  rw [packComponents, BitVec.toNat_append, BitVec.toNat_append,
    ← Nat.shiftLeft_add_eq_or_of_lt m.isLt, ← Nat.shiftLeft_add_eq_or_of_lt e.isLt,
    Nat.shiftLeft_eq, Nat.shiftLeft_eq]

theorem toBitVec_ofBitVec (b : BitVec 1) : (Sign.ofBitVec b).toBitVec = b := by
  revert b
  decide

theorem ofBitVec_toBitVec (s : Sign) : Sign.ofBitVec s.toBitVec = s := by
  cases s <;> rfl

theorem unpackSign_packComponents (s : Sign) (e : BitVec 11) (m : BitVec 52) :
    unpackSign (packComponents Format.binary64 s e m) = s.toBitVec := by
  refine BitVec.eq_of_toNat_eq ?_
  rw [toNat_unpackSign, toNat_packComponents]
  have := s.toBitVec.isLt
  have := e.isLt
  have := m.isLt
  omega

/-- A word is put together from its fields. -/
theorem packComponents_unpack (b : BitVec Format.binary64.numBits) :
    packComponents Format.binary64 (Sign.ofBitVec (unpackSign b)) (unpackExponent b)
      (unpackMantissa b) = b := by
  refine BitVec.eq_of_toNat_eq ?_
  have hlt : b.toNat < 2 ^ 64 := b.isLt
  rw [toNat_packComponents, toBitVec_ofBitVec, toNat_unpackSign, toNat_unpackExponent,
    toNat_unpackMantissa]
  omega

/-! ## Mantissas and exponents of doubles -/

/-- The number `m * 2 ^ e` is a positive double: its mantissa takes 53 bits, or fewer with the least
exponent. -/
structure IsDouble (m : Nat) (e : Int) : Prop where
  pos : 0 < m
  lt : m < 2 ^ 53
  low : -1074 ≤ e
  high : e ≤ 971
  full : 2 ^ 52 ≤ m ∨ e = -1074

/-- The mantissa with the bit that is not stored. -/
theorem toNat_one_append (v : BitVec 52) : (1#1 ++ v).toNat = 2 ^ 52 + v.toNat := by
  rw [BitVec.toNat_append, ← Nat.shiftLeft_add_eq_or_of_lt v.isLt, Nat.shiftLeft_eq]
  rfl

/-- The parts of a double in terms of the fields of its word. -/
theorem fields_of_unpack {b : BitVec Format.binary64.numBits} {s : Sign} {m : Nat} {e : Int}
    {hm : 0 < m} (h : UnpackedFloat.unpack Format.binary64 b = .finite s m e hm) :
    s = Sign.ofBitVec (unpackSign b) ∧
      ((unpackExponent b).toNat = 0 ∧ m = (unpackMantissa b).toNat ∧ e = -1074 ∨
        0 < (unpackExponent b).toNat ∧ m = 2 ^ 52 + (unpackMantissa b).toNat ∧
          e = (unpackExponent b).toNat - 1075) := by
  rw [UnpackedFloat.unpack] at h
  dsimp only at h
  split at h
  · split at h <;> exact nomatch h
  · split at h
    · next hzero =>
        have hexponent : (unpackExponent b).toNat = 0 := congrArg BitVec.toNat hzero
        split at h
        · exact nomatch h
        · cases h
          refine ⟨rfl, Or.inl ⟨hexponent, rfl, ?_⟩⟩
          rw [hexponent]
          rfl
    · next hzero =>
        cases h
        refine ⟨rfl, Or.inr ⟨?_, toNat_one_append _, rfl⟩⟩
        rw [Nat.pos_iff_ne_zero]
        exact fun heq => hzero (BitVec.eq_of_toNat_eq heq)

theorem isDouble_of_unpack {b : BitVec Format.binary64.numBits} {s : Sign} {m : Nat} {e : Int}
    {hm : 0 < m} (h : UnpackedFloat.unpack Format.binary64 b = .finite s m e hm) :
    IsDouble m e := by
  have hfinite : (UnpackedFloat.unpack Format.binary64 b).isFinite = true := by
    rw [h]
    rfl
  have hhigh : e ≤ 971 := by
    have htop := exponentAtMost_of_isFinite hfinite
    rw [h] at htop
    exact htop
  obtain ⟨-, ⟨-, -, rfl⟩ | ⟨hpos, rfl, he⟩⟩ := fields_of_unpack h
  · exact ⟨hm, mantissa_unpack_lt h, le_rfl, hhigh, Or.inr rfl⟩
  · exact ⟨hm, mantissa_unpack_lt h, by omega, hhigh, Or.inl (Nat.le_add_right _ _)⟩

theorem log2_add_one_of_normal {m : Nat} (hge : 2 ^ 52 ≤ m) (hlt : m < 2 ^ 53) :
    m.log2 + 1 = Format.binary64.mantissaBits := by
  have hlow : 52 ≤ m.log2 := (Nat.le_log2 (by omega)).mpr hge
  have hhigh : m.log2 < 53 := (Nat.log2_lt (by omega)).mpr hlt
  show m.log2 + 1 = 53
  omega

/-- A normal number is stored with its biased exponent. -/
theorem pack_normal {s : Sign} {m : Nat} {e : Int} {hm : 0 < m} (hge : 2 ^ 52 ≤ m)
    (hlt : m < 2 ^ 53) {biased : Nat} (he : e = biased - 1075) (hbiased : biased < 2047) :
    pack Format.binary64 (.finite s m e hm)
      = packComponents Format.binary64 s (BitVec.ofNat 11 biased) (BitVec.ofNat 52 m) := by
  have hbias : (Format.binary64.exponentBias : Int) = 1023 := rfl
  have hstored : (e + Format.binary64.exponentBias + (52 : Nat)).toNat = biased := by omega
  rw [UnpackedFloat.pack]
  dsimp only
  rw [hstored, if_neg (show ¬ 2 ^ 11 ≤ biased + 1 by omega),
    if_pos (log2_add_one_of_normal hge hlt)]

/-- A number with a smaller mantissa is stored without an exponent. -/
theorem pack_subnormal {s : Sign} {m : Nat} {hm : 0 < m} (hlt : m < 2 ^ 52) :
    pack Format.binary64 (.finite s m (-1074) hm)
      = packComponents Format.binary64 s 0#11 (BitVec.ofNat 52 m) := by
  have hlog : m.log2 < 52 := (Nat.log2_lt hm.ne').mpr hlt
  rw [UnpackedFloat.pack]
  dsimp only
  rw [if_neg (by decide), if_neg]
  show ¬ m.log2 + 1 = 53
  omega

/-- **PACKING** keeps the mantissa and the exponent of a double. -/
theorem unpack_pack {s : Sign} {m : Nat} {e : Int} {hm : 0 < m} (h : IsDouble m e) :
    UnpackedFloat.unpack Format.binary64 (pack Format.binary64 (.finite s m e hm))
      = .finite s m e hm := by
  obtain ⟨-, hlt, hlow, hhigh, hfull⟩ := h
  have hbias : (Format.binary64.exponentBias : Int) = 1023 := rfl
  by_cases hge : 2 ^ 52 ≤ m
  · obtain ⟨biased, he⟩ : ∃ biased : Nat, e = biased - 1075 := ⟨(e + 1075).toNat, by omega⟩
    have hexponent : (BitVec.ofNat 11 biased).toNat = biased := by
      rw [BitVec.toNat_ofNat]
      omega
    have hmantissa : (1#1 ++ BitVec.ofNat 52 m).toNat = m := by
      rw [toNat_one_append, BitVec.toNat_ofNat]
      omega
    have hones : BitVec.ofNat 11 biased ≠ -1#11 := by
      intro heq
      have hsame : biased = 2047 := hexponent.symm.trans (congrArg BitVec.toNat heq)
      omega
    have hzero : BitVec.ofNat 11 biased ≠ 0#11 := by
      intro heq
      have hsame : biased = 0 := hexponent.symm.trans (congrArg BitVec.toNat heq)
      omega
    rw [pack_normal hge hlt he (by omega), UnpackedFloat.unpack]
    simp only [unpackExponent_packComponents, unpackMantissa_packComponents,
      unpackSign_packComponents, ofBitVec_toBitVec, if_neg hones, if_neg hzero, hmantissa,
      hexponent]
    congr 1
    omega
  · obtain rfl : e = -1074 := hfull.resolve_left hge
    have hmantissa : (BitVec.ofNat 52 m).toNat = m := by
      rw [BitVec.toNat_ofNat]
      omega
    have hne : BitVec.ofNat 52 m ≠ 0#52 := by
      intro heq
      exact hm.ne' (hmantissa.symm.trans (congrArg BitVec.toNat heq))
    rw [pack_subnormal (by omega), UnpackedFloat.unpack]
    simp only [unpackExponent_packComponents, unpackMantissa_packComponents,
      unpackSign_packComponents, ofBitVec_toBitVec, hmantissa, dif_neg hne]
    rfl

/-- **UNPACKING** loses nothing. -/
theorem pack_unpack {b : BitVec Format.binary64.numBits} (valid : Format.binary64.Valid b) :
    pack Format.binary64 (UnpackedFloat.unpack Format.binary64 b) = b := by
  have hfields := packComponents_unpack b
  have hmlt : (unpackMantissa b).toNat < 2 ^ 52 := (unpackMantissa b).isLt
  rw [UnpackedFloat.unpack]
  dsimp only
  split
  · next hones =>
      split
      · next hzero =>
          rw [hones, hzero] at hfields
          exact hfields
      · next hne => exact (valid.eq_packedNaN hones hne).symm
  · next hones =>
      split
      · next hzero =>
          rw [hzero] at hfields ⊢
          split
          · next hnone =>
              rw [hnone] at hfields
              exact hfields
          · next hne =>
              refine (pack_subnormal hmlt).trans ?_
              rw [BitVec.ofNat_toNat, BitVec.setWidth_eq]
              exact hfields
      · next hzero =>
          have hlt : (unpackExponent b).toNat < 2047 := by
            have hlt : (unpackExponent b).toNat < 2048 := (unpackExponent b).isLt
            have hne : (unpackExponent b).toNat ≠ 2047 :=
              fun heq => hones (BitVec.eq_of_toNat_eq heq)
            omega
          have hmantissa := toNat_one_append (unpackMantissa b)
          have hstored : BitVec.ofNat 52 (1#1 ++ unpackMantissa b).toNat = unpackMantissa b := by
            refine BitVec.eq_of_toNat_eq ?_
            rw [BitVec.toNat_ofNat, hmantissa]
            omega
          refine (pack_normal (by omega) (by omega) rfl hlt).trans ?_
          rw [hstored, BitVec.ofNat_toNat, BitVec.setWidth_eq]
          exact hfields

/-! ## Doubles -/

/-- A double is what its parts pack into. -/
theorem ofModel_pack (x : Float) : Float.ofModel (Float.Model.pack x.toModel.unpack) = x := by
  obtain ⟨⟨bits, valid⟩⟩ := x
  have hbits : UInt64.ofBitVec (pack Format.binary64
      (UnpackedFloat.unpack Format.binary64 bits.toBitVec)) = bits := by
    rw [pack_unpack valid]
  exact congrArg Float.ofModel (Float.Model.mk.injEq .. ▸ hbits)

/-- A double and its opposite have the same parts up to the sign. -/
theorem unpack_neg {x : Float} {s : Sign} {m : Nat} {e : Int} {hm : 0 < m}
    (h : x.toModel.unpack = .finite s m e hm) :
    (-x).toModel.unpack = .finite (-s) m e hm := by
  have hdouble := isDouble_of_unpack h
  show UnpackedFloat.unpack Format.binary64 (pack Format.binary64 x.toModel.unpack.neg) = _
  rw [h]
  exact unpack_pack hdouble

/-- The sign of a double is the first bit of its word. -/
theorem isNegative_iff {x : Float} {s : Sign} {m : Nat} {e : Int} {hm : 0 < m}
    (h : x.toModel.unpack = .finite s m e hm) : isNegative x = true ↔ s = .negative := by
  have hbit : (@unpackSign Format.binary64 x.toBits.toBitVec).toNat
      = x.toBits.toNat / 2 ^ 63 % 2 := toNat_unpackSign _
  have hlt := x.toBits.toNat_lt
  have hsign : s.toBitVec = @unpackSign Format.binary64 x.toBits.toBitVec := by
    rw [(fields_of_unpack h).1]
    exact toBitVec_ofBitVec _
  rw [← hsign] at hbit
  rw [isNegative, decide_eq_true_iff, ge_iff_le, UInt64.le_iff_toNat_le]
  show 2 ^ 63 ≤ x.toBits.toNat ↔ s = .negative
  cases s with
  | positive =>
      have hzero : 0 = x.toBits.toNat / 2 ^ 63 % 2 := hbit
      simp only [reduceCtorEq, iff_false]
      omega
  | negative =>
      have hone : 1 = x.toBits.toNat / 2 ^ 63 % 2 := hbit
      simp only [iff_true]
      omega

/-- The mantissa and the exponent are read off the word. -/
theorem Binary.ofBits_eq {x : Float} {s : Sign} {m : Nat} {e : Int} {hm : 0 < m}
    (h : x.toModel.unpack = .finite s m e hm) :
    Binary.ofBits x.toBits = ⟨m, e, if m = 2 ^ 52 then 1 else 2⟩ := by
  have hexponent : (@unpackExponent Format.binary64 x.toBits.toBitVec).toNat
      = x.toBits.toNat / 2 ^ 52 % 2 ^ 11 := toNat_unpackExponent _
  have hmantissa : (@unpackMantissa Format.binary64 x.toBits.toBitVec).toNat
      = x.toBits.toNat % 2 ^ 52 := toNat_unpackMantissa _
  have hread : Binary.ofBits x.toBits
      = if x.toBits.toNat / 2 ^ 52 % 2 ^ 11 = 0 then ⟨x.toBits.toNat % 2 ^ 52, -1074, 2⟩
        else ⟨x.toBits.toNat % 2 ^ 52 + 2 ^ 52, (x.toBits.toNat / 2 ^ 52 % 2 ^ 11 : Nat) - 1075,
          if x.toBits.toNat % 2 ^ 52 = 0 then 1 else 2⟩ := rfl
  rw [hread]
  obtain ⟨-, ⟨hzero, hm', he⟩ | ⟨hpos, hm', he⟩⟩ := fields_of_unpack h
  · have hzero' : x.toBits.toNat / 2 ^ 52 % 2 ^ 11 = 0 := hexponent.symm.trans hzero
    have hm'' : m = x.toBits.toNat % 2 ^ 52 := hm'.trans hmantissa
    rw [if_pos hzero', if_neg (show m ≠ 2 ^ 52 by omega), ← hm'', he]
  · have hpos' : x.toBits.toNat / 2 ^ 52 % 2 ^ 11 ≠ 0 := by
      rw [← hexponent]
      exact hpos.ne'
    have hm'' : m = 2 ^ 52 + x.toBits.toNat % 2 ^ 52 := hm'.trans (by rw [← hmantissa]; rfl)
    have he' : e = (x.toBits.toNat / 2 ^ 52 % 2 ^ 11 : Nat) - 1075 := by
      rw [← hexponent]
      exact he
    have hbelow : m = 2 ^ 52 ↔ x.toBits.toNat % 2 ^ 52 = 0 := by omega
    simp only [if_neg hpos', hbelow, he']
    rw [hm'', Nat.add_comm]

end RiskDecision.Decimal
