import Mathlib
import RiskDecision.Decimal.Layout
import RiskDecision.Proofs.Decimal.Shortest

/-!
# The text of a number reads back as the number

The positional text of a shortest decimal is read as the digits and places that it was written from,
the decimal rounds to its number, and a sign goes in front of both. So every double comes back from
its text bit for bit, the infinities, NaN and the two zeros included (`read?_text`).
-/

namespace RiskDecision.Decimal

open Float.Model
open Float.Model.UnpackedFloat

/-! ## Reading digits -/

theorem takeWhile_isDigit_append {ds : List Char} (hds : ∀ c ∈ ds, c.isDigit = true)
    (rest : List Char) (hrest : rest.head?.all (fun c => !c.isDigit) = true) :
    (ds ++ rest).takeWhile Char.isDigit = ds ∧ (ds ++ rest).dropWhile Char.isDigit = rest := by
  rw [List.takeWhile_append_of_pos hds, List.dropWhile_append_of_pos hds]
  cases rest with
  | nil => exact ⟨List.append_nil ds, rfl⟩
  | cons c rest =>
      have hc : c.isDigit = false := Bool.not_eq_true' _ ▸ hrest
      rw [List.takeWhile_cons_of_neg (by simp [hc]), List.dropWhile_cons_of_neg (by simp [hc])]
      exact ⟨List.append_nil ds, rfl⟩

/-- Digits only are a decimal without places. -/
theorem readDecimal?_digits {ds : List Char} (hds : ∀ c ∈ ds, c.isDigit = true) (hne : ds ≠ []) :
    readDecimal? ds = some ⟨ds, [], 0⟩ := by
  obtain ⟨htake, hdrop⟩ := takeWhile_isDigit_append hds [] rfl
  rw [List.append_nil] at htake hdrop
  rw [readDecimal?, htake, hdrop]
  cases ds with
  | nil => exact absurd rfl hne
  | cons c ds => rfl

/-- The digits after a point are places. -/
theorem readDecimal?_point {ds fs : List Char} (hds : ∀ c ∈ ds, c.isDigit = true)
    (hfs : ∀ c ∈ fs, c.isDigit = true) (hne : ds ≠ []) :
    readDecimal? (ds ++ '.' :: fs) = some ⟨ds, fs, 0⟩ := by
  obtain ⟨htake, hdrop⟩ := takeWhile_isDigit_append hds ('.' :: fs) rfl
  obtain ⟨htake', hdrop'⟩ := takeWhile_isDigit_append hfs [] rfl
  rw [List.append_nil] at htake' hdrop'
  rw [readDecimal?, htake, hdrop]
  cases ds with
  | nil => exact absurd rfl hne
  | cons c ds =>
      simp only [htake', hdrop']
      rfl

/-- A text that begins with a digit is none of the words for what is not a decimal. -/
theorem readMagnitude?_of_isDigit {c : Char} {cs : List Char} (h : c.isDigit = true) :
    readMagnitude? (c :: cs) = (readDecimal? (c :: cs)).map Written.magnitude := by
  have hlower : c.toLower = c := by
    refine Char.toLower_eq_of_not_isUpper fun hupper => ?_
    rw [Char.isDigit, Bool.and_eq_true, decide_eq_true_iff, decide_eq_true_iff] at h
    rw [Char.isUpper, decide_eq_true_iff] at hupper
    exact absurd (UInt32.le_trans hupper.1 h.2) (by decide)
  have hword : ∀ word : List Char, word.head?.any Char.isDigit = false →
      (String.ofList ((c :: cs).map Char.toLower) == String.ofList word) = false := by
    intro word hhead
    rw [beq_eq_false_iff_ne]
    intro heq
    have hlist := congrArg String.toList heq
    rw [String.toList_ofList, String.toList_ofList, List.map_cons, hlower] at hlist
    rw [← hlist, List.head?_cons, Option.any_some, h] at hhead
    exact nomatch hhead
  have hinf := hword ['i', 'n', 'f'] (by decide)
  have hinfinity := hword ['i', 'n', 'f', 'i', 'n', 'i', 't', 'y'] (by decide)
  have hnan := hword ['n', 'a', 'n'] (by decide)
  rw [readMagnitude?, if_neg, if_neg]
  · rw [Bool.not_eq_true]
    exact hnan
  · rw [Bool.not_eq_true, Bool.or_eq_false_iff]
    exact ⟨hinf, hinfinity⟩

theorem takeSign_of_isDigit {c : Char} {cs : List Char} (h : c.isDigit = true) :
    takeSign (c :: cs) = (false, c :: cs) := by
  rw [takeSign.eq_3]
  · rintro _ ⟨⟩
    exact absurd h (by decide)
  · rintro _ ⟨⟩
    exact absurd h (by decide)

/-- The characters begin with a digit and are read as a decimal of this value. -/
def ReadsAs (cs : List Char) (x : ℚ) : Prop :=
  ∃ c rest w, cs = c :: rest ∧ c.isDigit = true ∧ readDecimal? cs = some w ∧
    (∀ d ∈ w.whole ++ w.fraction, d.isDigit = true) ∧ w.value = x

theorem readsAs_digits {ds : List Char} (hds : ∀ c ∈ ds, c.isDigit = true) (hne : ds ≠ []) :
    ReadsAs ds (digitsValue ds) := by
  cases ds with
  | nil => exact absurd rfl hne
  | cons c ds =>
      refine ⟨c, ds, _, rfl, hds c List.mem_cons_self, readDecimal?_digits hds hne, ?_, ?_⟩
      · rwa [List.append_nil]
      · rw [Written.value, List.append_nil, List.length_nil, Nat.cast_zero, sub_zero, zpow_zero,
          mul_one]

theorem readsAs_point {ds fs : List Char} (hds : ∀ c ∈ ds, c.isDigit = true)
    (hfs : ∀ c ∈ fs, c.isDigit = true) (hne : ds ≠ []) :
    ReadsAs (ds ++ '.' :: fs) (digitsValue (ds ++ fs) * 10 ^ (-(fs.length : Int))) := by
  cases ds with
  | nil => exact absurd rfl hne
  | cons c ds =>
      refine ⟨c, ds ++ '.' :: fs, _, rfl, hds c List.mem_cons_self,
        readDecimal?_point hds hfs hne, ?_, ?_⟩
      · intro d hd
        rcases List.mem_append.mp hd with hd | hd
        · exact hds d hd
        · exact hfs d hd
      · rw [Written.value, zero_sub]

/-- A text that is read as a number of a rounding interval is read as the double. -/
theorem ReadsAs.readMagnitude? {cs : List Char} {x : ℚ} (hread : ReadsAs cs x) {m : Nat} {e : Int}
    (h : IsDouble m e) (hx : (binary m e).Holds x) :
    ∃ y, Decimal.readMagnitude? cs = some y ∧
      y.toModel.unpack = .finite .positive m e h.pos := by
  obtain ⟨c, rest, w, rfl, hc, hw, hdigits, rfl⟩ := hread
  refine ⟨w.magnitude, ?_, Written.unpack_magnitude h hdigits hx⟩
  rw [readMagnitude?_of_isDigit hc, hw, Option.map_some]

theorem ReadsAs.takeSign {cs : List Char} {x : ℚ} (hread : ReadsAs cs x) :
    Decimal.takeSign cs = (false, cs) := by
  obtain ⟨c, rest, w, rfl, hc, -⟩ := hread
  exact takeSign_of_isDigit hc

/-! ## The digits of a shortest decimal -/

theorem toList_zeros (k : Nat) : (zeros k).toList = List.replicate k '0' :=
  String.toList_ofList

theorem isDigit_of_mem_replicate {k : Nat} {c : Char} (h : c ∈ List.replicate k '0') :
    c.isDigit = true := by
  rw [List.eq_of_mem_replicate h]
  rfl

section Layouts

variable {ds : List Char} (hds : ∀ c ∈ ds, c.isDigit = true)
include hds

/-- Zeros after the digits, up to the place of the point. -/
theorem readsAs_append_zeros (hne : ds ≠ []) (k : Nat) :
    ReadsAs (ds ++ List.replicate k '0') (digitsValue ds * 10 ^ (k : Int)) := by
  have hall : ∀ c ∈ ds ++ List.replicate k '0', c.isDigit = true :=
    fun c hc => (List.mem_append.mp hc).elim (hds c) isDigit_of_mem_replicate
  have hread := readsAs_digits hall (List.append_ne_nil_of_left_ne_nil hne _)
  rw [digitsValue_append_zeros, Nat.cast_mul, Nat.cast_pow, Nat.cast_ofNat] at hread
  rw [zpow_natCast]
  exact hread

/-- A point between two digits. -/
theorem readsAs_take_point_drop {k : Nat} (hk : k < ds.length) :
    ReadsAs (ds.take (ds.length - k) ++ '.' :: ds.drop (ds.length - k))
      (digitsValue ds * 10 ^ (-(k : Int))) := by
  have hwhole : ∀ c ∈ ds.take (ds.length - k), c.isDigit = true :=
    fun c hc => hds c (List.mem_of_mem_take hc)
  have hplaces : ∀ c ∈ ds.drop (ds.length - k), c.isDigit = true :=
    fun c hc => hds c (List.mem_of_mem_drop hc)
  have hne : ds.take (ds.length - k) ≠ [] := by
    rw [← List.length_pos_iff, List.length_take]
    omega
  have hread := readsAs_point hwhole hplaces hne
  rwa [List.take_append_drop, List.length_drop, Nat.sub_sub_self hk.le] at hread

/-- Zeros between the point and the digits. -/
theorem readsAs_point_zeros {k : Nat} (hk : ds.length ≤ k) :
    ReadsAs (['0'] ++ '.' :: (List.replicate (k - ds.length) '0' ++ ds))
      (digitsValue ds * 10 ^ (-(k : Int))) := by
  have hwhole : ∀ c ∈ ['0'], c.isDigit = true := fun c => isDigit_of_mem_replicate (k := 1)
  have hplaces : ∀ c ∈ List.replicate (k - ds.length) '0' ++ ds, c.isDigit = true :=
    fun c hc => (List.mem_append.mp hc).elim isDigit_of_mem_replicate (hds c)
  have hread := readsAs_point hwhole hplaces (List.cons_ne_nil _ _)
  have hzeros : ['0'] ++ (List.replicate (k - ds.length) '0' ++ ds)
      = List.replicate (k - ds.length + 1) '0' ++ ds := rfl
  rwa [hzeros, digitsValue_zeros_append, List.length_append, List.length_replicate,
    Nat.sub_add_cancel hk] at hread

end Layouts

/-- The positional text is read as the decimal that it shows. -/
theorem Shortest.readsAs_positional (d : Shortest) :
    ReadsAs d.positional.toList (d.digits * 10 ^ d.exponent) := by
  have hlist : (toString d.digits).toList = Nat.toDigits 10 d.digits := Nat.toList_repr
  have hlength : (toString d.digits).length = (Nat.toDigits 10 d.digits).length := by
    rw [← String.length_toList, hlist]
  have hds : ∀ c ∈ Nat.toDigits 10 d.digits, c.isDigit = true :=
    fun c => Nat.isDigit_of_mem_toDigits (by decide) (by decide)
  have hvalue := digitsValue_toDigits d.digits
  have hne : Nat.toDigits 10 d.digits ≠ [] := Nat.toDigits_ne_nil
  rw [positional, hlength]
  generalize Nat.toDigits 10 d.digits = ds at hlist hds hvalue hne ⊢
  split
  · next hnonneg =>
      obtain ⟨k, hk⟩ := Int.eq_ofNat_of_zero_le hnonneg
      rw [String.toList_append, hlist, toList_zeros, ← hvalue, hk, Int.toNat_natCast]
      exact readsAs_append_zeros hds hne k
  · next hneg =>
      obtain ⟨k, hk⟩ : ∃ k : Nat, d.exponent = -k := ⟨(-d.exponent).toNat, by omega⟩
      rw [hk, neg_neg, Int.toNat_natCast]
      split
      · next hlt =>
          rw [pointAfter, String.toList_append, String.toList_append, String.toList_ofList,
            String.toList_ofList, String.toList_ofList, hlist, List.append_assoc,
            ← hvalue]
          exact readsAs_take_point_drop hds hlt
      · next hge =>
          rw [String.toList_append, String.toList_append, toList_zeros, hlist, List.append_assoc,
            ← hvalue]
          exact readsAs_point_zeros hds (Nat.le_of_not_lt hge)

/-! ## The text of a number -/

/-- A text is read as its magnitude with its sign. -/
theorem read?_of_takeSign {s : String} {negative : Bool} {cs : List Char}
    (h : takeSign s.toList = (negative, cs)) :
    read? s = (Decimal.readMagnitude? cs).map fun x => if negative then -x else x := by
  rw [read?, h]

/-- Doubles with the same parts are the same. -/
theorem eq_of_unpack_eq {x y : Float} (h : x.toModel.unpack = y.toModel.unpack) : x = y := by
  rw [← ofModel_pack x, h, ofModel_pack]

theorem text_of_unpack {x : Float} {s : Sign} {m : Nat} {e : Int} {hm : 0 < m}
    (h : x.toModel.unpack = .finite s m e hm) :
    text x = signed x ((binary m e).shortest .up).positional := by
  have hNaN : x.isNaN = false := by
    show x.toModel.unpack.isNaN = false
    rw [h]
    rfl
  have hInf : x.isInf = false := by
    show x.toModel.unpack.isInf = false
    rw [h]
    rfl
  have hzero : (x == 0) = false := by
    show (x.toModel.unpack.compare (.zero .positive) == some .eq) = false
    rw [h]
    cases s <;> rfl
  rw [text, hNaN, hInf, hzero, Binary.ofBits_eq h]
  rfl

/-- A finite number other than zero. -/
theorem read?_text_of_unpack {x : Float} {s : Sign} {m : Nat} {e : Int} {hm : 0 < m}
    (h : x.toModel.unpack = .finite s m e hm) : read? (text x) = some x := by
  have hdouble := isDouble_of_unpack h
  have hread := ((binary m e).shortest .up).readsAs_positional
  obtain ⟨y, hy, hunpack⟩ := hread.readMagnitude? hdouble (shortest_holds hdouble .up)
  rw [text_of_unpack h, signed]
  cases s with
  | positive =>
      have hsign : isNegative x = false := by
        rw [← Bool.not_eq_true, isNegative_iff h]
        exact Sign.noConfusion
      rw [if_neg (Bool.eq_false_iff.mp hsign), read?_of_takeSign hread.takeSign, hy]
      exact congrArg some (eq_of_unpack_eq (hunpack.trans h.symm))
  | negative =>
      have hminus : takeSign ("-" ++ ((binary m e).shortest .up).positional).toList
          = (true, ((binary m e).shortest .up).positional.toList) := by
        rw [String.toList_append]
        rfl
      rw [if_pos ((isNegative_iff h).mpr rfl), read?_of_takeSign hminus, hy]
      exact congrArg some (eq_of_unpack_eq ((unpack_neg hunpack).trans h.symm))

/-- **ROUND TRIP.** Every number is read back from its text, bit for bit. -/
theorem read?_text (x : Float) : read? (text x) = some x := by
  cases hx : x.toModel.unpack with
  | notANumber =>
      obtain rfl : x = Float.ofBits 0x7FF8000000000000 := eq_of_unpack_eq hx
      rfl
  | infinity s =>
      cases s with
      | positive =>
          obtain rfl : x = Float.ofBits 0x7FF0000000000000 := eq_of_unpack_eq hx
          rfl
      | negative =>
          obtain rfl : x = Float.ofBits 0xFFF0000000000000 := eq_of_unpack_eq hx
          rfl
  | zero s =>
      cases s with
      | positive =>
          obtain rfl : x = Float.ofBits 0x0000000000000000 := eq_of_unpack_eq hx
          rfl
      | negative =>
          obtain rfl : x = Float.ofBits 0x8000000000000000 := eq_of_unpack_eq hx
          rfl
  | finite s m e hm => exact read?_text_of_unpack hx

end RiskDecision.Decimal
