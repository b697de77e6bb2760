import RiskDecision.Text.Blank

/-!
# ASCII letter case

Operator names, domain names and aliases are compared without regard to the case of the letters
`A` to `Z`; every other letter keeps its case. The lemmas lead to `normalize_normalize`: a name that
was trimmed and lowered once is in its final form.
-/

namespace RiskDecision.Text

/-- The text with the letters `A` to `Z` in lower case. -/
def lower (s : String) : String := String.ofList (s.toList.map Char.toLower)

/-- The text with the letters `a` to `z` in upper case. -/
def upper (s : String) : String := String.ofList (s.toList.map Char.toUpper)

/-- Two texts that differ at most in the case of ASCII letters. -/
def sameIgnoringCase (s t : String) : Bool := lower s == lower t

/-- The form in which names are stored and looked up: trimmed, in lower case. -/
def normalize (s : String) : String := lower (trim s)

theorem isUpper_toLower (c : Char) : c.toLower.isUpper = false := by
  refine decide_eq_false ?_
  delta Char.toLower
  split
  · rename_i h
    intro h'
    simp only [UInt32.le_iff_toNat_le, UInt32.toNat_add] at h h'
    have : ('A' : Char).val.toNat = 65 := rfl
    have : ('Z' : Char).val.toNat = 90 := rfl
    have : ('a'.val - 'A'.val).toNat = 32 := rfl
    omega
  · assumption

theorem toLower_toLower (c : Char) : c.toLower.toLower = c.toLower :=
  dif_neg (of_decide_eq_false (isUpper_toLower c))

theorem isBlank_eq_false {c : Char} (low : 65 ≤ c.toNat) (high : c.toNat ≤ 122) :
    isBlank c = false := by
  simp [isBlank]
  omega

theorem isBlank_toLower (c : Char) : isBlank c.toLower = isBlank c := by
  delta Char.toLower
  split
  · rename_i h
    simp only [UInt32.le_iff_toNat_le] at h
    have hA : ('A' : Char).val.toNat = 65 := rfl
    have hZ : ('Z' : Char).val.toNat = 90 := rfl
    have hd : ('a'.val - 'A'.val).toNat = 32 := rfl
    have hc : c.toNat = c.val.toNat := rfl
    have e : (c.val + ('a'.val - 'A'.val)).toNat = c.val.toNat + 32 := by
      rw [UInt32.toNat_add, hd]; omega
    rw [isBlank_eq_false (c := c) (by omega) (by omega)]
    exact isBlank_eq_false (by simp only [Char.toNat]; omega) (by simp only [Char.toNat]; omega)
  · rfl

theorem map_toLower_dropWhile (cs : List Char) :
    (cs.map Char.toLower).dropWhile isBlank = (cs.dropWhile isBlank).map Char.toLower := by
  induction cs with
  | nil => rfl
  | cons c cs ih =>
    cases h : isBlank c <;> simp [List.dropWhile, isBlank_toLower, h, ih]

theorem trimChars_map_toLower (cs : List Char) :
    trimChars (cs.map Char.toLower) = (trimChars cs).map Char.toLower := by
  simp [trimChars, dropTrailingBlanks, map_toLower_dropWhile, ← List.map_reverse]

@[simp] theorem lower_lower (s : String) : lower (lower s) = lower s := by
  have twice : Char.toLower ∘ Char.toLower = Char.toLower := funext toLower_toLower
  rw [lower, lower, String.toList_ofList, List.map_map, twice]

theorem trim_lower (s : String) : trim (lower s) = lower (trim s) := by
  simp [trim, lower, trimChars_map_toLower]

@[simp] theorem normalize_normalize (s : String) : normalize (normalize s) = normalize s := by
  simp [normalize, trim_lower]

end RiskDecision.Text
