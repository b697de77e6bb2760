import Mathlib
import RiskDecision.Decimal.Reader
import RiskDecision.Text.Blank

/-!
# What number texts are made of

A text that is read as a number consists of letters, digits, signs and points
(`isNumberChar_of_read?`). So it holds no blank, and trimming leaves it as it is; and a text that is
read as a number once it is trimmed holds no comma, so that it stays in one piece where a list of
texts is cut at the commas.
-/

namespace RiskDecision.Decimal

/-! ## Characters -/

/-- The characters that number texts are made of. -/
def isNumberChar (c : Char) : Bool := c.isAlphanum || c == '+' || c == '-' || c == '.'

theorem isNumberChar_of_isDigit {c : Char} (h : c.isDigit = true) : isNumberChar c = true := by
  rw [isNumberChar, Char.isAlphanum, h, Bool.or_true, Bool.true_or, Bool.true_or, Bool.true_or]

theorem isNumberChar_of_isAlpha {c : Char} (h : c.isAlpha = true) : isNumberChar c = true := by
  rw [isNumberChar, Char.isAlphanum, h, Bool.true_or, Bool.true_or, Bool.true_or, Bool.true_or]

/-- They are neither blanks nor commas. -/
theorem isBlank_of_isNumberChar {c : Char} (h : isNumberChar c = true) :
    Text.isBlank c = false ∧ c ≠ ',' := by
  have hrange : 43 ≤ c.toNat ∧ c.toNat ≤ 122 ∧ c.toNat ≠ 44 := by
    simp only [isNumberChar, Char.isAlphanum, Char.isAlpha, Char.isUpper, Char.isLower,
      Char.isDigit, Bool.or_eq_true, Bool.and_eq_true, decide_eq_true_eq, beq_iff_eq,
      ge_iff_le, UInt32.le_iff_toNat_le, Char.toNat_val, Char.reduceToNat] at h
    rcases h with ((h | rfl) | rfl) | rfl
    · omega
    all_goals decide
  refine ⟨?_, ?_⟩
  · simp only [Text.isBlank, Bool.or_eq_false_iff, Bool.and_eq_false_iff, decide_eq_false_iff_not,
      beq_eq_false_iff_ne]
    omega
  · rintro rfl
    exact hrange.2.2 rfl

theorem isNumberChar_of_takeSign {cs : List Char}
    (h : ∀ c ∈ (takeSign cs).2, isNumberChar c = true) : ∀ c ∈ cs, isNumberChar c = true := by
  rw [takeSign.eq_def] at h
  split at h
  · exact List.forall_mem_cons.mpr ⟨rfl, h⟩
  · exact List.forall_mem_cons.mpr ⟨rfl, h⟩
  · exact h

theorem isNumberChar_of_readExponent? {cs : List Char} {e : Int} (h : readExponent? cs = some e) :
    ∀ c ∈ cs, isNumberChar c = true := by
  cases cs with
  | nil => exact fun c hc => nomatch hc
  | cons c cs =>
      rw [readExponent?] at h
      split at h
      · next hletter =>
          have halpha : c.isAlpha = true := by
            rw [← Char.isAlpha_toLower_eq_isAlpha, hletter]
            rfl
          refine List.forall_mem_cons.mpr ⟨isNumberChar_of_isAlpha halpha, ?_⟩
          refine isNumberChar_of_takeSign fun d hd => ?_
          dsimp only at h
          split at h
          · exact nomatch h
          · next hdigits =>
              rw [Bool.or_eq_true, not_or, Bool.not_eq_true', Bool.not_eq_false] at hdigits
              exact isNumberChar_of_isDigit (List.all_eq_true.mp hdigits.2 d hd)
      · exact nomatch h

theorem isNumberChar_of_takeWhile {cs : List Char}
    (h : ∀ c ∈ cs.dropWhile Char.isDigit, isNumberChar c = true) :
    ∀ c ∈ cs, isNumberChar c = true := by
  intro c hc
  rw [← List.takeWhile_append_dropWhile (p := Char.isDigit) (l := cs)] at hc
  rcases List.mem_append.mp hc with hc | hc
  · exact isNumberChar_of_isDigit (List.mem_takeWhile_imp hc)
  · exact h c hc

theorem isNumberChar_of_readDecimal? {cs : List Char} {w : Written}
    (h : readDecimal? cs = some w) : ∀ c ∈ cs, isNumberChar c = true := by
  rw [readDecimal?] at h
  refine isNumberChar_of_takeWhile ?_
  generalize cs.dropWhile Char.isDigit = rest at h ⊢
  split at h
  next fraction tail hrest =>
    split at h
    · exact nomatch h
    · obtain ⟨e, he, -⟩ := Option.map_eq_some_iff.mp h
      have htail := isNumberChar_of_readExponent? he
      split at hrest
      · cases hrest
        exact List.forall_mem_cons.mpr ⟨rfl, isNumberChar_of_takeWhile htail⟩
      · cases hrest
        exact htail

theorem isNumberChar_of_word {cs : List Char} {word : String}
    (h : String.ofList (cs.map Char.toLower) = word) (hword : word.toList.all Char.isAlpha = true) :
    ∀ c ∈ cs, isNumberChar c = true := by
  intro c hc
  refine isNumberChar_of_isAlpha ?_
  rw [← Char.isAlpha_toLower_eq_isAlpha]
  refine List.all_eq_true.mp hword _ ?_
  rw [← h, String.toList_ofList]
  exact List.mem_map_of_mem hc

theorem isNumberChar_of_readMagnitude? {cs : List Char} {x : Float}
    (h : readMagnitude? cs = some x) : ∀ c ∈ cs, isNumberChar c = true := by
  rw [readMagnitude?] at h
  split at h
  · next hword =>
      rcases (Bool.or_eq_true _ _).mp hword with hword | hword
      · exact isNumberChar_of_word (beq_iff_eq.mp hword) rfl
      · exact isNumberChar_of_word (beq_iff_eq.mp hword) rfl
  · split at h
    · next hword => exact isNumberChar_of_word (beq_iff_eq.mp hword) rfl
    · obtain ⟨w, hw, -⟩ := Option.map_eq_some_iff.mp h
      exact isNumberChar_of_readDecimal? hw

/-- **CHARACTERS.** A number text is made of these characters only. -/
theorem isNumberChar_of_read? {s : String} {x : Float} (h : read? s = some x) :
    ∀ c ∈ s.toList, isNumberChar c = true := by
  rw [read?] at h
  obtain ⟨y, hy, -⟩ := Option.map_eq_some_iff.mp h
  exact isNumberChar_of_takeSign (isNumberChar_of_readMagnitude? hy)

/-! ## Blanks and commas -/

theorem mem_dropWhile {p : Char → Bool} {c : Char} {cs : List Char} (hc : c ∈ cs)
    (hp : p c = false) : c ∈ cs.dropWhile p := by
  rw [← List.takeWhile_append_dropWhile (p := p) (l := cs)] at hc
  rcases List.mem_append.mp hc with hc | hc
  · exact absurd (List.mem_takeWhile_imp hc) (Bool.eq_false_iff.mp hp)
  · exact hc

/-- Only blanks are lost by trimming. -/
theorem mem_trim {c : Char} {s : String} (hc : c ∈ s.toList) (hblank : Text.isBlank c = false) :
    c ∈ (Text.trim s).toList := by
  rw [Text.trim, String.toList_ofList, Text.trimChars, Text.dropTrailingBlanks, List.mem_reverse]
  exact mem_dropWhile (List.mem_reverse.mpr (mem_dropWhile hc hblank)) hblank

/-- A number text holds no blanks that could be trimmed. -/
theorem trim_of_read? {s : String} {x : Float} (h : read? s = some x) : Text.trim s = s := by
  have hnone : ∀ c ∈ s.toList, Text.isBlank c = false :=
    fun c hc => (isBlank_of_isNumberChar (isNumberChar_of_read? h c hc)).1
  rw [Text.trim, Text.trimChars, Text.dropTrailingBlanks,
    Text.dropWhile_eq_self_of_head _ _ fun c hc => hnone c (List.mem_of_mem_head? hc),
    Text.dropWhile_eq_self_of_head _ _ fun c hc =>
      hnone c (List.mem_reverse.mp (List.mem_of_mem_head? hc)),
    List.reverse_reverse, String.ofList_toList]

/-- A text that trims to a number text holds no comma. -/
theorem comma_notMem_of_read? {s : String} {x : Float} (h : read? (Text.trim s) = some x) :
    ',' ∉ s.toList := by
  intro hc
  exact (isBlank_of_isNumberChar (isNumberChar_of_read? h ',' (mem_trim hc rfl))).2 rfl

end RiskDecision.Decimal
