/-!
# Blank characters and trimming

Names, numbers and operators are read after the blanks around them are removed. A blank is a
character of the Unicode property `White_Space`, so a no-break space or an ideographic space counts
as well. The lemmas say that trimming leaves nothing to trim, which is what makes a trimmed name a
fixed point of every later trimming.
-/

namespace RiskDecision.Text

/-- The characters of the Unicode property `White_Space`. -/
def isBlank (c : Char) : Bool :=
  let n := c.toNat
  (0x9 ≤ n && n ≤ 0xD) || n == 0x20 || n == 0x85 || n == 0xA0 || n == 0x1680 ||
    (0x2000 ≤ n && n ≤ 0x200A) || n == 0x2028 || n == 0x2029 || n == 0x202F || n == 0x205F ||
    n == 0x3000

/-- Drops the blanks at the end of a character list. -/
def dropTrailingBlanks (cs : List Char) : List Char :=
  (cs.reverse.dropWhile isBlank).reverse

/-- Drops the blanks at both ends of a character list. -/
def trimChars (cs : List Char) : List Char :=
  dropTrailingBlanks (cs.dropWhile isBlank)

/-- The text without the blanks at its two ends. -/
def trim (s : String) : String := String.ofList (trimChars s.toList)

/-- A text that consists of blanks only, the empty one included. -/
def isAllBlank (s : String) : Bool := s.toList.all isBlank

theorem dropWhile_eq_self_of_head (p : Char → Bool) :
    ∀ cs : List Char, (∀ c ∈ cs.head?, p c = false) → cs.dropWhile p = cs
  | [], _ => rfl
  | c :: cs, h => by simp [List.dropWhile, h c (by simp)]

theorem head?_dropWhile_not (p : Char → Bool) :
    ∀ cs : List Char, ∀ c ∈ (cs.dropWhile p).head?, p c = false
  | [], c, h => by simp at h
  | d :: cs, c, h => by
    cases hd : p d with
    | true => exact head?_dropWhile_not p cs c (by simpa [List.dropWhile, hd] using h)
    | false =>
      simp only [List.dropWhile, hd, List.head?_cons, Option.mem_def, Option.some.injEq] at h
      exact h ▸ hd

theorem dropWhile_dropWhile (p : Char → Bool) (cs : List Char) :
    (cs.dropWhile p).dropWhile p = cs.dropWhile p :=
  dropWhile_eq_self_of_head p _ (head?_dropWhile_not p cs)

theorem dropTrailingBlanks_idem (cs : List Char) :
    dropTrailingBlanks (dropTrailingBlanks cs) = dropTrailingBlanks cs := by
  simp [dropTrailingBlanks, dropWhile_dropWhile]

/-- What remains after trailing blanks are dropped starts as the whole did. -/
theorem exists_append_dropTrailingBlanks (cs : List Char) :
    ∃ bs, cs = dropTrailingBlanks cs ++ bs := by
  refine ⟨(cs.reverse.takeWhile isBlank).reverse, ?_⟩
  unfold dropTrailingBlanks
  rw [← List.reverse_append, List.takeWhile_append_dropWhile, List.reverse_reverse]

theorem head_dropTrailingBlanks (cs : List Char) (h : ∀ c ∈ cs.head?, isBlank c = false) :
    ∀ c ∈ (dropTrailingBlanks cs).head?, isBlank c = false := by
  intro c hc
  obtain ⟨bs, hbs⟩ := exists_append_dropTrailingBlanks cs
  apply h c
  cases hd : dropTrailingBlanks cs with
  | nil => simp [hd] at hc
  | cons d ds =>
    rw [hd] at hc hbs
    rw [hbs]
    simpa using hc

theorem trimChars_idem (cs : List Char) : trimChars (trimChars cs) = trimChars cs := by
  have h := head_dropTrailingBlanks _ (head?_dropWhile_not isBlank cs)
  unfold trimChars
  rw [dropWhile_eq_self_of_head isBlank _ h, dropTrailingBlanks_idem]

@[simp] theorem trim_trim (s : String) : trim (trim s) = trim s := by
  simp [trim, trimChars_idem]

end RiskDecision.Text
