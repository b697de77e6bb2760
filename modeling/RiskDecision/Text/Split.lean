/-!
# Cutting texts

Paths are cut at points, literal lists at commas. A text without a separator is one piece, and the
empty text is one empty piece, so there is always at least one. The pieces joined by the separator
give the text back, and a text that is put together with a separator has the pieces of both parts.
-/

namespace RiskDecision.Text

/-- The pieces of a character list between the separators. -/
def splitChars (sep : Char) : List Char → List (List Char)
  | [] => [[]]
  | c :: cs =>
    if c = sep then [] :: splitChars sep cs
    else
      match splitChars sep cs with
      | [] => [[c]]
      | piece :: rest => (c :: piece) :: rest

/-- The pieces of a text between the separators. -/
def split (sep : Char) (s : String) : List String := (splitChars sep s.toList).map String.ofList

/-- The rest of a text that begins with `start`. -/
def after? (start s : String) : Option String :=
  if start.toList.isPrefixOf s.toList then some (String.ofList (s.toList.drop start.length))
  else none

theorem splitChars_ne_nil (sep : Char) (cs : List Char) : splitChars sep cs ≠ [] := by
  cases cs with
  | nil => simp [splitChars]
  | cons c cs =>
    simp only [splitChars]
    split
    · simp
    · split <;> simp

/-- The pieces joined by the separator are the text. -/
theorem intercalate_splitChars (sep : Char) (cs : List Char) :
    [sep].intercalate (splitChars sep cs) = cs := by
  induction cs with
  | nil => rfl
  | cons c cs ih =>
    simp only [splitChars]
    split
    · rename_i h
      cases hs : splitChars sep cs with
      | nil => exact absurd hs (splitChars_ne_nil sep cs)
      | cons piece rest => rw [hs] at ih; simp [← ih, h]
    · cases hs : splitChars sep cs with
      | nil => exact absurd hs (splitChars_ne_nil sep cs)
      | cons piece rest =>
        rw [hs] at ih
        cases rest <;> simp [← ih]

/-- No piece contains the separator. -/
theorem not_mem_of_mem_splitChars {sep : Char} {cs piece : List Char}
    (h : piece ∈ splitChars sep cs) : sep ∉ piece := by
  induction cs generalizing piece with
  | nil => simp_all [splitChars]
  | cons c cs ih =>
    simp only [splitChars] at h
    split at h
    · rcases List.mem_cons.1 h with rfl | h
      · simp
      · exact ih h
    · rename_i hc
      cases hs : splitChars sep cs with
      | nil => exact absurd hs (splitChars_ne_nil sep cs)
      | cons first rest =>
        rw [hs] at h ih
        rcases List.mem_cons.1 h with rfl | h
        · have := ih (List.mem_cons_self (a := first))
          simp only [List.mem_cons, not_or]
          exact ⟨fun e => hc e.symm, this⟩
        · exact ih (List.mem_cons_of_mem _ h)

/-- A separator cuts a text in two, whose pieces are the pieces of the text. -/
theorem splitChars_append (sep : Char) (cs cs' : List Char) :
    splitChars sep (cs ++ sep :: cs') = splitChars sep cs ++ splitChars sep cs' := by
  induction cs with
  | nil => simp only [List.nil_append, splitChars, if_true, List.cons_append]
  | cons c rest ih =>
      rw [List.cons_append, splitChars, splitChars]
      by_cases hc : c = sep
      · rw [if_pos hc, if_pos hc, ih]
        rfl
      · rw [if_neg hc, if_neg hc, ih]
        cases hs : splitChars sep rest with
        | nil => exact absurd hs (splitChars_ne_nil sep rest)
        | cons piece pieces => rfl

/-- A text without a separator is one piece. -/
theorem splitChars_of_not_mem {sep : Char} {cs : List Char} (h : sep ∉ cs) :
    splitChars sep cs = [cs] := by
  induction cs with
  | nil => rfl
  | cons c rest ih =>
      rw [List.mem_cons, not_or] at h
      rw [splitChars, if_neg (Ne.symm h.1), ih h.2]

theorem split_append (sep : Char) (s s' : String) :
    split sep (s ++ String.singleton sep ++ s') = split sep s ++ split sep s' := by
  rw [split, String.toList_append, String.toList_append, String.toList_singleton,
    List.append_assoc, List.singleton_append, splitChars_append, List.map_append]
  rfl

theorem split_of_not_mem {sep : Char} {s : String} (h : sep ∉ s.toList) : split sep s = [s] := by
  rw [split, splitChars_of_not_mem h, List.map_singleton, String.ofList_toList]

/-- Texts joined by the separator have the pieces of all of them. -/
theorem split_intercalate (sep : Char) (s : String) (rest : List String) :
    split sep ((String.singleton sep).intercalate (s :: rest)) = (s :: rest).flatMap (split sep) := by
  induction rest generalizing s with
  | nil => rw [String.intercalate_singleton, List.flatMap_singleton]
  | cons next rest ih =>
      rw [String.intercalate_cons_cons, split_append, ih]
      rfl

end RiskDecision.Text
