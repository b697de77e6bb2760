import Mathlib.Data.List.Basic
import RiskDecision.Text.Blank
import RiskDecision.Text.Split

/-!
# Pieces and padding

What cutting and trimming give, said without cutting or trimming. A piece of a text is a text
without separators that stands between two of them, or between one and an end (`IsPiece`); the cut
gives the pieces and nothing else (`mem_split_iff`), and texts without separators come back from the
text that they are joined to (`split_join`). A text that neither begins nor ends with a blank comes
back from whatever blanks are put around it (`trim_of_padded`).
-/

namespace RiskDecision.Text

/-! ## Padding -/

/-- The text neither begins nor ends with a blank. -/
structure IsTrimmed (s : String) : Prop where
  front : ∀ c ∈ s.toList.head?, isBlank c = false
  back : ∀ c ∈ s.toList.getLast?, isBlank c = false

/-- A text with blanks put before and behind it. -/
inductive Padded (s : String) : String → Prop
  | around {left right : String} (before : isAllBlank left = true)
      (behind : isAllBlank right = true) : Padded s (left ++ s ++ right)

/-- Blanks in front are dropped up to a text that does not begin with one. -/
theorem dropWhile_isBlank_append {bs cs : List Char} (hblank : bs.all isBlank = true)
    (front : ∀ c ∈ cs.head?, isBlank c = false) : (bs ++ cs).dropWhile isBlank = cs := by
  rw [List.dropWhile_append_of_pos (List.all_eq_true.mp hblank)]
  exact dropWhile_eq_self_of_head isBlank cs front

/-- Blanks behind are dropped back to a text that does not end with one. -/
theorem dropTrailingBlanks_append {bs cs : List Char} (hblank : bs.all isBlank = true)
    (back : ∀ c ∈ cs.getLast?, isBlank c = false) : dropTrailingBlanks (cs ++ bs) = cs := by
  have hreverse : bs.reverse.all isBlank = true := by
    rw [List.all_reverse]
    exact hblank
  rw [dropTrailingBlanks, List.reverse_append, dropWhile_isBlank_append hreverse,
    List.reverse_reverse]
  rw [List.head?_reverse]
  exact back

/-- **PADDING** is what trimming takes away. -/
theorem trim_of_padded {s padded : String} (trimmed : IsTrimmed s) (h : Padded s padded) :
    trim padded = s := by
  obtain @⟨left, right, before, behind⟩ := h
  obtain ⟨front, back⟩ := trimmed
  rw [trim, String.toList_append, String.toList_append, List.append_assoc, trimChars]
  cases hs : s.toList with
  | nil =>
      -- nothing but blanks, which all go with the first ones
      have hall : (left.toList ++ right.toList).all isBlank = true := by
        rw [List.all_append]
        exact Bool.and_eq_true_iff.mpr ⟨before, behind⟩
      have hdrop : (left.toList ++ right.toList ++ []).dropWhile isBlank = [] :=
        dropWhile_isBlank_append hall (by simp)
      rw [List.append_nil] at hdrop
      rw [List.nil_append, hdrop]
      exact String.toList_inj.mp hs.symm
  | cons c cs =>
      rw [hs] at front back
      have hfront : ∀ d ∈ (c :: cs ++ right.toList).head?, isBlank d = false := front
      rw [dropWhile_isBlank_append before hfront, dropTrailingBlanks_append behind back, ← hs,
        String.ofList_toList]

/-! ## Pieces -/

/-- A text without separators that stands between separators of another text, or at its ends. -/
structure IsPiece (sep : Char) (piece s : String) : Prop where
  noSep : sep ∉ piece.toList
  joined : ∃ before after : List String,
    s = (String.singleton sep).intercalate (before ++ piece :: after)

/-- The pieces joined by the separator give the text back. -/
theorem intercalate_split (sep : Char) (s : String) :
    (String.singleton sep).intercalate (split sep s) = s := by
  rw [← String.toList_inj, String.toList_intercalate, split, List.map_map,
    String.toList_singleton]
  have hid : String.toList ∘ String.ofList = id := funext fun cs => String.toList_ofList
  rw [hid, List.map_id, intercalate_splitChars]

theorem notMem_of_mem_split {sep : Char} {piece s : String} (h : piece ∈ split sep s) :
    sep ∉ piece.toList := by
  obtain ⟨cs, hcs, rfl⟩ := List.mem_map.mp h
  rw [String.toList_ofList]
  exact not_mem_of_mem_splitChars hcs

/-- Texts without separators come back from the text that they are joined to. -/
theorem split_join {sep : Char} {pieces : List String} (hne : pieces ≠ [])
    (h : ∀ piece ∈ pieces, sep ∉ piece.toList) :
    split sep ((String.singleton sep).intercalate pieces) = pieces := by
  obtain ⟨first, rest, rfl⟩ := List.exists_cons_of_ne_nil hne
  rw [split_intercalate]
  calc (first :: rest).flatMap (split sep)
      = (first :: rest).flatMap fun piece => [piece] :=
        List.flatMap_congr fun piece hp => split_of_not_mem (h piece hp)
    _ = first :: rest := List.flatMap_singleton' _

/-- **PIECES** are what the cut gives. -/
theorem mem_split_iff {sep : Char} {piece s : String} :
    piece ∈ split sep s ↔ IsPiece sep piece s := by
  constructor
  · intro h
    obtain ⟨before, after, hsplit⟩ := List.append_of_mem h
    refine ⟨notMem_of_mem_split h, before, after, ?_⟩
    rw [← hsplit, intercalate_split]
  · rintro ⟨noSep, before, after, rfl⟩
    obtain ⟨first, rest, hcons⟩ := List.exists_cons_of_ne_nil
      (List.append_ne_nil_of_right_ne_nil before (List.cons_ne_nil piece after))
    rw [hcons, split_intercalate, ← hcons, List.mem_flatMap]
    refine ⟨piece, List.mem_append_right _ List.mem_cons_self, ?_⟩
    rw [split_of_not_mem noSep]
    exact List.mem_singleton_self piece

end RiskDecision.Text
