import RiskDecision.Json.Printer

/-!
# The text of a JSON value is one line

Control characters are escaped inside quotes and occur nowhere else, so the compact text of a value
has none: it can be ended by a newline and told from the next one.
-/

namespace RiskDecision

/-- The text has no control character. -/
def Plain (s : String) : Prop := ∀ c ∈ s.toList, 0x20 ≤ c.toNat

namespace Plain

variable {s t : String}

theorem newline_not_mem (h : Plain s) : '\n' ∉ s.toList := by
  intro hmem
  exact absurd (h '\n' hmem) (by decide)

theorem append (hs : Plain s) (ht : Plain t) : Plain (s ++ t) := by
  intro c hc
  rw [String.toList_append] at hc
  rcases List.mem_append.mp hc with hc | hc
  · exact hs c hc
  · exact ht c hc

theorem ofList {cs : List Char} (h : ∀ c ∈ cs, 0x20 ≤ c.toNat) : Plain (String.ofList cs) := by
  intro c hc
  rw [String.toList_ofList] at hc
  exact h c hc

end Plain

/-- What is known at compile time to be plain. -/
theorem plain_of_all {s : String} (h : (s.toList.all fun c => 0x20 ≤ c.toNat) = true) :
    Plain s := by
  intro c hc
  exact of_decide_eq_true (List.all_eq_true.mp h c hc)

/-! ## Numbers -/

theorem plain_toString_nat (n : Nat) : Plain (toString n) := by
  refine Plain.ofList ?_
  intro c hc
  have hdigit : c.isDigit = true := Nat.isDigit_of_mem_toDigits (by decide) (by decide) hc
  have hzero : ('0' : Char).toNat ≤ c.toNat := (Char.isDigit_iff_toNat.mp hdigit).1
  exact Nat.le_trans (by decide) hzero

theorem plain_toString_int (n : Int) : Plain (toString n) := by
  cases n with
  | ofNat n => exact plain_toString_nat n
  | negSucc n => exact (plain_of_all (by decide)).append (plain_toString_nat (n + 1))

namespace Decimal

theorem plain_zeros (n : Nat) : Plain (zeros n) := by
  refine Plain.ofList ?_
  intro c hc
  rw [List.eq_of_mem_replicate hc]
  decide

theorem plain_pointAfter {digits : String} (h : Plain digits) (n : Nat) :
    Plain (pointAfter digits n) := by
  refine ((Plain.ofList ?_).append (plain_of_all (by decide))).append (Plain.ofList ?_)
  · exact fun c hc => h c (List.mem_of_mem_take hc)
  · exact fun c hc => h c (List.mem_of_mem_drop hc)

theorem Shortest.plain_compact (d : Shortest) : Plain d.compact := by
  have hdigits : Plain (toString d.digits) := plain_toString_nat d.digits
  rw [compact]
  dsimp only
  split
  · exact (hdigits.append (plain_zeros _)).append (plain_of_all (by decide))
  · split
    · exact plain_pointAfter hdigits _
    · split
      · exact ((plain_of_all (by decide)).append (plain_zeros _)).append hdigits
      · refine (Plain.append ?_ ?_).append (plain_toString_int _)
        · split
          · exact hdigits
          · exact plain_pointAfter hdigits 1
        · split <;> exact plain_of_all (by decide)

theorem plain_signed (x : Float) {magnitude : String} (h : Plain magnitude) :
    Plain (signed x magnitude) := by
  rw [signed]
  split
  · exact (plain_of_all (by decide)).append h
  · exact h

theorem plain_compactText (x : Float) : Plain (compactText x) := by
  rw [compactText]
  split
  · exact plain_signed x (plain_of_all (by decide))
  · exact plain_signed x (Shortest.plain_compact _)

end Decimal

namespace Json

/-! ## Quoted texts -/

theorem plain_hexDigit {n : Nat} (h : n < 16) : 0x20 ≤ (hexDigit n).toNat := by
  have hall : ∀ n < 16, 0x20 ≤ (hexDigit n).toNat := by decide
  exact hall n h

/-- **ESCAPES**: a control character is not written as such. -/
theorem plain_escapeChar (c : Char) : ∀ e ∈ escapeChar c, 0x20 ≤ e.toNat := by
  have hshort : ∀ e : List Char, (e.all fun c => 0x20 ≤ c.toNat) = true →
      ∀ c ∈ e, 0x20 ≤ c.toNat :=
    fun e h c hc => of_decide_eq_true (List.all_eq_true.mp h c hc)
  rw [escapeChar]
  -- seven escapes of one letter come first
  iterate 7 (split; exact hshort _ (by decide))
  split
  · rename_i hcontrol
    -- then the escape by the code, in two hexadecimal digits
    have hhigh : c.toNat / 16 < 16 := by omega
    have hlow : c.toNat % 16 < 16 := Nat.mod_lt _ (by decide)
    intro e he
    simp only [List.mem_cons, List.not_mem_nil, or_false] at he
    rcases he with rfl | rfl | rfl | rfl | rfl | rfl
    · decide
    · decide
    · decide
    · decide
    · exact plain_hexDigit hhigh
    · exact plain_hexDigit hlow
  · rename_i hcontrol
    intro e he
    rw [List.mem_singleton.mp he]
    exact Nat.le_of_not_lt hcontrol

theorem plain_quote (s : String) : Plain (quote s) := by
  refine ((plain_of_all (by decide)).append (Plain.ofList ?_)).append (plain_of_all (by decide))
  intro c hc
  obtain ⟨c', -, hc'⟩ := List.mem_flatMap.mp hc
  exact plain_escapeChar c' c hc'

/-! ## Values -/

mutual

/-- **ONE LINE**: the text of a value has no control character. -/
theorem plain_toText : ∀ j : Json, Plain j.toText
  | .null => plain_of_all (by decide)
  | .bool true => plain_of_all (by decide)
  | .bool false => plain_of_all (by decide)
  | .int n => by
      rw [toText]
      exact plain_toString_int n
  | .float x => by
      rw [toText]
      split
      · exact Decimal.plain_compactText x
      · exact plain_of_all (by decide)
  | .text s => by
      rw [toText]
      exact plain_quote s
  | .array items => by
      rw [toText]
      exact ((plain_of_all (by decide)).append (plain_itemsText items)).append
        (plain_of_all (by decide))
  | .object members => by
      rw [toText]
      exact ((plain_of_all (by decide)).append (plain_membersText members)).append
        (plain_of_all (by decide))

theorem plain_itemsText : ∀ items : List Json, Plain (itemsText items)
  | [] => plain_of_all (by decide)
  | [item] => plain_toText item
  | item :: next :: rest =>
      ((plain_toText item).append (plain_of_all (by decide))).append
        (plain_itemsText (next :: rest))

theorem plain_membersText : ∀ members : List (String × Json), Plain (membersText members)
  | [] => plain_of_all (by decide)
  | [(key, value)] =>
      ((plain_quote key).append (plain_of_all (by decide))).append (plain_toText value)
  | (key, value) :: next :: rest =>
      ((((plain_quote key).append (plain_of_all (by decide))).append
        (plain_toText value)).append (plain_of_all (by decide))).append
        (plain_membersText (next :: rest))

end

end Json

end RiskDecision
