import Mathlib.Logic.Function.Defs
import RiskDecision.Evaluation.Condition

/-!
# The text of an address

A line of a trace begins with the text of an address and a colon. No two addresses have the same
text: the number of a child is written between brackets and in one way only
(`Address.text_injective`). There is no colon in it, so a line is about one address at most
(`Address.eq_of_heads`), and the line of a step is about the address of the step
(`Step.heads_line_iff`).
-/

namespace RiskDecision

namespace Address

/-- The characters of one step down. -/
def segment (number : Nat) : List Char :=
  ".clauses[".toList ++ ((toString number).toList ++ "]".toList)

/-- The line is about the address. -/
def heads (address : Address) (line : String) : Bool :=
  (address.text ++ ":").toList.isPrefixOf line.toList

theorem toList_text (address : Address) :
    address.text.toList = "root".toList ++ address.flatMap segment := by
  have hgrow : ∀ (numbers : List Nat) (s : String),
      (numbers.foldl (fun s i => s ++ ".clauses[" ++ toString i ++ "]") s).toList
        = s.toList ++ numbers.flatMap segment := by
    intro numbers
    induction numbers with
    | nil => intro s; rw [List.foldl_nil, List.flatMap_nil, List.append_nil]
    | cons i rest ih =>
        intro s
        rw [List.foldl_cons, ih, List.flatMap_cons]
        unfold segment
        simp only [String.toList_append, List.append_assoc]
  exact hgrow address "root"

theorem toList_toString (n : Nat) : (toString n).toList = Nat.toDigits 10 n := Nat.toList_repr

/-- The characters of a number are digits. -/
theorem isDigit_of_mem_toString {n : Nat} {ch : Char} (h : ch ∈ (toString n).toList) :
    ch.isDigit = true := by
  rw [toList_toString] at h
  exact Nat.isDigit_of_mem_toDigits (by decide) (by decide) h

/-- A number is told from its characters. -/
theorem eq_of_toString_eq {i j : Nat} (h : toString i = toString j) : i = j := by
  have hdigits : Nat.toDigits 10 i = Nat.toDigits 10 j := by
    rw [← toList_toString, ← toList_toString, h]
  rw [← @Nat.ofDigitChars_ten_toDigits i, hdigits, Nat.ofDigitChars_ten_toDigits]

/-- The first occurrence of a character divides a text in one way only. -/
theorem append_cons_inj {mark : Char} :
    ∀ {before before' behind behind' : List Char}, mark ∉ before → mark ∉ before' →
      before ++ mark :: behind = before' ++ mark :: behind' → before = before' ∧ behind = behind'
  | [], [], _, _, _, _, h => ⟨rfl, (List.cons.inj h).2⟩
  | [], x :: _, _, _, _, hb', h =>
      absurd ((List.cons.inj h).1 ▸ List.mem_cons_self) hb'
  | x :: _, [], _, _, hb, _, h =>
      absurd ((List.cons.inj h).1 ▸ List.mem_cons_self) hb
  | x :: before, y :: before', _, _, hb, hb', h => by
      obtain ⟨hxy, hrest⟩ := List.cons.inj h
      obtain ⟨hbefore, hbehind⟩ := append_cons_inj (fun hm => hb (List.mem_cons_of_mem x hm))
        (fun hm => hb' (List.mem_cons_of_mem y hm)) hrest
      exact ⟨by rw [hxy, hbefore], hbehind⟩

/-- The bracket ends the number, so a step down is told from what comes after it. -/
theorem segment_append_inj {i j : Nat} {rest rest' : List Char}
    (h : segment i ++ rest = segment j ++ rest') : i = j ∧ rest = rest' := by
  have hbracket : ∀ n : Nat, ']' ∉ (toString n).toList := by
    intro n hmem
    exact absurd (isDigit_of_mem_toString hmem) (by decide)
  unfold segment at h
  simp only [List.append_assoc, List.append_cancel_left_eq] at h
  -- the number has no bracket in it, so it ends at the first one on both sides
  obtain ⟨hnumber, hrest⟩ := append_cons_inj (hbracket i) (hbracket j) h
  exact ⟨eq_of_toString_eq (String.toList_inj.mp hnumber), hrest⟩

theorem segment_append_ne_nil (number : Nat) (rest : List Char) : segment number ++ rest ≠ [] := by
  unfold segment
  intro h
  rw [List.append_assoc] at h
  exact absurd (List.append_eq_nil_iff.mp h).1 (by decide)

theorem flatMap_segment_injective :
    ∀ a b : Address, a.flatMap segment = b.flatMap segment → a = b
  | [], [], _ => rfl
  | [], j :: b, h => absurd h.symm (segment_append_ne_nil j _)
  | i :: a, [], h => absurd h (segment_append_ne_nil i _)
  | i :: a, j :: b, h => by
      obtain ⟨rfl, hrest⟩ := segment_append_inj h
      rw [flatMap_segment_injective a b hrest]

/-- **ONE TEXT, ONE ADDRESS.** -/
theorem text_injective : Function.Injective text := by
  intro a b h
  have hchars := congrArg String.toList h
  rw [toList_text, toList_text, List.append_cancel_left_eq] at hchars
  exact flatMap_segment_injective a b hchars

theorem colon_not_mem_text (address : Address) : ':' ∉ address.text.toList := by
  rw [toList_text]
  intro h
  rcases List.mem_append.mp h with hroot | hsegments
  · exact absurd hroot (by decide)
  · obtain ⟨i, -, hi⟩ := List.mem_flatMap.mp hsegments
    rcases List.mem_append.mp hi with hclauses | hi
    · exact absurd hclauses (by decide)
    · rcases List.mem_append.mp hi with hnumber | hbracket
      · exact absurd (isDigit_of_mem_toString hnumber) (by decide)
      · exact absurd hbracket (by decide)

theorem heads_iff {address : Address} {line : String} :
    address.heads line = true ↔ ∃ rest, line.toList = address.text.toList ++ ':' :: rest := by
  have hcolon : ":".toList = [':'] := rfl
  rw [heads, List.isPrefixOf_iff_prefix, String.toList_append, hcolon]
  constructor
  · rintro ⟨rest, hrest⟩
    exact ⟨rest, by rw [← hrest, List.append_assoc, List.singleton_append]⟩
  · rintro ⟨rest, hrest⟩
    exact ⟨rest, by rw [hrest, List.append_assoc, List.singleton_append]⟩

/-- **ONE LINE, ONE ADDRESS**: which address a line is about is settled by its first colon. -/
theorem eq_of_heads {a b : Address} {line : String} (ha : a.heads line = true)
    (hb : b.heads line = true) : a = b := by
  obtain ⟨rest, hrest⟩ := heads_iff.mp ha
  obtain ⟨rest', hrest'⟩ := heads_iff.mp hb
  have htext := append_cons_inj a.colon_not_mem_text b.colon_not_mem_text
    (hrest.symm.trans hrest')
  exact text_injective (String.toList_inj.mp htext.1)

/-- What begins with an address and a colon is about the address. -/
theorem heads_append (address : Address) {rest : String} (h : rest.toList.head? = some ':') :
    address.heads (address.text ++ rest) = true := by
  obtain ⟨tail, htail⟩ := List.head?_eq_some_iff.mp h
  rw [heads_iff, String.toList_append, htail]
  exact ⟨tail, rfl⟩

end Address

/-! ## Lines of steps -/

/-- The address that a step is about. -/
def Step.address? : Step → Option Address
  | .unconditional => none
  | .emptyGroup address => some address
  | .opened address _ _ => some address
  | .clause address _ _ _ => some address
  | .closed address _ _ => some address

/-- **LINES**: the line of a step is about the address of the step and no other. -/
theorem Step.heads_line_iff {step : Step} {address : Address} (h : step.address? = some address)
    (a : Address) : a.heads step.line = true ↔ a = address := by
  -- what a line writes behind its address begins with a colon, whatever follows that
  have hcolon : ∀ start rest : String, start.toList.head? = some ':' →
      (start ++ rest).toList.head? = some ':' := by
    intro start rest hstart
    obtain ⟨tail, htail⟩ := List.head?_eq_some_iff.mp hstart
    rw [String.toList_append, htail]
    rfl
  have hline : address.heads step.line = true := by
    cases step with
    | unconditional => exact nomatch h
    | emptyGroup b =>
        cases h
        exact Address.heads_append address rfl
    | opened b k size =>
        cases h
        simp only [line, String.append_assoc]
        exact Address.heads_append address (hcolon _ _ rfl)
    | clause b clause lookup outcome =>
        cases h
        simp only [line, String.append_assoc]
        exact Address.heads_append address (hcolon _ _ rfl)
    | closed b k decider =>
        cases h
        cases k <;> cases decider <;> simp only [line, String.append_assoc]
        · exact Address.heads_append address rfl
        · exact Address.heads_append address (hcolon _ _ rfl)
        · exact Address.heads_append address rfl
        · exact Address.heads_append address (hcolon _ _ rfl)
  exact ⟨fun ha => Address.eq_of_heads ha hline, fun heq => heq ▸ hline⟩

end RiskDecision
