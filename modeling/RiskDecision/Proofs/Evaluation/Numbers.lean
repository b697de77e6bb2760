import RiskDecision.Evaluation.Condition
import RiskDecision.Proofs.Value.NumberText

/-!
# Clauses about numbers

Two kinds of operators look at numbers. The order and the ranges compare doubles, equality and
membership compare texts. Both describe one order all the same (`test_numbers`): a number is greater
than another one, less than it or equal to it, and a range asks for numbers from one bound to the
other, around the whole order if the bounds are exchanged. Only a range between equal bounds does
not depend on how they are placed: it holds its bound and nothing else, and does not wrap around.

A text stands for the number that it denotes, whichever way it comes into a clause
(`test_spellings`): as the literal of an equality, as one of several texts between commas or as an
item of a list.
-/

namespace RiskDecision.Clause

/-! ## Order and equality -/

/-- The answer of a comparison of two numbers. -/
def compares (operator : Operator) (x y : Float) : Bool :=
  verdictOf (test operator (.number x) (.number y))

/-- At least the other number, in terms of the operators of clauses. -/
def atLeast (x y : Float) : Bool := compares .greaterThan x y || compares .equals x y

/-- At most the other number, in terms of the operators of clauses. -/
def atMost (x y : Float) : Bool := compares .lessThan x y || compares .equals x y

/-- Equality goes by way of the text of the literal and comes out as that of doubles. -/
theorem test_equals_numbers {y : Float} (hy : y.isNaN = false) (x : Float) :
    test .equals (.number x) (.number y) = .ok (y == x) := by
  have htest : test .equals (.number x) (.number y)
      = .ok ((Value.number x).matchesText (Value.numberText y)) := rfl
  rw [htest, Value.matchesText_numberText hy]

/-- The operators report in which order two numbers stand. -/
theorem exists_tests {x y : Float} (hx : x.isNaN = false) (hy : y.isNaN = false) :
    ∃ o : Ordering, test .greaterThan (.number x) (.number y) = .ok (o == .gt) ∧
      test .lessThan (.number x) (.number y) = .ok (o == .lt) ∧
      test .equals (.number x) (.number y) = .ok (o == .eq) ∧
      decide (y ≤ x) = o.isGE ∧ decide (x ≤ y) = o.isLE := by
  obtain ⟨o, hgt, hlt, heq, hge, hle⟩ := Decimal.exists_ordering hx hy
  refine ⟨o, congrArg Except.ok hgt, congrArg Except.ok hlt, ?_, hge, hle⟩
  rw [test_equals_numbers hy, Decimal.beq_comm, heq]

theorem atLeast_eq {x y : Float} (hx : x.isNaN = false) (hy : y.isNaN = false) :
    atLeast x y = decide (y ≤ x) := by
  obtain ⟨o, hgt, -, heq, hge, -⟩ := exists_tests hx hy
  rw [atLeast, compares, compares, hgt, heq, hge]
  cases o <;> rfl

theorem atMost_eq {x y : Float} (hx : x.isNaN = false) (hy : y.isNaN = false) :
    atMost x y = decide (x ≤ y) := by
  obtain ⟨o, -, hlt, heq, -, hle⟩ := exists_tests hx hy
  rw [atMost, compares, compares, hlt, heq, hle]
  cases o <;> rfl

/-- Bounds are exchanged where the first is the greater one. -/
theorem compares_greaterThan_eq {x y : Float} (hx : x.isNaN = false) (hy : y.isNaN = false) :
    compares .greaterThan x y = !decide (x ≤ y) := by
  obtain ⟨o, hgt, -, -, -, hle⟩ := exists_tests hx hy
  rw [compares, hgt, hle]
  cases o <;> rfl

/-! ## Ranges -/

theorem test_between_numbers (x low high : Float) :
    test .between (.number x) (.list [.number low, .number high]) = .ok (liesBetween x low high) :=
  rfl

theorem liesBetween_eq_cond (x low high : Float) : liesBetween x low high
    = bif decide (low ≤ high) then decide (low ≤ x) && decide (x ≤ high)
      else decide (low ≤ x) || decide (x ≤ high) := by
  rw [liesBetween]
  by_cases h : low ≤ high
  · rw [if_pos h, decide_eq_true h]
    rfl
  · rw [if_neg h, decide_eq_false h]
    rfl

section Range

variable {v low high : Float} (hv : v.isNaN = false) (hlow : low.isNaN = false)
  (hhigh : high.isNaN = false)

include hv hlow hhigh in
/-- A range in terms of the other operators. -/
theorem liesBetween_eq_compares : liesBetween v low high
    = bif compares .greaterThan low high then atLeast v low || atMost v high
      else atLeast v low && atMost v high := by
  rw [compares_greaterThan_eq hlow hhigh, atLeast_eq hv hlow, atMost_eq hv hhigh,
    liesBetween_eq_cond, Bool.cond_not]

include hv hlow hhigh in
/-- Every number lies in a range or in the one with the bounds exchanged, if the bounds differ. -/
theorem liesBetween_or_exchanged (hne : compares .equals low high = false) :
    liesBetween v low high = true ∨ liesBetween v high low = true := by
  obtain ⟨o, -, -, heq, hge, hle⟩ := exists_tests hlow hhigh
  obtain ⟨o₁, -, -, -, hge₁, hle₁⟩ := exists_tests hv hlow
  obtain ⟨o₂, -, -, -, hge₂, hle₂⟩ := exists_tests hv hhigh
  rw [compares, heq] at hne
  rw [liesBetween_eq_cond, liesBetween_eq_cond, hge, hle, hge₁, hle₁, hge₂, hle₂]
  cases o with
  | eq => exact nomatch hne
  | lt => cases o₁ <;> cases o₂ <;> decide
  | gt => cases o₁ <;> cases o₂ <;> decide

include hv hlow in
/-- A range between equal bounds holds its bound only. -/
theorem liesBetween_of_beq (heq : (low == high) = true) :
    liesBetween v low high = (low == v) ∧ liesBetween v high low = (low == v) := by
  obtain ⟨o, -, -, hbeq, hge, hle⟩ := Decimal.exists_ordering hv hlow
  obtain ⟨-, hbelow, habove⟩ := Decimal.congr_of_beq heq v
  obtain ⟨-, hlowhigh, hhighlow⟩ := Decimal.congr_of_beq heq low
  rw [liesBetween_eq_cond, liesBetween_eq_cond, ← hlowhigh, ← hhighlow, ← hbelow, ← habove,
    decide_eq_true (Decimal.le_self hlow), hge, hle, Decimal.beq_comm, hbeq]
  cases o <;> decide

end Range

/-! ## One order -/

/-- Every value equals itself, NaN and lists included. -/
theorem holdsEqual_self (v : Value) : holdsEqual v v = true := by
  rw [holdsEqual.eq_def]
  cases v with
  | bool b => cases b <;> rfl
  | _ => exact (Bool.or_eq_true _ _).mpr (Or.inr (beq_self_eq_true _))

/-- Of a value that is not null equality and its opposite always have an answer. -/
theorem test_equals_of_not_null {a : Value} (ha : a.isNull = false) (literal : Value) :
    test .equals a literal = .ok (holdsEqual a literal) ∧
      test .notEquals a literal = .ok (!holdsEqual a literal) := by
  constructor <;>
    · rw [test.eq_def]
      simp only [ha, Bool.false_eq_true, if_false]

/-- **ONE ORDER.** Two numbers stand in exactly one of three orders, whichever operator asks. A range
asks for numbers from one bound to the other, around the whole order if the first bound is the
greater one; so every number lies between two different bounds or between the same bounds exchanged,
and between equal bounds lies what equals them. Equality holds of every value and itself, and
inequality is its opposite. -/
theorem test_numbers {v low high : Float} (hv : v.isNaN = false) (hlow : low.isNaN = false)
    (hhigh : high.isNaN = false) :
    (∃ o : Ordering, test .greaterThan (.number v) (.number low) = .ok (o == .gt) ∧
      test .lessThan (.number v) (.number low) = .ok (o == .lt) ∧
      test .equals (.number v) (.number low) = .ok (o == .eq)) ∧
    test .between (.number v) (.list [.number low, .number high])
      = .ok (bif compares .greaterThan low high then atLeast v low || atMost v high
        else atLeast v low && atMost v high) ∧
    (compares .equals low high = false →
      test .between (.number v) (.list [.number low, .number high]) = .ok true ∨
        test .between (.number v) (.list [.number high, .number low]) = .ok true) ∧
    (compares .equals low high = true →
      test .between (.number v) (.list [.number low, .number high])
          = test .equals (.number v) (.number low) ∧
        test .between (.number v) (.list [.number high, .number low])
          = test .equals (.number v) (.number low)) ∧
    (∀ a : Value, a.isNull = false → test .equals a a = .ok true) ∧
    ∀ a literal : Value, a.isNull = false →
      ∃ b, test .equals a literal = .ok b ∧ test .notEquals a literal = .ok (!b) := by
  obtain ⟨o, hgt, hlt, heq, -, -⟩ := exists_tests hv hlow
  refine ⟨⟨o, hgt, hlt, heq⟩, ?_, ?_, ?_, ?_, ?_⟩
  · rw [test_between_numbers, liesBetween_eq_compares hv hlow hhigh]
  · intro hne
    rw [test_between_numbers, test_between_numbers]
    exact (liesBetween_or_exchanged hv hlow hhigh hne).imp (congrArg _) (congrArg _)
  · intro hbounds
    rw [compares, test_equals_numbers hhigh] at hbounds
    obtain ⟨hbetween, hexchanged⟩ := liesBetween_of_beq hv hlow (Decimal.beq_symm hbounds)
    rw [test_between_numbers, test_between_numbers, test_equals_numbers hlow, hbetween, hexchanged]
    exact ⟨rfl, rfl⟩
  · intro a ha
    rw [(test_equals_of_not_null ha a).1, holdsEqual_self]
  · intro a literal ha
    exact ⟨holdsEqual a literal, test_equals_of_not_null ha literal⟩

/-- The hour 23 in the range from 22 to 5, the range between the two zeros, and a list with NaN. -/
theorem test_numbers_night :
    let nan : Float := Float.ofBits 0x7FF8000000000000
    ((23 : Float).isNaN = false ∧ (22 : Float).isNaN = false ∧ (5 : Float).isNaN = false ∧
      test .between (.number 23) (.list [.number 22, .number 5]) = .ok true) ∧
    (compares .equals 22 5 = false ∧
      (test .between (.number 23) (.list [.number 22, .number 5]) = .ok true ∨
        test .between (.number 23) (.list [.number 5, .number 22]) = .ok true)) ∧
    ((0 : Float).isNaN = false ∧ (-0 : Float).isNaN = false ∧ compares .equals 0 (-0) = true ∧
      test .between (.number 23) (.list [.number 0, .number (-0)])
        = test .equals (.number 23) (.number 0)) ∧
    ((Value.list [.number nan]).isNull = false ∧
      test .equals (.list [.number nan]) (.list [.number nan]) = .ok true) := by
  intro nan
  have h23 : (23 : Float).isNaN = false := rfl
  have h22 : (22 : Float).isNaN = false := rfl
  have h5 : (5 : Float).isNaN = false := rfl
  have hplus : (0 : Float).isNaN = false := rfl
  have hminus : (-0 : Float).isNaN = false := rfl
  have hunequal : compares .equals 22 5 = false := by decide +kernel
  have hequal : compares .equals 0 (-0) = true := by decide +kernel
  have hlist : (Value.list [.number nan]).isNull = false := rfl
  obtain ⟨-, hnight, hdifferent, -, hself, -⟩ := test_numbers h23 h22 h5
  obtain ⟨-, -, -, hzeros, -⟩ := test_numbers h23 hplus hminus
  exact ⟨⟨h23, h22, h5, hnight.trans rfl⟩, ⟨hunequal, hdifferent hunequal⟩,
    ⟨hplus, hminus, hequal, (hzeros hequal).1⟩, ⟨hlist, hself _ hlist⟩⟩

/-- Equal bounds do not wrap around: a number next to them lies in neither range. -/
theorem not_between_equal_bounds :
    ((1 : Float).isNaN = false ∧ (2 : Float).isNaN = false) ∧
    ¬ (test .between (.number 1) (.list [.number 2, .number 2]) = .ok true ∨
      test .between (.number 1) (.list [.number 2, .number 2]) = .ok true) := by
  refine ⟨⟨rfl, rfl⟩, ?_⟩
  have hfalse : test .between (.number 1) (.list [.number 2, .number 2]) = .ok false := rfl
  rw [hfalse]
  rintro (h | h) <;> exact nomatch h

/-! ## Spellings -/

/-- The number is a member of a text with commas. -/
def isListed (x : Float) (text : String) : Bool :=
  verdictOf (test .inList (.number x) (.text text))

/-- The number is a member of a list with one item. -/
def isItem (x : Float) (item : Value) : Bool :=
  verdictOf (test .inList (.number x) (.list [item]))

/-- The answer to a text wherever it is compared with a number: alone, as one of the texts between
commas, and as one of the items of a list. -/
structure Answers (x : Float) (t : String) (b : Bool) : Prop where
  alone : test .equals (.number x) (.text t) = .ok b
  listed : ∀ before after : List String,
    test .inList (.number x) (.text (",".intercalate (before ++ t :: after)))
      = .ok (before.any (isListed x) || (b || after.any (isListed x)))
  item : ∀ before after : List Value,
    test .inList (.number x) (.list (before ++ .text t :: after))
      = .ok (before.any (isItem x) || (b || after.any (isItem x)))

theorem isListed_eq (x : Float) (text : String) : isListed x text
    = (Text.split ',' text).any fun item => (Value.number x).matchesText (Text.trim item) := rfl

theorem isItem_eq (x : Float) (item : Value) :
    isItem x item = (Value.number x).matchesText item.display := by
  have htest : test .inList (.number x) (.list [item])
      = .ok ([item].any fun item => (Value.number x).matchesText item.display) := rfl
  rw [isItem, htest, List.any_cons, List.any_nil, Bool.or_false, verdictOf]

/-- A text with commas has the members of its parts. -/
theorem test_inList_text (x : Float) {pieces : List String} (h : pieces ≠ []) :
    test .inList (.number x) (.text (",".intercalate pieces)) = .ok (pieces.any (isListed x)) := by
  obtain ⟨piece, rest, rfl⟩ := List.exists_cons_of_ne_nil h
  have htest : test .inList (.number x) (.text (",".intercalate (piece :: rest)))
      = .ok (isListed x ((String.singleton ',').intercalate (piece :: rest))) := rfl
  rw [htest, isListed_eq, Text.split_intercalate, List.any_flatMap]
  rfl

/-- A list has the members of its parts. -/
theorem test_inList_list (x : Float) (items : List Value) :
    test .inList (.number x) (.list items) = .ok (items.any (isItem x)) := by
  have htest : test .inList (.number x) (.list items)
      = .ok (items.any fun item => (Value.number x).matchesText item.display) := rfl
  rw [htest, ← funext (isItem_eq x)]

/-- The number that a text denotes answers for the text. -/
theorem answers_of_read? {t : String} {y : Float} (hread : Decimal.read? (Text.trim t) = some y)
    (hy : y.isNaN = false) (x : Float) : Answers x t (y == x) where
  alone := by
    have htest : test .equals (.number x) (.text t) = .ok ((Value.number x).matchesText t) := rfl
    rw [htest, Value.matchesText_number_of_read? hread hy]
  listed before after := by
    have htrim : Decimal.read? (Text.trim (Text.trim t)) = some y := by
      rw [Text.trim_trim]
      exact hread
    have hlisted : isListed x t = (y == x) := by
      rw [isListed_eq, Text.split_of_not_mem (Decimal.comma_notMem_of_read? hread), List.any_cons,
        List.any_nil, Bool.or_false, Value.matchesText_number_of_read? htrim hy]
    rw [test_inList_text x (List.append_ne_nil_of_right_ne_nil _ (List.cons_ne_nil _ _)),
      List.any_append, List.any_cons, hlisted]
  item before after := by
    have hitem : isItem x (.text t) = (y == x) := by
      rw [isItem_eq, Value.display, Value.matchesText_number_of_read? hread hy]
    rw [test_inList_list, List.any_append, List.any_cons, hitem]

/-- **SPELLINGS.** A number equals exactly the texts that denote it, and two texts that denote equal
numbers cannot be told apart: not by any number field, NaN included, and not by the place at which
they come into a clause. The numbers themselves, as literals, give the same answer. -/
theorem test_spellings :
    (∀ (n : Float) (t : String), n.isNaN = false →
      ((Value.number n).matchesText t = true ↔
        ∃ y, Decimal.read? (Text.trim t) = some y ∧ (y == n) = true)) ∧
    ∀ (t₁ t₂ : String) (y₁ y₂ : Float), Decimal.read? (Text.trim t₁) = some y₁ →
      Decimal.read? (Text.trim t₂) = some y₂ → (y₁ == y₂) = true →
      ∀ x : Float, ∃ b, Answers x t₁ b ∧ Answers x t₂ b ∧
        ∀ y, (y == y₁) = true → test .equals (.number x) (.number y) = .ok b := by
  refine ⟨fun n t hn => Value.matchesText_number_iff hn t, ?_⟩
  intro t₁ t₂ y₁ y₂ h₁ h₂ heq x
  obtain ⟨hnumber₁, hnumber₂⟩ := Decimal.isNaN_eq_false_of_beq heq
  refine ⟨y₁ == x, answers_of_read? h₁ hnumber₁ x, ?_, ?_⟩
  · rw [(Decimal.congr_of_beq heq x).1]
    exact answers_of_read? h₂ hnumber₂ x
  · intro y hy
    rw [test_equals_numbers (Decimal.isNaN_eq_false_of_beq hy).1, (Decimal.congr_of_beq hy x).1]

/-- Two spellings of one hundred: what the number equals, a list with one or the other after another
text, and the number as a literal. -/
theorem test_spellings_hundred :
    ((100 : Float).isNaN = false ∧ Decimal.read? (Text.trim " 1e2") = some 100 ∧
      (Value.number 100).matchesText " 1e2" = true) ∧
    (Decimal.read? (Text.trim "100.0") = some 100 ∧ ((100 : Float) == 100) = true ∧
      test .inList (.number 100) (.text "7, 1e2") = test .inList (.number 100) (.text "7,100.0") ∧
      test .equals (.number 100) (.number 100) = test .equals (.number 100) (.text "100.0")) := by
  have hnumber : (100 : Float).isNaN = false := rfl
  have h₁ : Decimal.read? (Text.trim " 1e2") = some 100 := by decide +kernel
  have h₂ : Decimal.read? (Text.trim "100.0") = some 100 := by decide +kernel
  have heq : ((100 : Float) == 100) = true := rfl
  have hjoin₁ : ",".intercalate (["7"] ++ [" 1e2"]) = "7, 1e2" := rfl
  have hjoin₂ : ",".intercalate (["7"] ++ ["100.0"]) = "7,100.0" := rfl
  have hmatches := (test_spellings.1 100 " 1e2" hnumber).mpr ⟨100, h₁, heq⟩
  obtain ⟨b, hfirst, hsecond, hliteral⟩ := test_spellings.2 _ _ _ _ h₁ h₂ heq 100
  rw [← hjoin₁, ← hjoin₂, hfirst.listed, hsecond.listed, hsecond.alone, hliteral 100 heq]
  exact ⟨⟨hnumber, h₁, hmatches⟩, h₂, heq, rfl, rfl⟩

end RiskDecision.Clause
