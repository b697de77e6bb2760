import RiskDecision.Evaluation.Clause
import RiskDecision.Proofs.Text.Pieces

/-!
# Membership

A literal lists texts in one of two forms: a text has them between its commas, a list has those of
its items (`Value.Lists`). Membership asks for nothing but the texts that are listed, so the forms
cannot be told apart, nor can two literals of one form that list the same texts in another order or
more often (`test_inList`). A list has a value as its member if the value equals an item, unless the
value is a truth value: that one equals truth values only, but is a member by its text.
-/

namespace RiskDecision

/-- The texts that a literal lists: the pieces of a text between the commas, without the blanks
around them, and the text forms of the items of a list. -/
inductive Value.Lists : Value → String → Prop
  | piece {s piece : String} (between : Text.IsPiece ',' piece s) :
    Lists (.text s) (Text.trim piece)
  | item {items : List Value} {item : Value} (mem : item ∈ items) : Lists (.list items) item.display

/-- The literal is of a kind that lists texts. -/
def Value.IsListing (literal : Value) : Prop := literal.kind = .text ∨ literal.kind = .list

/-- The text form of an item that can stand between commas, and a spelling of it there: there is no
comma in it, and blanks may be around it that do not belong to it. -/
structure Value.Spelled (item : Value) (piece : String) : Prop where
  noComma : ',' ∉ item.display.toList
  trimmed : Text.IsTrimmed item.display
  padded : Text.Padded item.display piece

namespace Value

theorem lists_list_iff {items : List Value} {t : String} :
    (Value.list items).Lists t ↔ ∃ item ∈ items, item.display = t := by
  constructor
  · intro h
    obtain _ | ⟨mem⟩ := h
    exact ⟨_, mem, rfl⟩
  · rintro ⟨item, mem, rfl⟩
    exact .item mem

theorem lists_text_iff {s t : String} :
    (Value.text s).Lists t ↔ ∃ piece ∈ Text.split ',' s, Text.trim piece = t := by
  constructor
  · intro h
    obtain ⟨between⟩ := h
    exact ⟨_, Text.mem_split_iff.mpr between, rfl⟩
  · rintro ⟨piece, mem, rfl⟩
    exact .piece (Text.mem_split_iff.mp mem)

/-- A spelling has no comma either, since blanks are none. -/
theorem Spelled.comma_notMem {item : Value} {piece : String} (h : item.Spelled piece) :
    ',' ∉ piece.toList := by
  obtain ⟨noComma, -, @⟨left, right, before, behind⟩⟩ := h
  have hblank : ∀ {s : String}, Text.isAllBlank s = true → ',' ∉ s.toList :=
    fun hs hmem => absurd (List.all_eq_true.mp hs ',' hmem) (by decide)
  rw [String.toList_append, String.toList_append, List.mem_append, List.mem_append]
  rintro ((hleft | hitem) | hright)
  · exact hblank before hleft
  · exact noComma hitem
  · exact hblank behind hright

theorem Spelled.trim {item : Value} {piece : String} (h : item.Spelled piece) :
    Text.trim piece = item.display :=
  Text.trim_of_padded h.trimmed h.padded

/-- Spellings, one for each item, stay in one piece each and are trimmed to the items. -/
theorem comma_notMem_and_map_trim {items : List Value} {pieces : List String}
    (h : List.Forall₂ Spelled items pieces) :
    (∀ piece ∈ pieces, ',' ∉ piece.toList) ∧ pieces.map Text.trim = items.map display := by
  induction h with
  | nil => exact ⟨nofun, rfl⟩
  | cons hspelled _ ih =>
      refine ⟨List.forall_mem_cons.mpr ⟨hspelled.comma_notMem, ih.1⟩, ?_⟩
      rw [List.map_cons, List.map_cons, hspelled.trim, ih.2]

/-- **ONE LISTING**: items that are spelled between commas are listed by the text as they are by the
list. -/
theorem lists_text_iff_list {items : List Value} {pieces : List String} (hne : items ≠ [])
    (h : List.Forall₂ Spelled items pieces) (t : String) :
    (Value.text (",".intercalate pieces)).Lists t ↔ (Value.list items).Lists t := by
  obtain ⟨hcommas, htrim⟩ := comma_notMem_and_map_trim h
  have hpieces : pieces ≠ [] := by
    rintro rfl
    exact hne (List.map_eq_nil_iff.mp htrim.symm)
  have hsplit : Text.split ',' (",".intercalate pieces) = pieces := Text.split_join hpieces hcommas
  rw [lists_text_iff, lists_list_iff, hsplit, ← List.mem_map, ← List.mem_map, htrim]

end Value

namespace Clause

variable {v literal literal' : Value}

/-- Membership is defined for literals that list texts, and asks for one that the value equals. -/
theorem isMember_iff (v : Value) (h : literal.IsListing) :
    ∃ b, isMember v literal = .ok b ∧
      (b = true ↔ ∃ t, literal.Lists t ∧ v.matchesText t = true) := by
  cases literal with
  | text s =>
      refine ⟨_, rfl, ?_⟩
      rw [List.any_eq_true]
      simp only [Value.lists_text_iff]
      exact ⟨fun ⟨piece, hp, hv⟩ => ⟨_, ⟨piece, hp, rfl⟩, hv⟩,
        fun ⟨_, ⟨piece, hp, ht⟩, hv⟩ => ⟨piece, hp, ht ▸ hv⟩⟩
  | list items =>
      refine ⟨_, rfl, ?_⟩
      rw [List.any_eq_true]
      simp only [Value.lists_list_iff]
      exact ⟨fun ⟨item, hi, hv⟩ => ⟨_, ⟨item, hi, rfl⟩, hv⟩,
        fun ⟨_, ⟨item, hi, ht⟩, hv⟩ => ⟨item, hi, ht ▸ hv⟩⟩
  | _ => exact absurd h (by rintro (h | h) <;> exact nomatch h)

theorem test_inList_of_not_null (present : v.isNull = false) (literal : Value) :
    test .inList v literal = isMember v literal := by
  cases v with
  | null => exact nomatch present
  | _ => rfl

/-- What equals a value that is no truth value is settled by the text of the literal. -/
theorem test_equals_of_not_bool (present : v.isNull = false) (other : v.kind ≠ .bool)
    (literal : Value) : test .equals v literal = .ok (v.matchesText literal.display) := by
  cases v with
  | null => exact nomatch present
  | bool b => exact absurd rfl other
  | _ => rfl

/-- **MORE TEXTS** make a value a member or leave it one. -/
theorem test_inList_mono (h : literal.IsListing) (h' : literal'.IsListing)
    (more : ∀ t, literal.Lists t → literal'.Lists t) (hv : test .inList v literal = .ok true) :
    test .inList v literal' = .ok true := by
  have present : v.isNull = false := by
    cases v with
    | null => exact nomatch hv
    | _ => rfl
  rw [test_inList_of_not_null present] at hv ⊢
  obtain ⟨b, hb, hiff⟩ := isMember_iff v h
  obtain ⟨b', hb', hiff'⟩ := isMember_iff v h'
  obtain rfl : b = true := Except.ok.inj (hb.symm.trans hv)
  obtain ⟨t, ht, hmatches⟩ := hiff.mp rfl
  rw [hb', hiff'.mpr ⟨t, more t ht, hmatches⟩]

/-- **THE SAME TEXTS** make no difference, in whatever order and form they are listed and however
often. -/
theorem test_inList_congr (present : v.isNull = false) (h : literal.IsListing)
    (h' : literal'.IsListing) (same : ∀ t, literal.Lists t ↔ literal'.Lists t) :
    ∃ b, test .inList v literal = .ok b ∧ test .inList v literal' = .ok b := by
  rw [test_inList_of_not_null present, test_inList_of_not_null present]
  obtain ⟨b, hb, hiff⟩ := isMember_iff v h
  obtain ⟨b', hb', hiff'⟩ := isMember_iff v h'
  have heq : b = b' := by
    rw [Bool.eq_iff_iff, hiff, hiff']
    simp only [same]
  exact ⟨b, hb, heq ▸ hb'⟩

/-- A list has the values that equal one of its items as members, truth values aside. -/
theorem test_inList_list_iff (present : v.isNull = false) (other : v.kind ≠ .bool)
    (items : List Value) : ∃ b, test .inList v (.list items) = .ok b ∧
      (b = true ↔ ∃ item ∈ items, test .equals v item = .ok true) := by
  refine ⟨_, test_inList_of_not_null present (.list items), ?_⟩
  rw [List.any_eq_true]
  simp only [test_equals_of_not_bool present other, Except.ok.injEq]

/-- **MEMBERSHIP.** A value that is there is a member of a list exactly if it is a member of the
text that the items of the list are joined to with commas, whatever blanks are put around the
commas; this takes items without commas and without blanks at their ends, and at least one of them,
since the empty text lists the empty text. Unless it is a truth value, it is a member of a list
exactly if it equals an item. In both forms nothing counts but which texts are listed, and with more
of them a member stays one. -/
theorem test_inList {v : Value} (present : v.isNull = false) :
    (∀ (items : List Value) (pieces : List String), items ≠ [] →
      List.Forall₂ Value.Spelled items pieces →
      test .inList v (.text (",".intercalate pieces)) = test .inList v (.list items)) ∧
    (v.kind ≠ .bool → ∀ items : List Value, ∃ b, test .inList v (.list items) = .ok b ∧
      (b = true ↔ ∃ item ∈ items, test .equals v item = .ok true)) ∧
    (∀ literal literal' : Value, literal.IsListing → literal'.IsListing →
      (∀ t, literal.Lists t ↔ literal'.Lists t) →
      ∃ b, test .inList v literal = .ok b ∧ test .inList v literal' = .ok b) ∧
    ∀ literal literal' : Value, literal.IsListing → literal'.IsListing →
      (∀ t, literal.Lists t → literal'.Lists t) →
      test .inList v literal = .ok true → test .inList v literal' = .ok true := by
  refine ⟨?_, test_inList_list_iff present, ?_, ?_⟩
  · intro items pieces hne hspelled
    obtain ⟨b, htext, hlist⟩ := test_inList_congr present (Or.inl rfl) (Or.inr rfl)
      (Value.lists_text_iff_list hne hspelled)
    exact htext.trans hlist.symm
  · intro literal literal' h h' same
    exact test_inList_congr present h h' same
  · intro literal literal' h h' more hv
    exact test_inList_mono h h' more hv

/-- One hundred among other texts: spelled between commas with blanks of two kinds, as an item, in a
list with the items exchanged and one of them repeated, and with one more item. -/
theorem test_inList_hundred :
    let v : Value := .number 100
    let items : List Value := [.text "1e2", .text "GB"]
    let exchanged : List Value := [.text "GB", .text "1e2", .text "GB"]
    v.isNull = false ∧ List.Forall₂ Value.Spelled items [" 1e2", "GB\u3000"] ∧
      test .inList v (.text " 1e2,GB\u3000") = test .inList v (.list items) ∧
      test .inList v (.list items) = .ok true ∧
      test .inList v (.list items) = test .inList v (.list exchanged) ∧
      test .inList v (.list (.number 7 :: items)) = .ok true := by
  intro v items exchanged
  have present : v.isNull = false := rfl
  have other : v.kind ≠ .bool := by decide
  have hspelled : List.Forall₂ Value.Spelled items [" 1e2", "GB\u3000"] := by
    refine .cons ⟨by decide +kernel, ⟨?_, ?_⟩, @Text.Padded.around "1e2" " " "" rfl rfl⟩
      (.cons ⟨by decide +kernel, ⟨?_, ?_⟩, @Text.Padded.around "GB" "" "\u3000" rfl rfl⟩ .nil)
    all_goals
      rintro c ⟨⟩
      rfl
  have hjoin : ",".intercalate [" 1e2", "GB\u3000"] = " 1e2,GB\u3000" := rfl
  have hmatches : v.matchesText "1e2" = true := by decide +kernel
  have hequals : test .equals v (.text "1e2") = .ok true := congrArg Except.ok hmatches
  obtain ⟨hforms, hlist, hsame, hmore⟩ := test_inList present
  obtain ⟨b, hb, hiff⟩ := hlist other items
  have hmember : test .inList v (.list items) = .ok true := by
    rw [hb, hiff.mpr ⟨.text "1e2", List.mem_cons_self, hequals⟩]
  have hlisting : ∀ l : List Value, (Value.list l).IsListing := fun _ => Or.inr rfl
  refine ⟨present, hspelled, hjoin ▸ hforms items _ nofun hspelled, hmember, ?_, ?_⟩
  · have hexchanged : ∀ t, (Value.list items).Lists t ↔ (Value.list exchanged).Lists t := by
      intro t
      simp only [Value.lists_list_iff, items, exchanged, List.mem_cons, List.not_mem_nil]
      grind
    obtain ⟨b, hitems, hb⟩ := hsame _ _ (hlisting items) (hlisting exchanged) hexchanged
    exact hitems.trans hb.symm
  · refine hmore _ _ (hlisting _) (hlisting _) (fun t ht => ?_) hmember
    obtain ⟨item, hitem, hdisplay⟩ := Value.lists_list_iff.mp ht
    exact Value.lists_list_iff.mpr ⟨item, List.mem_cons_of_mem _ hitem, hdisplay⟩

end Clause

end RiskDecision
