import RiskDecision.Files.Basic
import RiskDecision.Proofs.Text.Pieces

/-!
# Files in a directory

The path of a file in a directory leads where the path of the directory leads and then to the name
of the file, provided that the name is one that can be given to a file. The extension of a name is
what comes after its last point, if anything comes before that.
-/

namespace RiskDecision

/-- A name that can be given to a file. -/
structure FileName where
  text : String
  noSlash : '/' ∉ text.toList
  notEmpty : text ≠ ""
  notHere : text ≠ "."
  notAbove : text ≠ ".."

namespace FileName

variable (directory : String) (name : FileName)

theorem stepNames_eq (names : List String) :
    Entry.stepNames names name.text = names ++ [name.text] := by
  rw [Entry.stepNames, decide_eq_false name.notEmpty, decide_eq_false name.notHere, Bool.or_self,
    if_neg Bool.false_ne_true, if_neg name.notAbove]

/-- **FILES**: one more name leads from the directory to the file. -/
theorem names_join :
    Entry.names (Path.join directory name.text) = Entry.names directory ++ [name.text] := by
  have hname : Text.split '/' name.text = [name.text] := Text.split_of_not_mem name.noSlash
  have hrelative : (name.text.toList.head? == some '/') = false := by
    rw [beq_eq_false_iff_ne]
    exact fun h => name.noSlash (List.mem_of_mem_head? h)
  rw [Path.join, hrelative, Bool.or_false]
  by_cases hroot : directory = ""
  · rw [decide_eq_true hroot, if_pos rfl, hroot, Entry.names, hname]
    exact name.stepNames_eq []
  · rw [decide_eq_false hroot, if_neg Bool.false_ne_true, Entry.names,
      show "/" = String.singleton '/' from rfl, Text.split_append, hname, List.foldl_append]
    exact name.stepNames_eq _

theorem fileName_join : Path.fileName (Path.join directory name.text) = name.text := by
  rw [Path.fileName, names_join, List.getLast?_concat]
  rfl

theorem parentNames_join :
    Path.parentNames (Path.join directory name.text) = Entry.names directory := by
  rw [Path.parentNames, names_join, List.dropLast_concat]

end FileName

namespace Path

/-- The last piece of a name is its extension, unless there is nothing before it. -/
theorem cut_of_split {name last : String} {before : List String}
    (h : Text.split '.' name = before ++ [last]) :
    cut name = if ".".intercalate before = "" then (name, none)
      else (".".intercalate before, some last) := by
  rw [cut, h, List.reverse_concat]
  rcases List.eq_nil_or_concat' before with rfl | ⟨init, first, rfl⟩
  · rfl
  · rcases List.eq_nil_or_concat' init with rfl | ⟨rest, next, rfl⟩
    · rfl
    · -- between two pieces there is a point at least
      have hne : ".".intercalate (rest ++ [next] ++ [first]) ≠ "" := by
        rw [String.intercalate_append_of_ne_nil (List.concat_ne_nil _ _) (List.cons_ne_nil _ _)]
        simp
      rw [if_neg hne, List.reverse_concat, List.reverse_concat]
      dsimp only
      rw [List.reverse_cons, List.reverse_cons, List.reverse_reverse]

/-- **EXTENSIONS** come after a point, with no point in them and something before. -/
theorem cut_eq_some_iff {name front extension : String} :
    cut name = (front, some extension)
      ↔ name = front ++ "." ++ extension ∧ front ≠ "" ∧ '.' ∉ extension.toList := by
  constructor
  · intro h
    rcases List.eq_nil_or_concat' (Text.split '.' name) with hnil | ⟨before, last, hsplit⟩
    · exact absurd (List.map_eq_nil_iff.mp hnil) (Text.splitChars_ne_nil '.' _)
    · rw [cut_of_split hsplit] at h
      split at h
      · exact nomatch h
      · next hfront =>
          obtain ⟨rfl, rfl⟩ : ".".intercalate before = front ∧ last = extension := by simpa using h
          have hbefore : before ≠ [] := by
            rintro rfl
            exact hfront rfl
          refine ⟨?_, hfront, Text.notMem_of_mem_split (s := name) ?_⟩
          · have hjoin := Text.intercalate_split '.' name
            rw [hsplit, String.intercalate_append_of_ne_nil hbefore (List.cons_ne_nil _ _),
              String.intercalate_singleton] at hjoin
            exact hjoin.symm
          · rw [hsplit]
            exact List.mem_concat_self
  · rintro ⟨rfl, hfront, hpoint⟩
    have hsplit : Text.split '.' (front ++ "." ++ extension)
        = Text.split '.' front ++ [extension] := by
      rw [← Text.split_of_not_mem hpoint]
      exact Text.split_append '.' front extension
    have hjoin : ".".intercalate (Text.split '.' front) = front := Text.intercalate_split '.' front
    rw [cut_of_split hsplit, hjoin, if_neg hfront]

/-- A name that is `json` in some case has no point in it. -/
theorem notMem_of_lower_eq_json {extension : String} (h : Text.lower extension = "json") :
    '.' ∉ extension.toList := by
  intro hmem
  have hpoint : '.' ∈ (Text.lower extension).toList := by
    rw [Text.lower, String.toList_ofList]
    exact List.mem_map.mpr ⟨'.', hmem, by decide⟩
  rw [h] at hpoint
  exact absurd hpoint (by decide)

/-- **CATALOG NAMES** are those with the extension `json` in any case. -/
theorem isCatalogName_and_stem_iff {name front : String} :
    isCatalogName name = true ∧ stem name = front
      ↔ ∃ extension, name = front ++ "." ++ extension ∧ front ≠ "" ∧
        Text.lower extension = "json" := by
  constructor
  · rintro ⟨hcatalog, rfl⟩
    obtain ⟨extension, hcut, hsame⟩ := (Option.any_eq_true ..).mp hcatalog
    have hboth : cut name = (stem name, some extension) := Prod.ext rfl hcut
    obtain ⟨hname, hfront, -⟩ := cut_eq_some_iff.mp hboth
    exact ⟨extension, hname, hfront, eq_of_beq hsame⟩
  · rintro ⟨extension, hname, hfront, hjson⟩
    have hcut : cut name = (front, some extension) :=
      cut_eq_some_iff.mpr ⟨hname, hfront, notMem_of_lower_eq_json hjson⟩
    rw [isCatalogName, extension?, stem, hcut]
    exact ⟨beq_iff_eq.mpr hjson, rfl⟩

end Path

end RiskDecision
