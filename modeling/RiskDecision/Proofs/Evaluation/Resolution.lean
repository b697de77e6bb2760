import RiskDecision.Proofs.Evaluation.Relevance
import RiskDecision.Proofs.Record.Walk

/-!
# Where paths lead

Three kinds of paths are told apart before a path is cut into segments: blank ones, the path of the
score and the paths of features. Every other path is a walk on the record, from which a first
segment that is an alias was taken. The main statements are `resolve_eq_walk`, which says where each
path leads and what is tried on the way, and `resolve_alias`, which says when an alias in front of a
path makes no difference.
-/

namespace RiskDecision

theorem Text.after?_eq_none {start s : String} (h : ¬ start.toList <+: s.toList) :
    after? start s = none := by
  rw [after?, if_neg]
  intro hprefix
  exact h (List.isPrefixOf_iff_prefix.mp hprefix)

namespace Case

variable {aliases : List String} {c : Case}

/-- The path has several segments, the first of which is an alias in any case of its letters. -/
def BeginsWithAlias (aliases : List String) (path : String) : Prop :=
  1 < (Text.split '.' path).length ∧
    ∃ first ∈ (Text.split '.' path).head?, ∃ a ∈ aliases, Text.lower a = Text.lower first

instance (aliases : List String) (path : String) : Decidable (BeginsWithAlias aliases path) :=
  inferInstanceAs (Decidable (_ ∧ _))

/-- The segments of a path that are looked up on the record: all of them, or all but an alias. -/
def lookedUp (aliases : List String) (path : String) : List String :=
  if BeginsWithAlias aliases path then (Text.split '.' path).tail else Text.split '.' path

/-- The path is neither blank nor the path of the score nor that of a feature. -/
structure OnRecord (path : String) : Prop where
  notBlank : Text.isAllBlank path = false
  notScore : Text.sameIgnoringCase path scorePath = false
  notFeature : ¬ featureStart.toList <+: path.toList

theorem isAlias_iff {segment : String} :
    isAlias aliases segment = true ↔ ∃ a ∈ aliases, Text.lower a = Text.lower segment := by
  rw [isAlias, List.any_eq_true]
  simp only [Text.sameIgnoringCase, beq_iff_eq]

theorem dropAlias_split (path : String) :
    dropAlias aliases (Text.split '.' path) = lookedUp aliases path := by
  rw [lookedUp]
  by_cases h : BeginsWithAlias aliases path
  · rw [if_pos h]
    obtain ⟨hlong, first, hfirst, named⟩ := h
    cases hs : Text.split '.' path with
    | nil =>
        rw [hs] at hfirst
        exact nomatch hfirst
    | cons head rest =>
        cases rest with
        | nil =>
            rw [hs] at hlong
            exact absurd hlong (by simp)
        | cons second rest =>
            rw [hs] at hfirst
            obtain rfl := Option.some.inj hfirst
            rw [dropAlias, if_pos (isAlias_iff.mpr named), List.tail_cons]
  · rw [if_neg h]
    cases hs : Text.split '.' path with
    | nil => rfl
    | cons head rest =>
        cases rest with
        | nil => rfl
        | cons second rest =>
            rw [dropAlias, if_neg]
            intro halias
            refine h ⟨?_, head, ?_, isAlias_iff.mp halias⟩
            · rw [hs, List.length_cons, List.length_cons]
              omega
            · rw [hs]
              rfl

theorem lookedUp_ne_nil (path : String) : lookedUp aliases path ≠ [] := by
  rw [lookedUp]
  split
  · next h =>
      intro heq
      have hlength := congrArg List.length heq
      rw [List.length_tail, List.length_nil] at hlength
      have := h.1
      omega
  · intro heq
    exact Text.splitChars_ne_nil '.' path.toList (List.map_eq_nil_iff.mp heq)

theorem resolve_onRecord {path : String} (h : OnRecord path) :
    c.resolve aliases path = c.record.follow (lookedUp aliases path) := by
  rw [resolve, h.notBlank, h.notScore, Text.after?_eq_none h.notFeature, dropAlias_split]
  rfl

/-- **SCORE**: its path is no blank one. -/
theorem resolve_score {path : String} (h : Text.sameIgnoringCase path scorePath = true) :
    c.resolve aliases path = ⟨.number c.score, []⟩ := by
  have hlower : Text.lower path = Text.lower scorePath := eq_of_beq h
  have hblank : Text.isAllBlank path = false := by
    have hchars := congrArg (fun s => s.toList.all Text.isBlank) hlower
    simp only [Text.lower, String.toList_ofList, List.all_map] at hchars
    rw [Text.isAllBlank, ← funext Text.isBlank_toLower]
    exact hchars
  rw [resolve, hblank, h]
  rfl

/-- **WHERE PATHS LEAD.** A path on the record is a walk along its segments, with or without the
first one; the path of the score gives the score and the path of a feature the feature of that name,
points in the name included, and neither tries an accessor. -/
theorem resolve_eq_walk (aliases : List String) (c : Case) (path : String) :
    (OnRecord path →
      c.resolve aliases path = (Position.record c.record).walk (lookedUp aliases path)) ∧
    (Text.sameIgnoringCase path scorePath = true →
      c.resolve aliases path = ⟨.number c.score, []⟩) ∧
    (∀ name, path = featureStart ++ name →
      c.resolve aliases path = ⟨c.features.value name, []⟩) := by
  refine ⟨?_, resolve_score, ?_⟩
  · intro h
    rw [resolve_onRecord h]
    exact c.record.follow_eq_walk _ (lookedUp_ne_nil path)
  · rintro name rfl
    exact resolve_feature aliases c name

/-- A path into a nested record, behind an alias in other letters; a null value that is a hit, so that
the next accessor of that segment is not tried; a path on from it; and the paths that are none on
the record. -/
theorem resolve_eq_walk_transfer :
    let context : View := .mk "Context" [("isNewDevice", .scalar (.bool true)),
      ("getHour", .scalar .null), ("hour", .scalar (.number 3))]
    let c : Case :=
      ⟨.mk "Transfer" [("getContext", .nested context)], 0.5, [("by.night", .bool true)], none⟩
    let aliases := ["rawInput"]
    (OnRecord "RAWINPUT.context.newDevice" ∧
      c.resolve aliases "RAWINPUT.context.newDevice" = ⟨.bool true,
        [⟨"Transfer", "getContext"⟩, ⟨"Context", "getNewDevice"⟩, ⟨"Context", "isNewDevice"⟩]⟩) ∧
    (OnRecord "context.hour.min" ∧
      c.resolve aliases "context.hour.min" = ⟨.null,
        [⟨"Transfer", "getContext"⟩, ⟨"Context", "getHour"⟩]⟩) ∧
    (Text.sameIgnoringCase "MLSCORE" scorePath = true ∧
      c.resolve aliases "MLSCORE" = ⟨.number 0.5, []⟩) ∧
    c.resolve aliases "preprocessed.by.night" = ⟨.bool true, []⟩ := by
  intro context c aliases
  have hdevice : OnRecord "RAWINPUT.context.newDevice" :=
    ⟨by decide +kernel, by decide +kernel, by decide +kernel⟩
  have hhour : OnRecord "context.hour.min" :=
    ⟨by decide +kernel, by decide +kernel, by decide +kernel⟩
  have hscore : Text.sameIgnoringCase "MLSCORE" scorePath = true := by decide +kernel
  have hdeviceSegments : lookedUp aliases "RAWINPUT.context.newDevice" = ["context", "newDevice"] := by
    decide +kernel
  have hhourSegments : lookedUp aliases "context.hour.min" = ["context", "hour", "min"] := by
    decide +kernel
  have hcontext : Text.capitalize "context" = "Context" := by decide +kernel
  have hnewDevice : Text.capitalize "newDevice" = "NewDevice" := by decide +kernel
  have hHour : Text.capitalize "hour" = "Hour" := by decide +kernel
  refine ⟨⟨hdevice, ?_⟩, ⟨hhour, ?_⟩, ⟨hscore, ?_⟩, ?_⟩
  · rw [(resolve_eq_walk aliases c _).1 hdevice, hdeviceSegments]
    simp [Position.walk, Position.step, Position.reading, Position.attempts, View.hit?,
      View.attempts, View.slot?, View.typeName, List.lookup_cons, c, context, hcontext, hnewDevice]
  · rw [(resolve_eq_walk aliases c _).1 hhour, hhourSegments]
    simp [Position.walk, Position.step, Position.reading, Position.attempts, View.hit?,
      View.attempts, View.slot?, View.typeName, List.lookup_cons, c, context, hcontext, hHour]
  · exact (resolve_eq_walk aliases c _).2.1 hscore
  · exact (resolve_eq_walk aliases c _).2.2 "by.night" rfl

/-! ## Aliases -/

/-- A text with a point in it is not the path of the score, whatever stands around the point. -/
theorem notScore_of_point {path : String} (h : '.' ∈ path.toList) :
    Text.sameIgnoringCase path scorePath = false := by
  rw [Text.sameIgnoringCase, beq_eq_false_iff_ne]
  intro heq
  have hmem : ('.' : Char).toLower ∈ (Text.lower path).toList := by
    rw [Text.lower, String.toList_ofList]
    exact List.mem_map_of_mem h
  rw [heq] at hmem
  exact absurd hmem (by decide)

theorem isBlank_point : Text.isBlank '.' = false := rfl

theorem split_alias {a : String} (point : '.' ∉ a.toList) (p : String) :
    Text.split '.' (a ++ "." ++ p) = a :: Text.split '.' p := by
  rw [show "." = String.singleton '.' from rfl, Text.split_append, Text.split_of_not_mem point,
    List.singleton_append]

/-- A path that begins with an alias is a path on the record, unless the alias is the first segment
of the paths of features. -/
theorem onRecord_alias {a : String} (point : '.' ∉ a.toList) (free : a ≠ "preprocessed")
    (p : String) : OnRecord (a ++ "." ++ p) := by
  have hmem : '.' ∈ (a ++ "." ++ p).toList := by
    rw [String.toList_append, String.toList_append]
    exact List.mem_append_left _ (List.mem_append_right _ (List.mem_singleton_self '.'))
  refine ⟨?_, notScore_of_point hmem, ?_⟩
  · rw [Text.isAllBlank, List.all_eq_false]
    exact ⟨'.', hmem, by rw [isBlank_point]; exact Bool.false_ne_true⟩
  · rintro ⟨rest, hrest⟩
    -- both sides have the segment before their first point in common
    have hcut := congrArg (Text.splitChars '.') hrest
    rw [show featureStart.toList = "preprocessed".toList ++ ['.'] from rfl, List.append_assoc,
      List.singleton_append, Text.splitChars_append, String.toList_append, String.toList_append,
      List.append_assoc, show ".".toList = ['.'] from rfl, List.singleton_append,
      Text.splitChars_append, Text.splitChars_of_not_mem point,
      Text.splitChars_of_not_mem (by decide)] at hcut
    exact free (String.toList_inj.mp (List.cons.inj hcut).1.symm)

theorem lookedUp_alias {a : String} (point : '.' ∉ a.toList)
    (named : ∃ b ∈ aliases, Text.lower b = Text.lower a) (p : String) :
    lookedUp aliases (a ++ "." ++ p) = Text.split '.' p := by
  have hlong : 1 < (Text.split '.' (a ++ "." ++ p)).length := by
    have hpos := List.length_pos_iff.mpr (Text.splitChars_ne_nil '.' p.toList)
    rw [split_alias point, List.length_cons, Text.split, List.length_map]
    omega
  have hfirst : ∃ first ∈ (Text.split '.' (a ++ "." ++ p)).head?, ∃ b ∈ aliases,
      Text.lower b = Text.lower first := by
    rw [split_alias point]
    exact ⟨a, rfl, named⟩
  rw [lookedUp, if_pos ⟨hlong, hfirst⟩, split_alias point, List.tail_cons]

/-- **ALIASES ARE TRANSPARENT.** Let a segment be an alias. In front of a path on the record that
does not begin with an alias itself it makes no difference, neither for the value nor for what is
tried. Whatever path it stands in front of, it is the only segment that is taken away. Alone it is
looked up as if there were no aliases. -/
theorem resolve_alias (c : Case) {a : String} (point : '.' ∉ a.toList)
    (named : ∃ b ∈ aliases, Text.lower b = Text.lower a) :
    (a ≠ "preprocessed" → ∀ p, OnRecord p → ¬ BeginsWithAlias aliases p →
      c.resolve aliases (a ++ "." ++ p) = c.resolve aliases p) ∧
    (a ≠ "preprocessed" → ∀ p,
      c.resolve aliases (a ++ "." ++ p) = c.record.follow (Text.split '.' p)) ∧
    (OnRecord a → c.resolve aliases a = c.record.follow [a]) ∧
    c.resolve aliases a = c.resolve [] a := by
  have hone : ∀ names, lookedUp names a = [a] := by
    intro names
    rw [lookedUp, Text.split_of_not_mem point, ite_eq_right_iff]
    intro h
    have hlong := h.1
    rw [Text.split_of_not_mem point] at hlong
    exact absurd hlong (by simp)
  have hdrop : ∀ names, dropAlias names (Text.split '.' a) = [a] := by
    intro names
    rw [dropAlias_split, hone]
  refine ⟨?_, ?_, ?_, ?_⟩
  · intro free p hp hall
    rw [resolve_onRecord (onRecord_alias point free p), lookedUp_alias point named,
      resolve_onRecord hp, lookedUp, if_neg hall]
  · intro free p
    rw [resolve_onRecord (onRecord_alias point free p), lookedUp_alias point named]
  · intro ha
    rw [resolve_onRecord ha, hone]
  · rw [resolve, resolve, hdrop, hdrop]

/-- An alias twice in front of a path, once of them in other letters, and an alias that is the name
of a field. -/
theorem resolve_alias_amount :
    let c : Case := ⟨.mk "Transfer" [("amount", .scalar (.number 20))], 0.5, [], none⟩
    let aliases := ["rawInput", "amount"]
    '.' ∉ "RAWINPUT".toList ∧ (∃ b ∈ aliases, Text.lower b = Text.lower "RAWINPUT") ∧
      OnRecord "amount" ∧ ¬ BeginsWithAlias aliases "amount" ∧
      c.resolve aliases "RAWINPUT.amount" = c.resolve aliases "amount" ∧
      c.resolve aliases "RAWINPUT.rawInput.amount" = c.record.follow ["rawInput", "amount"] ∧
      '.' ∉ "amount".toList ∧ (∃ b ∈ aliases, Text.lower b = Text.lower "amount") ∧
      c.resolve aliases "amount" = c.record.follow ["amount"] := by
  intro c aliases
  have point : '.' ∉ "RAWINPUT".toList := by decide +kernel
  have named : ∃ b ∈ aliases, Text.lower b = Text.lower "RAWINPUT" := by decide +kernel
  have point' : '.' ∉ "amount".toList := by decide +kernel
  have named' : ∃ b ∈ aliases, Text.lower b = Text.lower "amount" := by decide +kernel
  have hamount : OnRecord "amount" := ⟨by decide +kernel, by decide +kernel, by decide +kernel⟩
  have hnot : ¬ BeginsWithAlias aliases "amount" := by decide +kernel
  have hfree : "RAWINPUT" ≠ "preprocessed" := by decide
  obtain ⟨htransparent, honce, -⟩ := resolve_alias c point named
  obtain ⟨-, -, hsingle, -⟩ := resolve_alias c point' named'
  exact ⟨point, named, hamount, hnot, htransparent hfree "amount" hamount hnot,
    honce hfree "rawInput.amount", point', named', hsingle hamount⟩

end Case

end RiskDecision
