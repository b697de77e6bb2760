import RiskDecision.Evaluation.Condition

/-!
# What evaluation looks at

Of a case, a condition tree sees nothing but the values that the fields of its clauses lead to; of a
clause, evaluation sees nothing but field, operator and literal. `Condition.bare` takes away the
rest of every clause, and `Condition.shown_run` says both at once: what a run shows of itself, its
result and its lines, is the same for a tree in one case and for the bare tree in any other case in
which those fields lead to the same values. The accessors that are tried may differ, unless every
path leads to the same value by the same accessors; then nothing differs (`Condition.run_congr`).
-/

namespace RiskDecision

/-- The clause without what nothing depends on. -/
def Clause.bare (clause : Clause) : Clause := { clause with dataType := none }

mutual

/-- The node with bare clauses. -/
def Condition.bare : Condition → Condition
  | .clause clause => .clause clause.bare
  | .group connective children => .group connective (bareAll children)

/-- Several nodes with bare clauses. -/
def bareAll : List Condition → List Condition
  | [] => []
  | child :: rest => child.bare :: bareAll rest

end

/-- The root of a condition tree with bare clauses. -/
def Group.bare (g : Group) : Group := ⟨g.connective, bareAll g.children⟩

theorem length_bareAll (children : List Condition) :
    (bareAll children).length = children.length := by
  induction children with
  | nil => rfl
  | cons child rest ih => rw [bareAll, List.length_cons, List.length_cons, ih]

/-- What a run shows of itself: the result and the lines of the trace. -/
def Run.shown (r : Run) : Bool × List String := (r.matched, r.lines)

/-- The fields lead to the same values in two cases. -/
def Case.SameValues (aliases : List String) (c c' : Case) (fields : List String) : Prop :=
  ∀ f ∈ fields, (c.resolve aliases f).value = (c'.resolve aliases f).value

/-- **FEATURES**: the path of a feature looks at the features only, and there at one name. -/
theorem Case.resolve_feature (aliases : List String) (c : Case) (name : String) :
    c.resolve aliases (featureStart ++ name) = ⟨c.features.value name, []⟩ := by
  have hchars : (featureStart ++ name).toList
      = 'p' :: ("reprocessed.".toList ++ name.toList) := by
    rw [String.toList_append]
    rfl
  have hblank : Text.isAllBlank (featureStart ++ name) = false := by
    rw [Text.isAllBlank, hchars, List.all_cons]
    rfl
  have hscore : Text.sameIgnoringCase (featureStart ++ name) scorePath = false := by
    rw [Text.sameIgnoringCase, beq_eq_false_iff_ne]
    intro heq
    have hlist := congrArg String.toList heq
    rw [Text.lower, Text.lower, String.toList_ofList, String.toList_ofList, hchars] at hlist
    have hhead : ('p' : Char).toLower = ('m' : Char).toLower := (List.cons.inj hlist).1
    exact absurd hhead (by decide)
  have hafter : Text.after? featureStart (featureStart ++ name) = some name := by
    have hdrop : (featureStart ++ name).toList.drop featureStart.length = name.toList := by
      rw [String.toList_append, ← String.length_toList, List.drop_left]
    have hprefix : featureStart.toList.isPrefixOf (featureStart ++ name).toList = true := by
      rw [String.toList_append]
      exact List.isPrefixOf_iff_prefix.mpr (List.prefix_append _ _)
    rw [Text.after?, if_pos hprefix, hdrop, String.ofList_toList]
  rw [resolve, hblank, hscore, hafter]
  rfl

/-! ## Runs in two cases -/

variable {aliases : List String} {c c' : Case}

/-- **CLAUSES**: the field's value is all that a clause sees of the case. -/
theorem Clause.shown_run {clause : Clause} (address : Address)
    (h : c.SameValues aliases c' [clause.field]) :
    (clause.run aliases c address).shown = (clause.bare.run aliases c' address).shown := by
  have hvalue : (c.resolve aliases clause.field).value = (c'.resolve aliases clause.field).value :=
    h clause.field List.mem_cons_self
  simp only [Run.shown, Run.lines, Clause.run, Clause.bare, List.map_cons, List.map_nil, Step.line,
    hvalue]

/-- What a group with children shows, in terms of the child that decided it and the lines of the
children. -/
theorem Condition.shown_run_group (address : Address) (k : Connective) (first : Condition)
    (rest : List Condition) :
    ((Condition.group k (first :: rest)).run aliases c address).shown =
      let decided := runChildren aliases c address k 0 (first :: rest)
      (if decided.1.isSome then k.decisive else !k.decisive,
        (Step.opened address k (rest.length + 1)).line ::
          (decided.2.map Step.line ++ [(Step.closed address k decided.1).line])) := by
  rw [Condition.run, Run.shown, Run.lines]
  obtain ⟨decider, steps⟩ := runChildren aliases c address k 0 (first :: rest)
  cases decider <;> simp

mutual

/-- **NODES**: the fields of its clauses are all that a node sees of the case. -/
theorem Condition.shown_run :
    ∀ (t : Condition) (address : Address),
      c.SameValues aliases c' (t.clauses.map Clause.field) →
      (t.run aliases c address).shown = (t.bare.run aliases c' address).shown
  | .clause clause, address, h => Clause.shown_run address h
  | .group k [], address, h => by
      rw [Condition.bare, bareAll, Condition.run, Condition.run]
  | .group k (first :: rest), address, h => by
      have hchildren := shown_runChildren (first :: rest) address k 0 h
      rw [bareAll] at hchildren
      rw [Condition.bare, bareAll, Condition.shown_run_group, Condition.shown_run_group]
      have hdecider := congrArg Prod.fst hchildren
      have hlines := congrArg Prod.snd hchildren
      simp only at hdecider hlines
      simp only [hdecider, hlines, length_bareAll]

/-- The children of a group decide it alike and show the same lines. -/
theorem shown_runChildren :
    ∀ (children : List Condition) (address : Address) (k : Connective) (number : Nat),
      c.SameValues aliases c' ((clausesOfAll children).map Clause.field) →
      ((runChildren aliases c address k number children).1,
          (runChildren aliases c address k number children).2.map Step.line)
        = ((runChildren aliases c' address k number (bareAll children)).1,
          (runChildren aliases c' address k number (bareAll children)).2.map Step.line)
  | [], address, k, number, h => rfl
  | child :: rest, address, k, number, h => by
      rw [clausesOfAll, List.map_append] at h
      have hchild := Condition.shown_run child (address ++ [number])
        fun f hf => h f (List.mem_append.mpr (Or.inl hf))
      have hrest := shown_runChildren rest address k (number + 1)
        fun f hf => h f (List.mem_append.mpr (Or.inr hf))
      have hmatched := congrArg Prod.fst hchild
      have hlines := congrArg Prod.snd hchild
      simp only [Run.shown, Run.lines] at hmatched hlines
      rw [bareAll, runChildren, runChildren, hmatched]
      -- both runs stop at the same child, so they show the same lines up to there
      by_cases hd : (child.bare.run aliases c' (address ++ [number])).matched = k.decisive
      · rw [if_pos hd, if_pos hd, hlines]
      · rw [if_neg hd, if_neg hd]
        have hdecider := congrArg Prod.fst hrest
        have hsteps := congrArg Prod.snd hrest
        simp only at hdecider hsteps
        simp only [List.map_append, hlines, hdecider, hsteps]

end

/-- **CONDITIONS OF A RULE**: what their evaluation shows depends on the fields of the rule only. -/
theorem shown_runConditions (r : Rule) (h : c.SameValues aliases c' r.fields) :
    (runConditions aliases c r.conditions).shown
      = (runConditions aliases c' (r.conditions.map Group.bare)).shown := by
  rw [Rule.fields, Rule.clauses] at h
  cases hconditions : r.conditions with
  | none => rfl
  | some root =>
      rw [hconditions] at h
      exact Condition.shown_run (.group root.connective root.children) [] h

/-! ## Cases that look alike -/

mutual

/-- **NODES** in two cases in which every path leads to the same value by the same accessors. -/
theorem Condition.run_congr (h : c.resolve aliases = c'.resolve aliases) :
    ∀ (t : Condition) (address : Address), t.run aliases c address = t.run aliases c' address
  | .clause clause, address => by
      rw [Condition.run, Condition.run, Clause.run, Clause.run, h]
  | .group k [], address => by
      rw [Condition.run, Condition.run]
  | .group k (first :: rest), address => by
      rw [Condition.run, Condition.run, runChildren_congr h (first :: rest) address k 0]

/-- The children of a group run alike. -/
theorem runChildren_congr (h : c.resolve aliases = c'.resolve aliases) :
    ∀ (children : List Condition) (address : Address) (k : Connective) (number : Nat),
      runChildren aliases c address k number children
        = runChildren aliases c' address k number children
  | [], address, k, number => by
      rw [runChildren, runChildren]
  | child :: rest, address, k, number => by
      rw [runChildren, runChildren, Condition.run_congr h child,
        runChildren_congr h rest address k (number + 1)]

end

theorem runConditions_congr (h : c.resolve aliases = c'.resolve aliases) (root : Option Group) :
    runConditions aliases c root = runConditions aliases c' root := by
  cases root with
  | none => rfl
  | some root => exact Condition.run_congr h (.group root.connective root.children) []

end RiskDecision
