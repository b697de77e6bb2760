import RiskDecision.Proofs.Evaluation.Steps

/-!
# The trace is a faithful log

A trace is a list of texts, written while the evaluation goes into groups and out of them again.
What can be read off it is said of the texts alone: which lines are about which address, and which
lines stand between which other ones (`Condition.Logged`). The steps of a run say what there is, and
the text of an address says which line is about which node, so both together give the log
(`Condition.logged_run`). The main statement, `runConditions_logged`, adds that a program that takes
notes writes these lines behind the ones that it has.
-/

namespace RiskDecision

variable {aliases : List String} {c : Case}

/-! ## Which lines there are -/

/-- The lines that are about a node itself. -/
def Occurrence.lines (aliases : List String) (c : Case) (o : Occurrence) : List String :=
  (o.steps aliases c).map Step.line

theorem Occurrence.heads_of_mem_lines {o : Occurrence} {line : String}
    (h : line ∈ o.lines aliases c) : o.address.heads line = true := by
  obtain ⟨step, hstep, rfl⟩ := List.mem_map.mp h
  exact (Step.heads_line_iff (Occurrence.address_of_mem_steps hstep) o.address).mpr rfl

theorem Occurrence.filter_lines (o : Occurrence) :
    (o.lines aliases c).filter o.address.heads = o.lines aliases c :=
  List.filter_eq_self.mpr fun _ hline => Occurrence.heads_of_mem_lines hline

/-- Of lines about nodes at different addresses, those about one of them are its own. -/
theorem filter_flatMap_lines {os : List Occurrence}
    (distinct : (os.map Occurrence.address).Nodup) {o : Occurrence} (ho : o ∈ os) :
    (os.flatMap (Occurrence.lines aliases c)).filter o.address.heads = o.lines aliases c := by
  have hother : ∀ {o o' : Occurrence}, o.address ≠ o'.address →
      (o'.lines aliases c).filter o.address.heads = [] := by
    intro o o' hne
    rw [List.filter_eq_nil_iff]
    intro line hline hheads
    exact hne (Address.eq_of_heads hheads (Occurrence.heads_of_mem_lines hline))
  induction os with
  | nil => exact absurd ho List.not_mem_nil
  | cons first rest ih =>
      rw [List.map_cons, List.nodup_cons] at distinct
      rw [List.flatMap_cons, List.filter_append]
      rcases List.mem_cons.mp ho with rfl | hrest
      · have hnone : (rest.flatMap (Occurrence.lines aliases c)).filter o.address.heads = [] := by
          rw [List.filter_flatMap, List.flatMap_eq_nil_iff]
          intro o' ho'
          exact hother fun heq => distinct.1 (heq ▸ List.mem_map_of_mem ho')
        rw [Occurrence.filter_lines, hnone, List.append_nil]
      · have hne : o.address ≠ first.address := fun heq =>
          distinct.1 (heq ▸ List.mem_map_of_mem hrest)
        rw [hother hne, List.nil_append, ih distinct.2 hrest]

/-- The steps about a node are steps of its run, in their order. -/
theorem Occurrence.steps_sublist_run (o : Occurrence) :
    (o.steps aliases c).Sublist (o.node.run aliases c o.address).steps := by
  obtain ⟨address, node⟩ := o
  cases node with
  | clause clause => exact List.Sublist.refl _
  | group k children =>
      cases children with
      | nil =>
          rw [Condition.run]
          exact List.Sublist.refl _
      | cons first rest =>
          rw [Condition.steps_run_group]
          exact (List.sublist_append_right _ _).cons_cons _

theorem Condition.perm_lines_run (t : Condition) :
    (t.run aliases c []).lines.Perm
      ((t.evaluated (Clause.holds aliases c)).flatMap (Occurrence.lines aliases c)) := by
  have hsteps : (t.run aliases c []).steps.Perm
      ((t.evaluated (Clause.holds aliases c)).flatMap fun o => o.steps aliases c) := by
    rw [← Condition.visited_eq]
    exact Condition.perm_steps_run t []
  have hlines := hsteps.map Step.line
  rw [List.map_flatMap] at hlines
  exact hlines

/-- **OWN LINES**: the lines about an evaluated node are its own, in their order. -/
theorem Condition.filter_lines_run {t : Condition} {o : Occurrence}
    (ho : o ∈ t.evaluated (Clause.holds aliases c)) :
    (t.run aliases c []).lines.filter o.address.heads = o.lines aliases c := by
  have hperm : ((t.run aliases c []).lines.filter o.address.heads).Perm (o.lines aliases c) := by
    rw [← filter_flatMap_lines (t.nodup_address_evaluated _) ho]
    exact t.perm_lines_run.filter _
  obtain ⟨before, behind, hsteps, -⟩ := t.isBlock_run [] o (t.visited_eq ▸ ho)
  -- all of its own lines are there, and there is no room for more of them
  have hsub : (o.lines aliases c).Sublist (t.run aliases c []).lines := by
    refine List.Sublist.map Step.line (o.steps_sublist_run.trans ?_)
    rw [hsteps]
    exact (List.sublist_append_left _ _).trans (List.sublist_append_right _ _)
  have hfilter := hsub.filter o.address.heads
  rw [Occurrence.filter_lines] at hfilter
  exact (hfilter.eq_of_length hperm.length_eq.symm).symm

/-- Every line is about an evaluated node. -/
theorem Condition.exists_heads_of_mem_lines {t : Condition} {line : String}
    (h : line ∈ (t.run aliases c []).lines) :
    ∃ o ∈ t.evaluated (Clause.holds aliases c), o.address.heads line = true := by
  obtain ⟨o, ho, hline⟩ := List.mem_flatMap.mp (t.perm_lines_run.mem_iff.mp h)
  exact ⟨o, ho, Occurrence.heads_of_mem_lines hline⟩

/-- A block of steps gives a block of lines. -/
theorem exists_lines_eq_of_isBlock {t : Condition} {address : Address} {part : List Step}
    (h : IsBlock address part (t.run aliases c []).steps) :
    ∃ before behind, (t.run aliases c []).lines = before ++ part.map Step.line ++ behind ∧
      ∀ line ∈ before ++ behind, ∀ below, Address.heads (address ++ below) line = false := by
  obtain ⟨before, behind, hsteps, houtside⟩ := h
  refine ⟨before.map Step.line, behind.map Step.line, ?_, ?_⟩
  · rw [Run.lines, hsteps, List.map_append, List.map_append, List.append_assoc]
  · intro line hline below
    rw [← List.map_append] at hline
    obtain ⟨step, hstep, rfl⟩ := List.mem_map.mp hline
    have hmem : step ∈ (t.run aliases c []).steps := by
      rw [hsteps]
      simp only [List.mem_append] at hstep ⊢
      exact hstep.imp_right Or.inr
    obtain ⟨o, -, ho⟩ := Condition.address_of_mem_run hmem
    rw [Bool.eq_false_iff]
    intro hheads
    have heq := (Step.heads_line_iff ho _).mp hheads
    exact houtside step hstep below (ho.trans (congrArg some heq.symm))

/-- The line that closes a group tells which child decided it, if one did. -/
theorem Step.decider_of_closed_line {address : Address} {k : Connective}
    {decider decider' : Option Nat}
    (h : (Step.closed address k decider).line = (Step.closed address k decider').line) :
    decider = decider' := by
  have hnumber : ∀ {front behind : String} {i j : Nat},
      front ++ toString i ++ behind = front ++ toString j ++ behind → i = j := by
    intro front behind i j h
    have htext := (String.append_right_inj front).mp ((String.append_left_inj behind).mp h)
    exact Address.eq_of_toString_eq htext
  -- a line with a number and one without differ right behind the name of the connective
  have hmixed : ∀ (n : Nat) {front plain rest behind : String}, n < front.toList.length →
      front.toList[n]? ≠ plain.toList[n]? →
      address.text ++ front ++ rest ++ behind ≠ address.text ++ plain := by
    intro n front plain rest behind hn hne heq
    rw [String.append_assoc, String.append_assoc] at heq
    have hchars := congrArg String.toList ((String.append_right_inj _).mp heq)
    rw [String.toList_append] at hchars
    rw [← hchars, List.getElem?_append_left hn] at hne
    exact hne rfl
  cases k with
  | and =>
      cases decider with
      | none =>
          cases decider' with
          | none => rfl
          | some j => exact absurd h.symm (hmixed 6 (by decide) (by decide))
      | some i =>
          cases decider' with
          | none => exact absurd h (hmixed 6 (by decide) (by decide))
          | some j => exact congrArg some (hnumber h)
  | or =>
      cases decider with
      | none =>
          cases decider' with
          | none => rfl
          | some j => exact absurd h.symm (hmixed 5 (by decide) (by decide))
      | some i =>
          cases decider' with
          | none => exact absurd h (hmixed 5 (by decide) (by decide))
          | some j => exact congrArg some (hnumber h)

/-- The lines are a faithful log of the evaluation of a tree. -/
structure Condition.Logged (aliases : List String) (c : Case) (t : Condition)
    (lines : List String) : Prop where
  /-- Exactly one line is about an evaluated clause. It has the value that was found and ends in
  what the comparison came to. -/
  clause : ∀ o ∈ t.evaluated (Clause.holds aliases c), ∀ clause, o.node = .clause clause →
    lines.filter o.address.heads
      = [o.address.text ++ ": " ++ clause.field ++ " (" ++
          (c.resolve aliases clause.field).value.display ++ ") " ++ clause.operator.name ++ " " ++
          clause.literal.display ++ " => " ++
          (if clause.holds aliases c then "MATCHED" else "NOT_MATCHED")]
  /-- Exactly one line is about an evaluated group without children. -/
  emptyGroup : ∀ o ∈ t.evaluated (Clause.holds aliases c), ∀ k, o.node = .group k [] →
    lines.filter o.address.heads = [o.address.text ++ ": 空条件组，直接匹配"]
  /-- Exactly two lines are about an evaluated group with children. The first one has the number of
  its children, the second one the number of the child that cut it short, if one did. Between them
  stand the lines of the children that are evaluated, one child after the other, and nowhere else
  is a line about anything in the group. -/
  group : ∀ o ∈ t.evaluated (Clause.holds aliases c), ∀ k children, o.node = .group k children →
    children ≠ [] →
    let opening := o.address.text ++ ": 开始评估 " ++ k.name ++ " 组 (共 " ++
      toString children.length ++ " 个子节点)"
    let closing := match k, decider? (Clause.holds aliases c) k children with
      | .and, some i => o.address.text ++ ": AND 短路 - 子节点 " ++ toString i ++ " 不匹配"
      | .and, none => o.address.text ++ ": AND 组全部匹配"
      | .or, some i => o.address.text ++ ": OR 短路 - 子节点 " ++ toString i ++ " 匹配"
      | .or, none => o.address.text ++ ": OR 组无匹配"
    lines.filter o.address.heads = [opening, closing] ∧
    ∃ before behind,
      lines = before ++
        (opening :: (((evaluatedChildren (Clause.holds aliases c) k children).zipIdx.flatMap
          fun e => (e.1.run aliases c (o.address ++ [e.2])).lines) ++ [closing])) ++ behind ∧
      ∀ line ∈ before ++ behind, ∀ below, Address.heads (o.address ++ below) line = false
  /-- No line is about a node that is not evaluated. -/
  unevaluated : ∀ o ∈ t.nodes, t.reaches (Clause.holds aliases c) o.address = false →
    ∀ line ∈ lines, o.address.heads line = false
  /-- Every line is about an evaluated node. -/
  evaluated : ∀ line ∈ lines,
    ∃ o ∈ t.evaluated (Clause.holds aliases c), o.address.heads line = true
  /-- No line is about two nodes. -/
  distinct : ∀ o ∈ t.nodes, ∀ o' ∈ t.nodes, ∀ line : String, o.address.heads line = true →
    o'.address.heads line = true → o = o'

/-- **FAITHFUL**: the lines of a run are a faithful log of it. -/
theorem Condition.logged_run (aliases : List String) (c : Case) (t : Condition) :
    t.Logged aliases c (t.run aliases c []).lines where
  clause := by
    rintro ⟨address, node⟩ ho clause rfl
    rw [Condition.filter_lines_run ho]
    rfl
  emptyGroup := by
    rintro ⟨address, node⟩ ho k rfl
    rw [Condition.filter_lines_run ho]
    rfl
  group := by
    rintro ⟨address, node⟩ ho k children rfl hne
    obtain ⟨first, rest, rfl⟩ := List.exists_cons_of_ne_nil hne
    intro opening closing
    have hclosing : (Step.closed address k
        (decider? (Clause.holds aliases c) k (first :: rest))).line = closing := by
      -- the text depends on the connective and on whether a child cut the group short
      dsimp only [closing]
      generalize decider? (Clause.holds aliases c) k (first :: rest) = decider
      cases k <;> cases decider <;> rfl
    rw [← hclosing]
    refine ⟨Condition.filter_lines_run ho, ?_⟩
    obtain ⟨before, behind, hlines, houtside⟩ :=
      exists_lines_eq_of_isBlock (t.isBlock_run [] _ (t.visited_eq ▸ ho))
    refine ⟨before, behind, ?_, houtside⟩
    rw [hlines, List.nil_append, Condition.steps_run_group, runChildren_eq, List.map_cons,
      List.map_append, List.map_flatMap]
    rfl
  unevaluated := by
    intro o _ hreaches line hline
    rw [Bool.eq_false_iff]
    intro hheads
    obtain ⟨o', ho', hheads'⟩ := Condition.exists_heads_of_mem_lines hline
    rw [Address.eq_of_heads hheads hheads', (List.mem_filter.mp ho').2] at hreaches
    exact nomatch hreaches
  evaluated := fun _ hline => Condition.exists_heads_of_mem_lines hline
  distinct := by
    intro o ho o' ho' line hheads hheads'
    exact List.inj_on_of_nodup_map t.nodup_address ho ho' (Address.eq_of_heads hheads hheads')

/-- **THE TRACE IS A FAITHFUL LOG.** A program that takes notes appends the lines of the run to the
lines that it has and changes nothing else about them. Conditions that a rule does not have give one
line; all others are logged node by node, each node under the text of its own address. The line that
closes a group tells which child decided it, or that no child did. -/
theorem runConditions_logged (aliases : List String) (c : Case) :
    (∀ (root : Option Group) (n : Notes),
      ((noteConditions true aliases c root).run n).2.lines
        = n.lines ++ (runConditions aliases c root).lines) ∧
    (runConditions aliases c none).lines = ["root: 无条件，直接匹配"] ∧
    (∀ root : Group, root.tree.Logged aliases c (runConditions aliases c (some root)).lines) ∧
    (Address.text [] = "root" ∧ ∀ (address : Address) (i : Nat),
      Address.text (address ++ [i]) = address.text ++ ".clauses[" ++ toString i ++ "]") ∧
    ∀ (address : Address) (k : Connective) (decider decider' : Option Nat),
      (Step.closed address k decider).line = (Step.closed address k decider').line ↔
        decider = decider' := by
  refine ⟨?_, rfl, ?_, ⟨rfl, ?_⟩, ?_⟩
  · intro root n
    rw [run_noteConditions]
    rfl
  · intro root
    exact root.tree.logged_run aliases c
  · intro address i
    exact List.foldl_concat _ _ i address
  · intro address k decider decider'
    exact ⟨Step.decider_of_closed_line, fun heq => heq ▸ rfl⟩

end RiskDecision
