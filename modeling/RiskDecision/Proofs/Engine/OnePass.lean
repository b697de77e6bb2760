import RiskDecision.Proofs.Engine.Account

/-!
# Deciding in one pass

An engine first evaluates the conditions of all rules and then applies actions; the trace and the
probes are read off the logged steps when all is done. A program that keeps notes has no such log:
it goes through the rules once, applies the actions of each rule that holds right away, notes every
accessor at the moment it is tried, and writes every line of the trace, if it is to be traced at
all, at the moment it comes up. `Engine.decideInOnePass` is that program. Its steps into and out of
groups and their lines are interleaved, so it is not obvious that tracing leaves the rest alone, nor
that no line gets lost where a group is left early. The main statement, `decideInOnePass_eq`, says
that it arrives at the verdict of the engine, with its trace and its probes.
-/

namespace RiskDecision

/-- What is noted on the way. -/
structure Notes where
  lines : List String
  probes : List Probe

namespace Notes

/-- Nothing is noted yet. -/
def empty : Notes := ⟨[], []⟩

/-- The notes with what the steps of an evaluation give to note. -/
def add (tracing : Bool) (n : Notes) (steps : List Step) : Notes :=
  ⟨n.lines ++ (if tracing then steps.map Step.line else []), n.probes ++ steps.flatMap Step.probes⟩

/-- The notes with one more line, if there are to be any. -/
def addLine (tracing : Bool) (n : Notes) (line : String) : Notes :=
  if tracing then { n with lines := n.lines ++ [line] } else n

theorem add_append (tracing : Bool) (n : Notes) (steps steps' : List Step) :
    n.add tracing (steps ++ steps') = (n.add tracing steps).add tracing steps' := by
  cases tracing with
  | true => simp only [add, if_true, List.map_append, List.flatMap_append, List.append_assoc]
  | false =>
      simp only [add, Bool.false_eq_true, if_false, List.append_nil, List.flatMap_append,
        List.append_assoc]

/-- What a single step gives to note. -/
theorem add_singleton (tracing : Bool) (n : Notes) (step : Step) :
    n.add tracing [step]
      = addLine tracing { n with probes := n.probes ++ step.probes } step.line := by
  rw [add, addLine, List.flatMap_cons, List.flatMap_nil, List.append_nil]
  cases tracing with
  | true => rfl
  | false => rw [if_neg Bool.false_ne_true, if_neg Bool.false_ne_true, List.append_nil]

/-- A step without probes leaves its line only. -/
theorem add_line (tracing : Bool) (n : Notes) {step : Step} (h : step.probes = []) :
    n.add tracing [step] = n.addLine tracing step.line := by
  rw [add_singleton, h, List.append_nil]

end Notes

/-- A computation that takes notes. -/
abbrev Noting (α : Type) := StateM Notes α

/-- Writes a line of the trace, if there is to be one. -/
def noteLine (tracing : Bool) (line : String) : Noting Unit :=
  modify fun n => n.addLine tracing line

/-- Notes accessors that were tried. -/
def noteProbes (probes : List Probe) : Noting Unit :=
  modify fun n => { n with probes := n.probes ++ probes }

/-- Evaluates a clause and takes notes. -/
def Clause.note (tracing : Bool) (aliases : List String) (c : Case) (address : Address)
    (clause : Clause) : Noting Bool := do
  let lookup := c.resolve aliases clause.field
  noteProbes lookup.probes
  let outcome := Clause.test clause.operator lookup.value clause.literal
  noteLine tracing (Step.clause address clause lookup outcome).line
  return verdictOf outcome

mutual

/-- Evaluates a node and takes notes. -/
def Condition.note (tracing : Bool) (aliases : List String) (c : Case) (address : Address) :
    Condition → Noting Bool
  | .clause clause => clause.note tracing aliases c address
  | .group connective children =>
    match children with
    | [] => do
      noteLine tracing (Step.emptyGroup address).line
      return true
    | first :: rest => do
      noteLine tracing (Step.opened address connective (first :: rest).length).line
      noteChildren tracing aliases c address connective 0 (first :: rest)

/-- Goes through the children of a group from the child with the given number on, and leaves at the
first one that decides the group. -/
def noteChildren (tracing : Bool) (aliases : List String) (c : Case) (address : Address)
    (connective : Connective) (number : Nat) : List Condition → Noting Bool
  | [] => do
    noteLine tracing (Step.closed address connective none).line
    return !connective.decisive
  | child :: rest => do
    let matched ← child.note tracing aliases c (address ++ [number])
    if matched = connective.decisive then
      noteLine tracing (Step.closed address connective (some number)).line
      return connective.decisive
    else noteChildren tracing aliases c address connective (number + 1) rest

end

/-- Evaluates the conditions of a rule and takes notes. -/
def noteConditions (tracing : Bool) (aliases : List String) (c : Case) :
    Option Group → Noting Bool
  | none => do
    noteLine tracing Step.unconditional.line
    return true
  | some root => (Condition.group root.connective root.children).note tracing aliases c []

/-- The line of a trace that gives the result for a rule. -/
def Rule.line (r : Rule) (matched : Bool) : String :=
  "rule " ++ r.id ++ ": " ++ if matched then "TRIGGERED" else "SKIPPED"

/-- Goes through rules: a disabled one is passed over, and the actions of one that holds are applied
before the next one is looked at. -/
def Engine.noteRules (engine : Engine) (policy : ScorePolicy) (c : Case) :
    List Rule → Verdict → Noting Verdict
  | [], v => return v
  | r :: rest, v => do
    if r.enabled then
      let matched ← noteConditions engine.tracing engine.aliases c r.conditions
      noteLine engine.tracing (r.line matched)
      if matched then
        engine.noteRules policy c rest
          (Action.applyAll policy { v with triggered := v.triggered ++ [r.id] } r.actions)
      else engine.noteRules policy c rest v
    else engine.noteRules policy c rest v

/-- Decides a case by rules in one pass. -/
def Engine.decideInOnePass (engine : Engine) (policy : ScorePolicy) (rules : List Rule)
    (c : Case) : Verdict × Notes :=
  let start := Verdict.start c.score
  if rules.isEmpty then (start.allow Verdict.noRules, .empty)
  else
    let (v, notes) := (engine.noteRules policy c (Rule.inOrder rules) start).run .empty
    ({ v.settle with trace := notes.lines }, notes)

/-! ## Conditions -/

variable {aliases : List String} {c : Case}

/-- What comes second starts from the notes that came first. -/
theorem run_bind_noting {α β : Type} (x : Noting α) (next : α → Noting β) (n : Notes) :
    (x >>= next).run n = (next (x.run n).1).run (x.run n).2 := rfl

theorem run_return_noting {α : Type} (a : α) (n : Notes) : (return a : Noting α).run n = (a, n) :=
  rfl

theorem run_noteLine (tracing : Bool) (line : String) (n : Notes) :
    (noteLine tracing line).run n = ((), n.addLine tracing line) := rfl

/-- **CLAUSES**: the notes are those of the one step that is logged. -/
theorem Clause.run_note (tracing : Bool) (clause : Clause) (address : Address) (n : Notes) :
    (clause.note tracing aliases c address).run n
      = ((clause.run aliases c address).matched,
          n.add tracing (clause.run aliases c address).steps) := by
  rw [Clause.run, Notes.add_singleton]
  rfl

mutual

/-- **NODES**: taking notes gives the result of the run and the notes of its steps. -/
theorem Condition.run_note (tracing : Bool) :
    ∀ (t : Condition) (address : Address) (n : Notes),
      (t.note tracing aliases c address).run n
        = ((t.run aliases c address).matched, n.add tracing (t.run aliases c address).steps)
  | .clause clause, address, n => Clause.run_note tracing clause address n
  | .group k [], address, n => by
      rw [Condition.note, Condition.run, Notes.add_line tracing n rfl]
      rfl
  | .group k (first :: rest), address, n => by
      have hopened : (Step.opened address k (first :: rest).length).probes = [] := rfl
      rw [Condition.note, run_bind_noting, run_noteLine,
        run_noteChildren tracing (first :: rest) address k 0, Condition.run_group_matched,
        Condition.run, ← Notes.add_line tracing n hopened, ← Notes.add_append,
        List.singleton_append]

/-- The children of a group: the line that closes the group comes right after their own. -/
theorem run_noteChildren (tracing : Bool) :
    ∀ (children : List Condition) (address : Address) (k : Connective) (number : Nat) (n : Notes),
      (noteChildren tracing aliases c address k number children).run n
        = (if (runChildren aliases c address k number children).1.isSome then k.decisive
            else !k.decisive,
          n.add tracing ((runChildren aliases c address k number children).2
            ++ [.closed address k (runChildren aliases c address k number children).1]))
  | [], address, k, number, n => by
      rw [noteChildren, runChildren, run_bind_noting, run_noteLine, run_return_noting,
        List.nil_append, Notes.add_line tracing n rfl]
      rfl
  | child :: rest, address, k, number, n => by
      rw [noteChildren, runChildren, run_bind_noting,
        Condition.run_note tracing child (address ++ [number]) n]
      -- a decisive child closes the group at once, after any other one the rest is gone through
      by_cases hd : (child.run aliases c (address ++ [number])).matched = k.decisive
      · rw [if_pos hd, if_pos hd, run_bind_noting, run_noteLine, run_return_noting,
          Notes.add_append, Notes.add_line tracing _ rfl]
        rfl
      · rw [if_neg hd, if_neg hd, run_noteChildren tracing rest address k (number + 1)]
        obtain ⟨decider, steps⟩ := runChildren aliases c address k (number + 1) rest
        dsimp only
        rw [List.append_assoc, Notes.add_append tracing n, Notes.add_append]

end

theorem run_noteConditions (tracing : Bool) (root : Option Group) (n : Notes) :
    (noteConditions tracing aliases c root).run n
      = ((runConditions aliases c root).matched,
          n.add tracing (runConditions aliases c root).steps) := by
  cases root with
  | none =>
      rw [runConditions, Notes.add_line tracing n rfl]
      rfl
  | some root =>
      exact Condition.run_note tracing (.group root.connective root.children) [] n

/-! ## Rules -/

/-- The lines of a rule are those of its conditions and the one that gives the result. -/
theorem RuleRun.lines_eq (r : RuleRun) :
    r.lines = r.run.lines ++ [r.rule.line r.run.matched] := rfl

/-- The notes with what the evaluations of rules give to note. -/
def Notes.addRuns (tracing : Bool) (n : Notes) (runs : List RuleRun) : Notes :=
  ⟨n.lines ++ (if tracing then runs.flatMap RuleRun.lines else []),
    n.probes ++ runs.flatMap (·.run.probes)⟩

theorem Notes.addRuns_cons (tracing : Bool) (n : Notes) (r : RuleRun) (rest : List RuleRun) :
    n.addRuns tracing (r :: rest)
      = ((n.add tracing r.run.steps).addLine tracing (r.rule.line r.run.matched)).addRuns tracing
          rest := by
  cases tracing with
  | true =>
      simp only [addRuns, add, addLine, if_true, List.flatMap_cons, RuleRun.lines_eq,
        List.append_assoc]
      rfl
  | false =>
      simp only [addRuns, add, addLine, Bool.false_eq_true, if_false, List.append_nil,
        List.flatMap_cons, List.append_assoc]
      rfl

namespace Engine

/-- **ALL RULES**: going through them once has the effect of the evaluations of the enabled ones. -/
theorem run_noteRules (engine : Engine) (policy : ScorePolicy) (c : Case) (rules : List Rule)
    (v : Verdict) (n : Notes) :
    (engine.noteRules policy c rules v).run n
      = let runs := (rules.filter (·.enabled)).map fun r =>
          RuleRun.mk r (runConditions engine.aliases c r.conditions)
        (runs.foldl (RuleRun.apply policy) v, n.addRuns engine.tracing runs) := by
  induction rules generalizing v n with
  | nil =>
      show (v, n) = (v, Notes.addRuns engine.tracing n [])
      cases htracing : engine.tracing <;> simp [Notes.addRuns]
  | cons r rest ih =>
      rw [noteRules]
      cases henabled : r.enabled with
      | false =>
          rw [List.filter_cons_of_neg (by rw [henabled]; exact Bool.false_ne_true)]
          exact ih v n
      | true =>
          rw [List.filter_cons_of_pos henabled, if_pos rfl, run_bind_noting, run_noteConditions,
            run_bind_noting, run_noteLine, List.map_cons]
          dsimp only
          rw [List.foldl_cons, Notes.addRuns_cons, RuleRun.apply]
          cases (runConditions engine.aliases c r.conditions).matched with
          | true => exact ih _ _
          | false => exact ih _ _

/-- **ONE PASS** arrives where the engine does: at the same verdict with the same trace, after the
same accessors were tried in the same order. -/
theorem decideInOnePass_eq (engine : Engine) (policy : ScorePolicy) (rules : List Rule)
    (c : Case) :
    engine.decideInOnePass policy rules c
      = ((engine.decideUnder policy rules c).verdict,
          ⟨(engine.decideUnder policy rules c).verdict.trace,
            (engine.decideUnder policy rules c).probes⟩) := by
  rw [decideInOnePass, decideUnder]
  cases rules.isEmpty with
  | true => rfl
  | false =>
      rw [if_neg Bool.false_ne_true, if_neg Bool.false_ne_true, run_noteRules]
      rfl

end Engine

end RiskDecision
