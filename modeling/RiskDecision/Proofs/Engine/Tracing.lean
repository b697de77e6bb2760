import RiskDecision.Proofs.Engine.Account
import RiskDecision.Proofs.Engine.OnePass
import RiskDecision.Proofs.Evaluation.Address

/-!
# Tracing is invisible

Two engines that differ in nothing but tracing come to the same verdict and look at the same data in
the same order; only the trace tells them apart. That is said twice, because only the second form
has something to prove about programs that write while they evaluate: of what the engine gives, and
of the program that goes through the rules once and takes its notes on the way. The trace itself is
described rule by rule, and the lines in it that announce a triggered rule can be found by their
text alone (`saysTriggered`), since every other line is about a node of a condition tree or ends
otherwise.
-/

namespace RiskDecision

/-- The line announces that a rule was triggered. -/
def saysTriggered (line : String) : Bool :=
  "rule ".toList.isPrefixOf line.toList && ": TRIGGERED".toList.isSuffixOf line.toList

/-- The engine with tracing on or off. -/
def Engine.withTracing (engine : Engine) (tracing : Bool) : Engine := { engine with tracing }

/-! ## The texts of lines -/

/-- The line of a step begins with the root, be it about an address or about no conditions. -/
theorem Step.root_prefix_line (step : Step) : "root".toList <+: step.line.toList := by
  cases haddress : step.address? with
  | none =>
      cases step with
      | unconditional => exact List.prefix_append _ _
      | _ => exact nomatch haddress
  | some address =>
      obtain ⟨rest, hrest⟩ := Address.heads_iff.mp ((heads_line_iff haddress address).mpr rfl)
      rw [hrest, Address.toList_text, List.append_assoc]
      exact List.prefix_append _ _

/-- No step announces a triggered rule. -/
theorem saysTriggered_step (step : Step) : saysTriggered step.line = false := by
  have hrule : ¬ "rule ".toList <+: step.line.toList := by
    intro h
    have hroot : "root".toList <+: "rule ".toList :=
      List.prefix_of_prefix_length_le step.root_prefix_line h (by decide)
    exact absurd hroot (by decide)
  rw [saysTriggered, Bool.and_eq_false_iff]
  exact Or.inl (Bool.eq_false_iff.mpr fun h => hrule (List.isPrefixOf_iff_prefix.mp h))

/-- The line with the result for a rule announces what it says, whatever the rule is called. -/
theorem saysTriggered_rule (r : Rule) (matched : Bool) :
    saysTriggered (r.line matched) = matched := by
  have hstart : "rule ".toList.isPrefixOf (r.line matched).toList = true := by
    rw [List.isPrefixOf_iff_prefix, Rule.line]
    simp only [String.append_assoc, String.toList_append]
    exact List.prefix_append _ _
  have hend : ∀ result : String, (": " ++ result).toList
      <:+ ("rule " ++ r.id ++ ": " ++ result).toList := by
    intro result
    refine ⟨("rule " ++ r.id).toList, ?_⟩
    rw [← String.toList_append, ← String.append_assoc]
  rw [saysTriggered, hstart, Bool.true_and]
  cases matched with
  | true => exact List.isSuffixOf_iff_suffix.mpr (hend "TRIGGERED")
  | false =>
      rw [Bool.eq_false_iff]
      intro h
      have hskipped : ": SKIPPED".toList <:+ ": TRIGGERED".toList :=
        List.suffix_of_suffix_length_le (hend "SKIPPED") (List.isSuffixOf_iff_suffix.mp h)
          (by decide)
      exact absurd hskipped (by decide)

theorem Rule.line_triggered (r : Rule) : r.line true = "rule " ++ r.id ++ ": TRIGGERED" := by
  rw [line, String.append_assoc]
  rfl

/-! ## The trace -/

/-- The part of a trace that is about a rule. -/
def Rule.traceLines (aliases : List String) (c : Case) (r : Rule) : List String :=
  (runConditions aliases c r.conditions).lines ++ [r.line (r.applies aliases c)]

/-- Of the lines about a rule at most the last one announces it. -/
theorem Rule.filter_traceLines (aliases : List String) (c : Case) (r : Rule) :
    (r.traceLines aliases c).filter saysTriggered
      = ([r].filter (Rule.applies aliases c)).map fun r => r.line true := by
  have hsteps : (runConditions aliases c r.conditions).lines.filter saysTriggered = [] := by
    rw [List.filter_eq_nil_iff]
    intro line hline
    obtain ⟨step, -, rfl⟩ := List.mem_map.mp hline
    rw [saysTriggered_step]
    exact Bool.false_ne_true
  rw [traceLines, List.filter_append, hsteps, List.nil_append]
  cases happlies : r.applies aliases c with
  | true =>
      rw [List.filter_cons_of_pos (saysTriggered_rule r true), List.filter_cons_of_pos happlies]
      rfl
  | false =>
      rw [List.filter_cons_of_neg (by rw [saysTriggered_rule]; exact Bool.false_ne_true),
        List.filter_cons_of_neg (by rw [happlies]; exact Bool.false_ne_true)]
      rfl

theorem filter_flatMap_traceLines (aliases : List String) (c : Case) (rules : List Rule) :
    (rules.flatMap (Rule.traceLines aliases c)).filter saysTriggered
      = (rules.filter (Rule.applies aliases c)).map fun r => r.line true := by
  induction rules with
  | nil => rfl
  | cons r rest ih =>
      rw [List.flatMap_cons, List.filter_append, Rule.filter_traceLines, ih, ← List.map_append,
        ← List.filter_append, List.singleton_append]

namespace Engine

/-- The evaluations do not depend on tracing, nor does anything in the verdict but the trace. -/
theorem decideUnder_withTracing (engine : Engine) (policy : ScorePolicy) (rules : List Rule)
    (c : Case) :
    (engine.withTracing false).decideUnder policy rules c
      = let e := (engine.withTracing true).decideUnder policy rules c
        { e with verdict := { e.verdict with trace := [] } } := by
  rw [decideUnder, decideUnder]
  cases rules.isEmpty <;> rfl

/-- **THE TRACE** goes through the enabled rules in order. -/
theorem trace_decideUnder (engine : Engine) (policy : ScorePolicy) (rules : List Rule)
    (c : Case) :
    ((engine.withTracing true).decideUnder policy rules c).verdict.trace
      = ((Rule.inOrder rules).filter (·.enabled)).flatMap
          (Rule.traceLines engine.aliases c) := by
  by_cases hne : rules = []
  · rw [hne, Rule.inOrder_nil]
    rfl
  · have hlines : Rule.traceLines engine.aliases c
        = fun r => RuleRun.lines ⟨r, runConditions engine.aliases c r.conditions⟩ := by
      funext r
      rw [RuleRun.lines_eq, runConditions_matched]
      rfl
    rw [decideUnder_verdict _ policy hne c, hlines]
    show (runRules _ rules c).flatMap RuleRun.lines = _
    rw [runRules, List.flatMap_map]
    rfl

/-- **TRACING IS INVISIBLE.** With tracing on and off the verdicts agree in everything but the
trace, the evaluations of the rules are the same, and so are the accessors that were tried, in their
order. The same holds of the program that goes through the rules once, which does in either mode
what the engine does. Without tracing there are no lines. With it, the lines are those of the
enabled rules in their stable order, none if there are no rules: for each one the lines of its
conditions and one with the result, and the lines that announce a triggered rule name the triggered
rules of the verdict, one after the other. -/
theorem decideUnder_tracing (engine : Engine) (policy : ScorePolicy) (rules : List Rule)
    (c : Case) :
    let on := (engine.withTracing true).decideUnder policy rules c
    let off := (engine.withTracing false).decideUnder policy rules c
    off.verdict = { on.verdict with trace := [] } ∧
    off.runs = on.runs ∧
    off.probes = on.probes ∧
    (∀ tracing, (engine.withTracing tracing).decideInOnePass policy rules c
      = (if tracing then (on.verdict, ⟨on.verdict.trace, on.probes⟩)
          else ({ on.verdict with trace := [] }, ⟨[], on.probes⟩))) ∧
    (∃ ordered, Rule.StableOrder (rules.filter (·.enabled)) ordered ∧
      on.verdict.trace = ordered.flatMap fun r =>
        (runConditions engine.aliases c r.conditions).lines
          ++ [r.line (r.applies engine.aliases c)]) ∧
    ((engine.withTracing true).decideUnder policy [] c).verdict.trace = [] ∧
    on.verdict.trace.filter saysTriggered
      = on.verdict.triggered.map fun id => "rule " ++ id ++ ": TRIGGERED" := by
  intro on off
  have hoff : off = { on with verdict := { on.verdict with trace := [] } } :=
    decideUnder_withTracing engine policy rules c
  refine ⟨by rw [hoff], by rw [hoff], by rw [hoff]; rfl, ?_, ?_, rfl, ?_⟩
  · intro tracing
    rw [decideInOnePass_eq]
    cases tracing with
    | true => rfl
    | false =>
        show (off.verdict, Notes.mk off.verdict.trace off.probes) = _
        rw [hoff]
        rfl
  · exact ⟨_, (Rule.stableOrder_inOrder rules).filter _,
      trace_decideUnder engine policy rules c⟩
  · rw [trace_decideUnder, filter_flatMap_traceLines, triggered_decideUnder, List.map_map]
    exact List.map_congr_left fun r _ => r.line_triggered

end Engine

end RiskDecision
