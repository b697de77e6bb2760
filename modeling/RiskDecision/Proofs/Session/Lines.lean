import RiskDecision.Proofs.Json.Printer
import RiskDecision.Proofs.Service.Run
import RiskDecision.Session

/-!
# One answer a line

A session goes from line to line, and the service that it asks changes under it; but all that ever
changes are the samples that are recorded, and these do not matter to any answer
(`answerLine_withMetrics`). So every line is answered as if it were the only one, in the order of
the lines, up to the first line that is no text. There the session breaks off: whatever comes after
that line has no answer (`unanswered_after_bytes`). What is written can be told apart again, since
no answer contains a newline.
-/

namespace RiskDecision

namespace Service

variable {ε α : Type}

/-- What an operation ended with, without the service that it leaves. -/
def resultOf : EStateM.Result ε Service α → Except ε α
  | .ok a _ => .ok a
  | .error e _ => .error e

/-- The result of an operation. -/
def result (s : Service) (op : Operation ε α) : Except ε α := resultOf (op.run s)

/-- The service with other samples. -/
def withMetrics (s : Service) (metrics : Metrics) : Service := { s with metrics }

variable (s : Service) (metrics : Metrics)

@[simp] theorem withMetrics_metrics : s.withMetrics s.metrics = s := rfl

theorem withSamples_withMetrics (samples : Metrics) :
    (s.withMetrics metrics).withSamples samples = s.withMetrics (metrics ++ samples) := rfl

/-- Whatever was recorded, a case is decided alike. -/
theorem result_evaluateCase (isOpen : s.closed = false) (domain : String) (c : Case) :
    (s.withMetrics metrics).result (evaluateCase domain c)
      = s.result (evaluateCase domain c) := by
  have hopen : (s.withMetrics metrics).closed = false := isOpen
  have hstore : (s.withMetrics metrics).store.get? domain = s.store.get? domain := rfl
  rw [result, result, run_evaluateCase isOpen, run_evaluateCase hopen, hstore]
  cases s.store.get? domain <;> rfl

theorem result_evaluateTransaction (isOpen : s.closed = false) (domain : BusinessDomain)
    (t : Transaction) (score : Float) (features : Option Features)
    (clientContext : Option (Dictionary Json)) :
    (s.withMetrics metrics).result (evaluateTransaction domain t score features clientContext)
      = s.result (evaluateTransaction domain t score features clientContext) := by
  have hopen : (s.withMetrics metrics).closed = false := isOpen
  have hstore : (s.withMetrics metrics).store.contains domain.name
      = s.store.contains domain.name := rfl
  rw [result, result, run_evaluateTransaction isOpen, run_evaluateTransaction hopen, hstore]
  by_cases hdomain : t.domain ≠ domain
  · rw [if_pos hdomain, if_pos hdomain]
    rfl
  · rw [if_neg hdomain, if_neg hdomain]
    cases s.store.contains domain.name with
    | false => rfl
    | true =>
      cases t.featuresOr features with
      | error f => rfl
      | ok features => exact result_evaluateCase s metrics isOpen domain.name _

/-- **SAMPLES** do not matter to the result of a request. -/
theorem result_evaluate (r : Request) :
    (s.withMetrics metrics).result (evaluate r) = s.result (evaluate r) := by
  cases hclosed : s.closed with
  | true =>
      have hclosed' : (s.withMetrics metrics).closed = true := hclosed
      rw [result, result, evaluate, run_ensureOpen_bind_of_closed hclosed,
        run_ensureOpen_bind_of_closed hclosed']
      rfl
  | false =>
      have hopen : (s.withMetrics metrics).closed = false := hclosed
      rw [result, result, run_evaluate hclosed, run_evaluate hopen]
      cases BusinessDomain.ofText? r.domain with
      | none => rfl
      | some domain =>
          dsimp only
          cases Transaction.ofJson domain r.transaction with
          | error f => rfl
          | ok t => exact result_evaluateTransaction s metrics hclosed domain t _ _ _

/-- An evaluation leaves everything but the samples as it was. -/
theorem after_evaluate (r : Request) : ∃ samples, s.after (evaluate r) = s.withSamples samples := by
  cases hclosed : s.closed with
  | true =>
      have hrefused : (evaluate r).run s = .error .serviceClosed s :=
        run_ensureOpen_bind_of_closed hclosed _
      refine ⟨[], ?_⟩
      rw [after_of_error hrefused, withSamples_nil]
  | false => exact (evaluated_evaluate hclosed r).after

end Service

namespace Session

/-- The text of a line. -/
def textOf? (line : List UInt8) : Option String := String.fromUTF8? ⟨line.toArray⟩

/-- The line is a text. -/
def isText (line : List UInt8) : Bool := (textOf? line).isSome

/-- The answer that a service gives to a line if it is asked nothing else. -/
def answerTo? (s : Service) (line : List UInt8) : Option Answer :=
  (textOf? line).bind fun text => (answerLine s text).1

/-- What is written for answers. -/
def written : List Answer → String
  | [] => ""
  | a :: rest => a.line ++ written rest

/-- What is written in answer to a line, if anything. -/
inductive Answered (s : Service) (line : List UInt8) : Option Json → Prop
  | unreadable (h : textOf? line = none) : Answered s line none
  | blank {text : String} (h : textOf? line = some text) (blank : Text.isAllBlank text = true) :
    Answered s line none
  | badRequest {text : String} {e : RequestError} (h : textOf? line = some text)
    (notBlank : Text.isAllBlank text = false) (malformed : Request.ofText text = .error e) :
    Answered s line (some (.object [("error", .text Answer.badRequestMessage)]))
  | fault {text : String} {r : Request} {f : Fault} (h : textOf? line = some text)
    (notBlank : Text.isAllBlank text = false) (request : Request.ofText text = .ok r)
    (result : s.result (Service.evaluate r) = .error f) :
    Answered s line (some (.object [("error", .text f.message)]))
  | verdict {text : String} {r : Request} {v : Verdict} (h : textOf? line = some text)
    (notBlank : Text.isAllBlank text = false) (request : Request.ofText text = .ok r)
    (result : s.result (Service.evaluate r) = .ok v) : Answered s line (some v.toJson)

/-! ## One line -/

/-- The answer to a line by the result of its request. -/
def answerBy (text : String) (result : Request → Except Fault Verdict) : Option Answer :=
  if Text.isAllBlank text then none
  else
    match Request.ofText text with
    | .error e => some (.badRequest e)
    | .ok request =>
      match result request with
      | .ok v => some (.verdict v)
      | .error f => some (.fault f)

/-- **ONE LINE**: it is answered by the result of its request, and the service records something or
nothing. -/
theorem answerLine_eq (s : Service) (text : String) :
    ∃ samples, answerLine s text
      = (answerBy text fun r => s.result (Service.evaluate r), s.withSamples samples) := by
  rw [answerLine, answerBy]
  cases Text.isAllBlank text with
  | true => exact ⟨[], by rw [Service.withSamples_nil]; rfl⟩
  | false =>
      rw [if_neg Bool.false_ne_true, if_neg Bool.false_ne_true]
      cases Request.ofText text with
      | error e => exact ⟨[], by rw [Service.withSamples_nil]⟩
      | ok r =>
          obtain ⟨samples, hsamples⟩ := s.after_evaluate r
          refine ⟨samples, ?_⟩
          rw [← hsamples]
          dsimp only [Service.after, Service.result]
          cases (Service.evaluate r).run s <;> rfl

theorem answerLine_fst (s : Service) (text : String) :
    (answerLine s text).1 = answerBy text fun r => s.result (Service.evaluate r) := by
  obtain ⟨samples, h⟩ := answerLine_eq s text
  rw [h]

/-- **SAMPLES** do not matter to an answer. -/
theorem answerLine_withMetrics (s : Service) (metrics : Metrics) (text : String) :
    (answerLine (s.withMetrics metrics) text).1 = (answerLine s text).1 := by
  rw [answerLine_fst, answerLine_fst]
  simp only [Service.result_evaluate]

theorem answered_answerTo? (s : Service) (line : List UInt8) :
    Answered s line ((answerTo? s line).map Answer.toJson) := by
  rw [answerTo?]
  cases htext : textOf? line with
  | none => exact .unreadable htext
  | some text =>
      rw [Option.bind_some, answerLine_fst, answerBy]
      cases hblank : Text.isAllBlank text with
      | true => exact .blank htext hblank
      | false =>
          rw [if_neg Bool.false_ne_true]
          cases hrequest : Request.ofText text with
          | error e => exact .badRequest htext hblank hrequest
          | ok r =>
              dsimp only
              cases hresult : s.result (Service.evaluate r) with
              | error f => exact .fault htext hblank hrequest hresult
              | ok v => exact .verdict htext hblank hrequest hresult

/-- There is an answer to every text that is not blank, and to nothing else. -/
theorem isSome_answerTo? (s : Service) (line : List UInt8) :
    (answerTo? s line).isSome = (textOf? line).any fun text => !Text.isAllBlank text := by
  have h := answered_answerTo? s line
  have hsome : (answerTo? s line).isSome = ((answerTo? s line).map Answer.toJson).isSome :=
    Option.isSome_map.symm
  rw [hsome]
  generalize (answerTo? s line).map Answer.toJson = answer at h ⊢
  cases h with
  | unreadable h => rw [h]; rfl
  | blank h blank => rw [h, Option.any_some, blank]; rfl
  | badRequest h notBlank => rw [h, Option.any_some, notBlank]; rfl
  | fault h notBlank => rw [h, Option.any_some, notBlank]; rfl
  | verdict h notBlank => rw [h, Option.any_some, notBlank]; rfl

/-! ## All lines -/

/-- **ALL LINES**: whatever was recorded before, each line is answered by what the service was at
first, as long as there are only texts. -/
theorem answerLines_withMetrics (s : Service) (lines : List (List UInt8)) (metrics : Metrics) :
    answerLines (s.withMetrics metrics) lines
      = ((lines.takeWhile isText).filterMap (answerTo? s),
          if lines.all isText then .finished else .unreadableLine) := by
  induction lines generalizing metrics with
  | nil => rfl
  | cons line rest ih =>
      rw [answerLines, answerBytes, ← textOf?]
      cases htext : textOf? line with
      | none =>
          have hnot : isText line = false := by rw [isText, htext]; rfl
          rw [List.takeWhile_cons_of_neg (by rw [hnot]; exact Bool.false_ne_true), List.all_cons,
            hnot]
          rfl
      | some text =>
          have his : isText line = true := by rw [isText, htext]; rfl
          obtain ⟨samples, hanswer⟩ := answerLine_eq (s.withMetrics metrics) text
          have hsame := answerLine_withMetrics s metrics text
          rw [hanswer] at hsame
          dsimp only at hsame
          have halone : answerTo? s line = (answerLine s text).1 := by
            rw [answerTo?, htext, Option.bind_some]
          dsimp only
          rw [hanswer, Service.withSamples_withMetrics]
          dsimp only
          rw [ih, hsame, ← halone, List.takeWhile_cons_of_pos his, List.all_cons, his,
            Bool.true_and, List.filterMap_cons]
          cases answerTo? s line <;> rfl

/-- The lines that are written are the texts of the answers. -/
theorem split_written (answers : List Answer) :
    Text.split '\n' (written answers) = answers.map (·.toJson.toText) ++ [""] := by
  induction answers with
  | nil => rfl
  | cons a rest ih =>
      have hline : Text.split '\n' a.toJson.toText = [a.toJson.toText] :=
        Text.split_of_not_mem (Json.plain_toText a.toJson).newline_not_mem
      rw [written, Answer.line, show "\n" = String.singleton '\n' from rfl, Text.split_append,
        hline, ih]
      rfl

/-- **ONE ANSWER A LINE.** The lines up to the first one that is no text are answered in their
order, each one as the service that was there at first answers it alone: a blank line by nothing,
any other by a verdict or an error, whatever else was recorded so far. If all lines are texts, the
session ends with the input, else it breaks off. What is written for the answers consists of one
line for each of them. -/
theorem serve_lines (s : Service) (input : List UInt8) :
    let lines := splitLines input
    let answers := (lines.takeWhile isText).filterMap (answerTo? s)
    serve s input = (answers, if lines.all isText then .finished else .unreadableLine) ∧
    (∀ metrics, serve (s.withMetrics metrics) input = serve s input) ∧
    (∀ line, Answered s line ((answerTo? s line).map Answer.toJson) ∧
      (answerTo? s line).isSome = (textOf? line).any fun text => !Text.isAllBlank text) ∧
    Text.split '\n' (written answers) = answers.map (·.toJson.toText) ++ [""] := by
  intro lines answers
  have hserve : ∀ metrics, serve (s.withMetrics metrics) input
      = (answers, if lines.all isText then .finished else .unreadableLine) :=
    answerLines_withMetrics s lines
  refine ⟨hserve s.metrics, ?_, ?_, split_written answers⟩
  · intro metrics
    rw [hserve metrics, ← hserve s.metrics, Service.withMetrics_metrics]
  · exact fun line => ⟨answered_answerTo? s line, isSome_answerTo? s line⟩

/-- A line that is no text costs the next one its answer. -/
theorem unanswered_after_bytes :
    let s := Service.start {}
    (serve s [255, 10, 123, 125, 10]).1.length = 0 ∧
      (serve s [255, 10, 123, 125, 10]).2 = .unreadableLine ∧
      (answerTo? s [123, 125]).isSome = true := by
  decide +kernel

end Session

end RiskDecision
