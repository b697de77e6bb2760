import RiskDecision.Decoding
import RiskDecision.Domain
import RiskDecision.Evaluation.Case
import RiskDecision.Verdict.Policy

/-!
# Engine settings

The settings of a service: which domains have their adjusted scores clamped and to which bounds,
which names stand for the record in paths, and whether verdicts carry a trace. They come from JSON
or from configuration files, so they are read through a `Reader` that knows one of these sources.
-/

namespace RiskDecision

/-- How settings are read from values of some kind. -/
structure Reader (σ ε : Type) where
  /-- The fields of a section with the declared names. -/
  fields : List String → σ → Except ε (String → Option σ)
  text : σ → Except ε String
  optionalText : σ → Except ε (Option String)
  texts : σ → Except ε (List String)
  bool : σ → Except ε Bool
  float : σ → Except ε Float
  /-- A natural number that fits the given number of bits. -/
  nat : Nat → σ → Except ε Nat

/-- A field that keeps its default when it is absent. -/
def Reader.orDefault {σ ε α : Type} (default : α) (read : σ → Except ε α) :
    Option σ → Except ε α
  | none => .ok default
  | some s => read s

/-- Reads settings from JSON, without any conversion. -/
def Reader.json : Reader Json DecodeError where
  fields declared j := do
    j.ensureNoSurplus declared
    j.fields declared
  text := Json.asText
  optionalText j := Json.optional Json.asText (some j)
  texts := Json.asTexts
  bool := Json.asBool
  float := Json.asFloat
  nat := Json.asNat

/-- The settings of a service. -/
structure Settings where
  /-- Clamp the adjusted scores of every domain. -/
  clampAll : Bool := false
  scoreMin : Float := 0
  scoreMax : Float := 1
  /-- Domains whose adjusted scores are clamped in any case. -/
  clampDomains : List String := []
  rootAliases : List String := [Case.defaultAlias]
  tracing : Bool := false
  deriving Repr

namespace Settings

/-- The adjusted scores of the domain are clamped. -/
def clamps (s : Settings) (domain : String) : Bool :=
  s.clampAll || s.clampDomains.any fun d => Text.sameIgnoringCase d domain

/-- The fields in the order of their declaration. -/
def fieldNames : List String :=
  ["clamp_adjusted_score", "score_min", "score_max", "clamp_domains", "root_aliases", "trace"]

/-- Reads settings; a field that is absent has its default. -/
def read {σ ε : Type} (r : Reader σ ε) (source : σ) : Except ε Settings := do
  let get ← r.fields fieldNames source
  let base : Settings := {}
  return {
    clampAll := ← Reader.orDefault base.clampAll r.bool (get "clamp_adjusted_score")
    scoreMin := ← Reader.orDefault base.scoreMin r.float (get "score_min")
    scoreMax := ← Reader.orDefault base.scoreMax r.float (get "score_max")
    clampDomains := ← Reader.orDefault base.clampDomains r.texts (get "clamp_domains")
    rootAliases := ← Reader.orDefault base.rootAliases r.texts (get "root_aliases")
    tracing := ← Reader.orDefault base.tracing r.bool (get "trace") }

/-- The policy of a domain whose catalog brings none. -/
def policyFor? (s : Settings) (domain : DomainName) : Option ScorePolicy :=
  if s.clamps domain.text then some (.clamped s.scoreMin s.scoreMax) else none

end Settings

end RiskDecision
