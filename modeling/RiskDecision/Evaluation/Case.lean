import RiskDecision.Features.Basic
import RiskDecision.Record.Path
import RiskDecision.Text.Ascii

/-!
# The case to decide

A case is everything that a decision looks at: the record, the score that a model gave to the
transaction, and the features. Rules name what they look at by a path. The score has a path of its
own, features have a common first segment, and every other path leads into the record; there a first
segment that is only an alias for the record is skipped.
-/

namespace RiskDecision

/-- A transaction with all that is known about it. -/
structure Case where
  record : View
  score : Float
  features : Features
  /-- What the client sent along. It is carried with the case and no path leads to it. -/
  clientContext : Option (Dictionary Json)

namespace Case

/-- The path of the score, in any case of its letters. -/
def scorePath : String := "mlScore"

/-- The first segment of the path of a feature, with its point. -/
def featureStart : String := "preprocessed."

/-- The name that stands for the record where no other is configured. -/
def defaultAlias : String := "rawInput"

/-- The segment is an alias of the record. -/
def isAlias (aliases : List String) (segment : String) : Bool :=
  aliases.any fun a => Text.sameIgnoringCase a segment

/-- The segments without a first one that is an alias. A path of one segment keeps it. -/
def dropAlias (aliases : List String) : List String → List String
  | first :: second :: rest =>
    if isAlias aliases first then second :: rest else first :: second :: rest
  | segments => segments

/-- The value that a path leads to. -/
def resolve (aliases : List String) (c : Case) (path : String) : Lookup :=
  if Text.isAllBlank path then ⟨.null, []⟩
  else if Text.sameIgnoringCase path scorePath then ⟨.number c.score, []⟩
  else
    match Text.after? featureStart path with
    | some name => ⟨c.features.value name, []⟩
    | none => c.record.follow (dropAlias aliases (Text.split '.' path))

end Case

end RiskDecision
