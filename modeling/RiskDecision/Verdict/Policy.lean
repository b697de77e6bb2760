import RiskDecision.Decoding

/-!
# Score policies

Every time an action moves the score, a policy decides what becomes of the sum: it stays as it is,
or it is moved to the nearest point between two bounds. The bounds are applied one after the other,
the lower one first, so exchanged bounds are no error: the upper bound then wins. A bound or score
that is no number is passed over. Of a score and a bound that are equal the bound is taken, which
shows only in the sign of zero.
-/

namespace RiskDecision

/-- What becomes of an adjusted score. -/
inductive ScorePolicy
  | unclamped
  | clamped (low high : Float)
  deriving Repr

namespace ScorePolicy

/-- The larger of two numbers, where one that is no number does not count; the second one if they
are equal. -/
def larger (x y : Float) : Float := if y.isNaN || x > y then x else y

/-- The smaller of two numbers, where one that is no number does not count; the second one if they
are equal. -/
def smaller (x y : Float) : Float := if y.isNaN || x < y then x else y

/-- The score under the policy. -/
def apply : ScorePolicy → Float → Float
  | .unclamped, score => score
  | .clamped low high, score => smaller (larger score low) high

/-- Scores between zero and one. -/
def unitInterval : ScorePolicy := .clamped 0 1

/-- The fields of a policy that clamps. -/
def boundNames : List String := ["min", "max"]

/-- Reads the bounds of a policy that clamps. -/
def decodeBounds (get : Json.Fields) : Except DecodeError ScorePolicy := do
  let low ← Json.required "min" Json.asFloat (get "min")
  let high ← Json.required "max" Json.asFloat (get "max")
  return .clamped low high

/-- Reads a policy: an object with its mode and bounds, or an array of the same. -/
def decode : Json → Except DecodeError ScorePolicy
  | .object members => do
    match ← Json.required "mode" Json.asText (Dictionary.find? "mode" members) with
    | "unclamped" => return .unclamped
    | "clamped" => decodeBounds fun name => Dictionary.find? name members
    | mode => throw (.unknownMode mode)
  | .array (mode :: bounds) => do
    match ← Json.asText mode with
    | "unclamped" => if bounds.isEmpty then return .unclamped else throw (.surplus 1)
    | "clamped" => (Json.array bounds).record boundNames decodeBounds
    | mode => throw (.unknownMode mode)
  | .array [] => throw (.missing "mode")
  | j => throw (.wrongKind "object or array" j.kind)

/-- Writes a policy. -/
def toJson : ScorePolicy → Json
  | .unclamped => .object [("mode", .text "unclamped")]
  | .clamped low high =>
    .object [("max", .ofFloat high), ("min", .ofFloat low), ("mode", .text "clamped")]

end ScorePolicy

end RiskDecision
