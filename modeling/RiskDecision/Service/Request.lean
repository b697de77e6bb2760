import RiskDecision.Features.Basic
import RiskDecision.Json.Parser
import RiskDecision.Value.Json

/-!
# Requests

A request names the domain, the transaction and the score of the model; features and further context
may come along. A request that is read from a text is looked at field by field: a field that is
written twice is an error, a member that is no field is not even looked into, and a feature that is
written twice has to be a value both times.
-/

namespace RiskDecision

/-- A request for a decision. -/
structure Request where
  domain : String
  transaction : Json
  score : Float
  features : Option Features
  clientContext : Option (Dictionary Json)

/-- Why a text is no request. -/
inductive RequestError
  | flaw (f : Json.Flaw)
  | shape (e : DecodeError)
  deriving Repr

namespace Request

/-- The fields in the order of their declaration. -/
def fieldNames : List String := ["domain", "transaction", "mlScore", "features", "clientContext"]

/-- Reads features. -/
def decodeFeatures : Json → Except DecodeError Features
  | .object members => members.mapM fun m => return (m.1, ← Value.decode m.2)
  | j => .error (.wrongKind "object" j.kind)

/-- Reads the context of the client. -/
def decodeContext : Json → Except DecodeError (Dictionary Json)
  | .object members => .ok members
  | j => .error (.wrongKind "object" j.kind)

/-- Reads a request. -/
def decode (j : Json) : Except DecodeError Request :=
  j.record fieldNames fun get => do
    let domain ← Json.required "domain" Json.asText (get "domain")
    let transaction ← Json.required "transaction" .ok (get "transaction")
    let score ← Json.required "mlScore" Json.asFloat (get "mlScore")
    let features ← Json.optional decodeFeatures (get "features")
    let clientContext ← Json.optional decodeContext (get "clientContext")
    return ⟨domain, transaction, score, features, clientContext⟩

/-- Every feature that is written is a value. -/
def checkFeatures : Option Json.Written → Except RequestError Unit
  | some (.object members) =>
    members.forM fun m => do
      let j ← m.2.value.mapError .flaw
      let _ ← (Value.decode j).mapError .shape
  | _ => .ok ()

/-- The members of a written object that are fields of a request, in the written order. -/
def writtenFields (members : List (Json.Quoted × Json.Written)) :
    Except RequestError (List (String × Json.Written)) := do
  let named ← members.mapM fun m => return (← (Json.Quoted.value m.1).mapError .flaw, m.2)
  let known := named.filter fun m => fieldNames.contains m.1
  match fieldNames.find? fun name => 1 < known.countP (·.1 == name) with
  | some name => throw (.shape (.repeated name))
  | none => return known

/-- The value of a written request, without the members that are no fields. -/
def writtenValue : Json.Written → Except RequestError Json
  | .object members => do
    let known ← writtenFields members
    checkFeatures (known.lookup "features")
    let values ← known.mapM fun m =>
      return (m.1, ← (m.2.valueWithin (Json.maxDepth - 1)).mapError .flaw)
    return .ofMembers values
  | w => do
    match w with
    | .array items => checkFeatures items[3]?
    | _ => pure ()
    w.value.mapError .flaw

/-- Reads a request from a text. -/
def ofText (text : String) : Except RequestError Request := do
  let written ← (Json.Written.ofText text).mapError .flaw
  let j ← writtenValue written
  (decode j).mapError .shape

end Request

end RiskDecision
