import RiskDecision.Decoding
import RiskDecision.Json.Printer
import RiskDecision.Value.Basic

/-!
# Values and JSON

There are two ways from JSON to a value. `ofJson` takes every JSON value; an object, which is no
field value, becomes its compact text. `decode` refuses objects at any depth and agrees with
`ofJson` on everything else. The way back, `toJson`, loses only numbers that are not finite.
-/

namespace RiskDecision.Value

mutual

/-- The value that stands for any JSON value. -/
def ofJson : Json → Value
  | .null => .null
  | .bool b => .bool b
  | .int n => .number (Float.ofInt n)
  | .float x => .number x
  | .text s => .text s
  | .array items => .list (ofItems items)
  | .object members => .text (Json.object members).toText

/-- The values that stand for the items of an array. -/
def ofItems : List Json → List Value
  | [] => []
  | item :: rest => ofJson item :: ofItems rest

end

mutual

/-- The value that a JSON value without objects denotes. -/
def decode : Json → Except DecodeError Value
  | .null => .ok .null
  | .bool b => .ok (.bool b)
  | .int n => .ok (.number (Float.ofInt n))
  | .float x => .ok (.number x)
  | .text s => .ok (.text s)
  | .array items => return .list (← decodeItems items)
  | .object _ => .error (.wrongKind "value" .object)

/-- The values of the items of an array. -/
def decodeItems : List Json → Except DecodeError (List Value)
  | [] => .ok []
  | item :: rest => do
    let value ← decode item
    return value :: (← decodeItems rest)

end

mutual

/-- The JSON value of a value. -/
def toJson : Value → Json
  | .null => .null
  | .bool b => .bool b
  | .number x => Json.ofFloat x
  | .text s => .text s
  | .list items => .array (itemsToJson items)

/-- The JSON values of the items of a list. -/
def itemsToJson : List Value → List Json
  | [] => []
  | item :: rest => item.toJson :: itemsToJson rest

end

end RiskDecision.Value
