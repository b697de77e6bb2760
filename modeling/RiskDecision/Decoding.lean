import RiskDecision.Decimal.Width
import RiskDecision.Json.Basic

/-!
# Decoding JSON into domain types

A record is written as an object, its fields by name, or as an array, its fields by position in the
order of their declaration. Both ways lead to the same function from field names to values, so a
decoder is written once. Unknown members of an object are ignored; further items of an array are an
error. A field that is absent takes its default, if it has one; a written null value stands for the
default only where the decoder says so.
-/

namespace RiskDecision

/-- Why a JSON value is not of the expected form. -/
inductive DecodeError
  | wrongKind (expected : String) (actual : Json.Kind)
  | outOfRange (n : Int)
  | missing (field : String)
  | repeated (field : String)
  | surplus (declared : Nat)
  | unknownConnective (name : String)
  | unknownMode (name : String)
  deriving Repr, DecidableEq

/-- The wording of a decoding error. -/
def DecodeError.message : DecodeError → String
  | .wrongKind expected actual => "expected " ++ expected ++ ", found " ++ actual.name
  | .outOfRange n => "integer out of range: " ++ toString n
  | .missing field => "missing field " ++ field
  | .repeated field => "repeated field " ++ field
  | .surplus declared => "more than " ++ toString declared ++ " fields"
  | .unknownConnective name => "不支持的操作符: logicalOperator '" ++ name ++ "'"
  | .unknownMode name => "unknown mode " ++ name

namespace Json

/-- The fields of a record by name. -/
abbrev Fields := String → Option Json

/-- The fields of a record with the declared field names. -/
def fields (declared : List String) : Json → Except DecodeError Fields
  | .object members => .ok fun name => Dictionary.find? name members
  | .array items => .ok fun name => (declared.zip items).lookup name
  | j => .error (.wrongKind "object or array" j.kind)

/-- Fails if an array has items beyond the declared fields. -/
def ensureNoSurplus (declared : List String) : Json → Except DecodeError Unit
  | .array items =>
    if declared.length < items.length then .error (.surplus declared.length) else .ok ()
  | _ => .ok ()

/-- A text. -/
def asText : Json → Except DecodeError String
  | .text s => .ok s
  | j => .error (.wrongKind "string" j.kind)

/-- A truth value. -/
def asBool : Json → Except DecodeError Bool
  | .bool b => .ok b
  | j => .error (.wrongKind "bool" j.kind)

/-- A number; an integer becomes the nearest double. -/
def asFloat : Json → Except DecodeError Float
  | .int n => .ok (Float.ofInt n)
  | .float x => .ok x
  | j => .error (.wrongKind "number" j.kind)

/-- An integer with a sign that fits the given number of bits. -/
def asInt (bits : Nat) : Json → Except DecodeError Int
  | .int n => if Decimal.fitsSigned bits n then .ok n else .error (.outOfRange n)
  | j => .error (.wrongKind "integer" j.kind)

/-- A natural number that fits the given number of bits. -/
def asNat (bits : Nat) : Json → Except DecodeError Nat
  | .int n =>
    if 0 ≤ n && Decimal.fitsNatural bits n.toNat then .ok n.toNat else .error (.outOfRange n)
  | j => .error (.wrongKind "integer" j.kind)

/-- A list of texts. -/
def asTexts : Json → Except DecodeError (List String)
  | .array items => items.mapM asText
  | j => .error (.wrongKind "array" j.kind)

variable {α : Type}

/-- Reads a record with the declared field names. Errors in its fields come before further items. -/
def record (declared : List String) (decode : Fields → Except DecodeError α) (j : Json) :
    Except DecodeError α := do
  let a ← decode (← j.fields declared)
  j.ensureNoSurplus declared
  return a

/-- A field that has to be there. -/
def required (name : String) (decode : Json → Except DecodeError α) :
    Option Json → Except DecodeError α
  | some j => decode j
  | none => .error (.missing name)

/-- A field that may be absent or null. -/
def optional (decode : Json → Except DecodeError α) :
    Option Json → Except DecodeError (Option α)
  | none | some .null => .ok none
  | some j => (decode j).map some

/-- A field that may be absent, but not null. -/
def withDefault (default : α) (decode : Json → Except DecodeError α) :
    Option Json → Except DecodeError α
  | none => .ok default
  | some j => decode j

/-- A field that may be absent or null and has a default in both cases. -/
def nullable (default : α) (decode : Json → Except DecodeError α) :
    Option Json → Except DecodeError α
  | none | some .null => .ok default
  | some j => decode j

end Json

end RiskDecision
