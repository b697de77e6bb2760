import RiskDecision.Decimal.Layout
import RiskDecision.Decimal.Reader
import RiskDecision.Service.Settings

/-!
# Configured values

Configuration files and environment variables give values in a tree of tables and lists. Because a
variable is only text, reading such values is lenient: truth values, numbers and texts stand for
each other wherever that makes sense. A section is a table with its fields by name, or a list with
its fields by position.
-/

namespace RiskDecision

/-- A configured value. -/
inductive Setting
  | null
  | bool (b : Bool)
  | int (n : Int)
  | float (x : Float)
  | text (s : String)
  | list (items : List Setting)
  | table (entries : List (String × Setting))
  deriving Inhabited, Repr

/-- Why configured values cannot be used. -/
inductive ConfigFault
  /-- A configuration file is not well formed. -/
  | malformed (file : String)
  | wrongKind (expected : String)
  | outOfRange
  deriving Repr

namespace Setting

/-- A character of a name that needs no quotes. -/
def isNameChar (c : Char) : Bool := c.isAlphanum || c == '_' || c == '-'

/-- An integer of 64 bits from its sign and its digits. -/
def intOfDigits? (negative : Bool) (digits : List Char) : Option Int :=
  if digits.isEmpty || !digits.all Char.isDigit then none
  else
    let n : Int := Decimal.digitsValue digits
    let n := if negative then -n else n
    if Decimal.fitsSigned 64 n then some n else none

/-- A text as a truth value. -/
def boolOfText (s : String) : Except ConfigFault Bool :=
  match Text.lower s with
  | "1" | "true" | "on" | "yes" => .ok true
  | "0" | "false" | "off" | "no" => .ok false
  | _ => .error (.wrongKind "bool")

/-- A text as a truth value spelled out as a word. -/
def wordOfText? (s : String) : Option Bool :=
  match Text.lower s with
  | "true" | "on" | "yes" => some true
  | "false" | "off" | "no" => some false
  | _ => none

/-- A value as a truth value. -/
def asBool : Setting → Except ConfigFault Bool
  | .bool b => .ok b
  | .int n => .ok (n != 0)
  | .float x => .ok (x != 0)
  | .text s => boolOfText s
  | _ => .error (.wrongKind "bool")

/-- A value as a number. -/
def asFloat : Setting → Except ConfigFault Float
  | .bool b => .ok (if b then 1 else 0)
  | .int n => .ok (Float.ofInt n)
  | .float x => .ok x
  | .text s =>
    match wordOfText? s, Decimal.read? s with
    | some b, _ => .ok (if b then 1 else 0)
    | none, some x => .ok x
    | none, none => .error (.wrongKind "number")
  | _ => .error (.wrongKind "number")

/-- The natural number nearest to a number, a half rounded up. A number below zero or none counts as
zero, and one beyond 64 bits as the largest. -/
def nearestNat (x : Float) : Nat :=
  if x.isNaN || x < 0 then 0
  else if x.isInf then Decimal.largestNatural 64
  else
    let b := Decimal.Binary.ofBits x.toBits
    let unit := Nat.pow 2 (-b.exponent).toNat
    let whole := (2 * b.significand * Nat.pow 2 b.exponent.toNat + unit) / (2 * unit)
    min whole (Decimal.largestNatural 64)

/-- The natural number that digits denote. -/
def natOfText? (s : String) : Option Nat :=
  let digits := match s.toList with
    | '+' :: cs => cs
    | cs => cs
  if digits.isEmpty || !digits.all Char.isDigit then none
  else
    let n := Decimal.digitsValue digits
    if Decimal.fitsNatural 64 n then some n else none

/-- The natural number, if it fits the given number of bits. -/
def ofWidth (bits n : Nat) : Except ConfigFault Nat :=
  if Decimal.fitsNatural bits n then .ok n else .error .outOfRange

/-- A value as a natural number that fits the given number of bits. -/
def asNat (bits : Nat) : Setting → Except ConfigFault Nat
  | .bool b => ofWidth bits (if b then 1 else 0)
  | .int n => if n < 0 then .error .outOfRange else ofWidth bits n.toNat
  | .float x => ofWidth bits (nearestNat x)
  | .text s =>
    match wordOfText? s, natOfText? s with
    | some b, _ => ofWidth bits (if b then 1 else 0)
    | none, some n => ofWidth bits n
    | none, none => .error (.wrongKind "integer")
  | _ => .error (.wrongKind "integer")

/-- A value as a text. -/
def asText : Setting → Except ConfigFault String
  | .bool b => .ok (if b then "true" else "false")
  | .int n => .ok (toString n)
  | .float x => .ok (Decimal.text x)
  | .text s => .ok s
  | _ => .error (.wrongKind "string")

/-- The fields of a section. A list gives the declared fields in their order, as far as it goes. -/
def fields (declared : List String) : Setting → Except ConfigFault (String → Option Setting)
  | .table entries => .ok fun name => Dictionary.find? name entries
  | .list items => .ok fun name => (declared.zip items).lookup name
  | _ => .error (.wrongKind "table")

/-- A value as a text that may be null. -/
def asOptionalText : Setting → Except ConfigFault (Option String)
  | .null => .ok none
  | s => (asText s).map some

/-- Reads settings leniently. -/
def reader : Reader Setting ConfigFault where
  fields := fields
  text := asText
  optionalText := asOptionalText
  texts
    | .list items => items.mapM asText
    | _ => .error (.wrongKind "array")
  bool := asBool
  float := asFloat
  nat := asNat

end Setting

end RiskDecision
