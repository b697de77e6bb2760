import RiskDecision.Decimal.Reader
import RiskDecision.Decimal.Width
import RiskDecision.Json.Basic

/-!
# JSON as it is written

A JSON text may be well formed and still denote no value: a number can lie beyond the doubles, an
escape can name half of a surrogate pair, and containers can be nested too deeply. A part of a text
that nobody reads may hold such things, so the written form is kept apart from its value. Repeated
keys are still all there in the written form; in the value the last one counts.

A number that is no integer of 64 bits is rounded exactly, to the nearest double. A reader that
scales its digits by a power of ten in double precision is faster, and for numerals with many digits
it may come to a double next to the nearest one. No theorem depends on that last place.
-/

namespace RiskDecision.Json

/-- Why a text is not a JSON value. -/
inductive Flaw
  | strayCharacter (c : Char)
  | strayWord (word : String)
  | badEscape
  | openText
  | misplaced
  | unfinished
  | tooDeep
  | numberRange
  | halfSurrogate
  deriving Repr, DecidableEq

/-- The wording of a flaw. -/
def Flaw.message : Flaw → String
  | .strayCharacter c => "unexpected character '" ++ String.singleton c ++ "'"
  | .strayWord word => "unexpected word '" ++ word ++ "'"
  | .badEscape => "invalid escape"
  | .openText => "text is not closed"
  | .misplaced => "value or separator out of place"
  | .unfinished => "value is not complete"
  | .tooDeep => "containers are nested too deeply"
  | .numberRange => "number out of range"
  | .halfSurrogate => "escape names half of a surrogate pair"

/-- A number as written. -/
structure Numeral where
  negative : Bool
  decimal : Decimal.Written
  /-- There is neither a point nor an exponent. -/
  integral : Bool
  deriving Repr, DecidableEq

namespace Numeral

/-- The number that the characters spell: a digit stands before and after a point, and no zero
leads other digits. -/
def ofChars? (cs : List Char) : Option Numeral :=
  let (negative, body) := match cs with
    | '-' :: rest => (true, rest)
    | rest => (false, rest)
  match Decimal.readDecimal? body with
  | none => none
  | some decimal =>
    if decimal.whole.isEmpty || (1 < decimal.whole.length && decimal.whole.head? == some '0')
        || (body.contains '.' && decimal.fraction.isEmpty) then none
    else some ⟨negative, decimal, body.all Char.isDigit⟩

/-- The value of a number as a double. -/
def toFloat (n : Numeral) : Except Flaw Json :=
  let x := n.decimal.magnitude
  if x.isInf then .error .numberRange else .ok (.float (if n.negative then -x else x))

/-- The value of a number: an integer if it is written without point and exponent and fits into 64
bits, a double otherwise. The negative zero is a double. -/
def value (n : Numeral) : Except Flaw Json :=
  let digits := Decimal.digitsValue n.decimal.whole
  if !n.integral then n.toFloat
  else if n.negative then
    if 0 < digits && Decimal.fitsSigned 64 (-digits) then .ok (.int (-digits)) else n.toFloat
  else if Decimal.fitsNatural 64 digits then .ok (.int digits)
  else n.toFloat

end Numeral

/-- A quoted text as written; `none` when an escape in it names half of a surrogate pair. -/
abbrev Quoted := Option String

/-- The text that is meant. -/
def Quoted.value : Quoted → Except Flaw String
  | some s => .ok s
  | none => .error .halfSurrogate

/-- A JSON value as written. -/
inductive Written
  | null
  | bool (b : Bool)
  | number (n : Numeral)
  | text (s : Quoted)
  | array (items : List Written)
  | object (members : List (Quoted × Written))
  deriving Inhabited

/-- How deeply containers may be nested. -/
def maxDepth : Nat := 127

namespace Written

mutual

/-- The value that is meant, where at most `depth` containers may be nested. -/
def valueWithin (depth : Nat) : Written → Except Flaw Json
  | .null => .ok .null
  | .bool b => .ok (.bool b)
  | .number n => n.value
  | .text s => return .text (← s.value)
  | .array items =>
    match depth with
    | 0 => .error .tooDeep
    | d + 1 => return .array (← itemsWithin d items)
  | .object members =>
    match depth with
    | 0 => .error .tooDeep
    | d + 1 => return .ofMembers (← membersWithin d members)

/-- The values of the items of an array. -/
def itemsWithin (depth : Nat) : List Written → Except Flaw (List Json)
  | [] => .ok []
  | item :: rest => do
    let value ← valueWithin depth item
    return value :: (← itemsWithin depth rest)

/-- The keys and values of the members of an object, in the written order. -/
def membersWithin (depth : Nat) : List (Quoted × Written) → Except Flaw (List (String × Json))
  | [] => .ok []
  | (key, member) :: rest => do
    let name ← key.value
    let value ← valueWithin depth member
    return (name, value) :: (← membersWithin depth rest)

end

/-- The value that is meant. -/
def value (w : Written) : Except Flaw Json := w.valueWithin maxDepth

end Written

end RiskDecision.Json
