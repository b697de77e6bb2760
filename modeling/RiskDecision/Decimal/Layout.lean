import RiskDecision.Decimal.Shortest

/-!
# Written numbers

Two layouts of the shortest decimal are in use. The positional one writes every digit in its place
and never an exponent; it is what a number looks like in a message, a trace or a comparison with
text. The compact one belongs to number texts inside objects: it always shows a fraction or an
exponent, and turns to an exponent outside of a window around the point.
-/

namespace RiskDecision.Decimal

/-- `n` zeros. -/
def zeros (n : Nat) : String := String.ofList (List.replicate n '0')

/-- The digits with a point after the first `n` of them. -/
def pointAfter (digits : String) (n : Nat) : String :=
  String.ofList (digits.toList.take n) ++ "." ++ String.ofList (digits.toList.drop n)

/-- Every digit in its place, no exponent, no point in an integral value. -/
def Shortest.positional (d : Shortest) : String :=
  let digits := toString d.digits
  let places := (-d.exponent).toNat
  if 0 ≤ d.exponent then digits ++ zeros d.exponent.toNat
  else if places < digits.length then pointAfter digits (digits.length - places)
  else "0." ++ zeros (places - digits.length) ++ digits

/-- Positional while the point stands at most sixteen places right of the first digit and at most
five places left of it, with a signed exponent otherwise. -/
def Shortest.compact (d : Shortest) : String :=
  let digits := toString d.digits
  let point := (digits.length : Int) + d.exponent
  if 0 ≤ d.exponent && point ≤ 16 then digits ++ zeros d.exponent.toNat ++ ".0"
  else if 0 < point && point ≤ 16 then pointAfter digits point.toNat
  else if -5 < point && point ≤ 0 then "0." ++ zeros (-point).toNat ++ digits
  else
    let mantissa := if digits.length = 1 then digits else pointAfter digits 1
    mantissa ++ (if 0 < point then "e+" else "e") ++ toString (point - 1)

/-- The number has its sign bit set. -/
def isNegative (x : Float) : Bool := x.toBits ≥ 0x8000000000000000

/-- A sign and a magnitude, for a finite number. -/
def signed (x : Float) (magnitude : String) : String :=
  if isNegative x then "-" ++ magnitude else magnitude

/-- The positional text of any number. -/
def text (x : Float) : String :=
  if x.isNaN then "NaN"
  else if x.isInf then signed x "inf"
  else if x == 0 then signed x "0"
  else signed x ((Binary.ofBits x.toBits).shortest .up).positional

/-- The compact text of a finite number. -/
def compactText (x : Float) : String :=
  if x == 0 then signed x "0.0"
  else signed x ((Binary.ofBits x.toBits).shortest .even).compact

end RiskDecision.Decimal
