import RiskDecision.Text.Ascii

/-!
# Reading numbers

A number text is an optional sign followed by `inf`, `infinity` or `nan` in any case, or by decimal
digits with an optional point and an optional exponent; at least one digit must stand beside the
point. The value is the double nearest to the decimal, so a decimal beyond the largest double reads
as an infinity and one below the smallest as zero.
-/

namespace RiskDecision.Decimal

/-- The number that a digit sequence denotes. -/
def digitsValue (cs : List Char) : Nat :=
  cs.foldl (fun n c => 10 * n + (c.toNat - '0'.toNat)) 0

/-- The digits before and after a point, with the exponent of the whole. -/
structure Written where
  whole : List Char
  fraction : List Char
  exponent : Int
  deriving Repr, DecidableEq

namespace Written

/-- The double nearest to the decimal. Exponents far outside the range of doubles are settled
without computing the power of ten. -/
def magnitude (w : Written) : Float :=
  let digits := (w.whole ++ w.fraction).dropWhile (· == '0')
  let exponent := w.exponent - w.fraction.length
  let top := exponent + digits.length
  if digits.isEmpty || top < -400 then 0
  else if 310 < top then Float.ofBits 0x7FF0000000000000
  else Float.ofScientific (digitsValue digits) (exponent < 0) exponent.natAbs

end Written

/-- An optional sign in front of a text: whether it is a minus, and the rest. -/
def takeSign : List Char → Bool × List Char
  | '+' :: cs => (false, cs)
  | '-' :: cs => (true, cs)
  | cs => (false, cs)

/-- An exponent part, from the letter `e` to the end of the text. -/
def readExponent? : List Char → Option Int
  | [] => some 0
  | c :: cs =>
    if c.toLower = 'e' then
      let (negative, digits) := takeSign cs
      if digits.isEmpty || !digits.all Char.isDigit then none
      else some (if negative then -(digitsValue digits) else digitsValue digits)
    else none

/-- An unsigned decimal that makes up the whole text. -/
def readDecimal? (cs : List Char) : Option Written :=
  let whole := cs.takeWhile Char.isDigit
  let (fraction, rest) := match cs.dropWhile Char.isDigit with
    | '.' :: r => (r.takeWhile Char.isDigit, r.dropWhile Char.isDigit)
    | r => ([], r)
  if whole.isEmpty && fraction.isEmpty then none
  else (readExponent? rest).map fun exponent => ⟨whole, fraction, exponent⟩

/-- An unsigned number text. -/
def readMagnitude? (cs : List Char) : Option Float :=
  let word := String.ofList (cs.map Char.toLower)
  if word == "inf" || word == "infinity" then some (Float.ofBits 0x7FF0000000000000)
  else if word == "nan" then some (Float.ofBits 0x7FF8000000000000)
  else (readDecimal? cs).map Written.magnitude

/-- The number that a text denotes; the text may hold nothing else, no blanks either. -/
def read? (s : String) : Option Float :=
  let (negative, cs) := takeSign s.toList
  (readMagnitude? cs).map fun x => if negative then -x else x

end RiskDecision.Decimal
