import RiskDecision.Config.Setting
import RiskDecision.Decimal.Reader
import RiskDecision.Decimal.Width
import RiskDecision.Text.Digits
import RiskDecision.Text.Scan

/-!
# Tokens of RON

Blanks and comments, names, texts and numbers. Comments of several lines are nested; underscores may
stand between the digits of a number.
-/

namespace RiskDecision.Ron

/-- A blank between tokens. -/
def isSpace (c : Char) : Bool :=
  let n := c.toNat
  (9 ≤ n && n ≤ 13) || [0x20, 0x85, 0x200E, 0x200F, 0x2028, 0x2029].contains n

/-- The text without blanks and comments at its front. Comments of several lines are nested;
`depth` of them are open, and `inLine` tells of a comment up to the end of the line. -/
def skipGap (depth : Nat) (inLine : Bool) : List Char → Option (List Char)
  | [] => if depth = 0 then some [] else none
  | '/' :: '*' :: cs => skipGap (if inLine then depth else depth + 1) inLine cs
  | '*' :: '/' :: cs =>
    if inLine then skipGap depth true cs
    else if depth = 0 then some ('*' :: '/' :: cs)
    else skipGap (depth - 1) false cs
  | '/' :: '/' :: cs => skipGap depth (depth = 0) cs
  | c :: cs =>
    if inLine then skipGap depth (c != '\n') cs
    else if depth ≠ 0 || isSpace c then skipGap depth false cs
    else some (c :: cs)

/-- The text without blanks and comments at its front. -/
def gap (cs : List Char) : Option (List Char) := skipGap 0 false cs

/-- A character that a name may begin with. Beyond ASCII all but blanks count as letters. -/
def isNameStart (c : Char) : Bool := c.isAlpha || c == '_' || (0x80 ≤ c.toNat && !isSpace c)

/-- A character that may follow in a name. -/
def isNamePart (c : Char) : Bool := isNameStart c || c.isDigit

/-- A name at the front of a text. -/
def scanName : Scan String
  | [] => none
  | c :: cs =>
    if isNameStart c then
      let rest := cs.takeWhile isNamePart
      some (String.ofList (c :: rest), cs.drop rest.length)
    else none

/-- The character of an escape, from behind its backslash. -/
def scanEscape : Scan Char
  | 'n' :: cs => some ('\n', cs)
  | 'r' :: cs => some ('\x0d', cs)
  | 't' :: cs => some ('\t', cs)
  | '0' :: cs => some ('\x00', cs)
  | 'x' :: a :: b :: cs => (Text.charOfHex? [a, b]).map fun c => (c, cs)
  | 'u' :: '\x7b' :: cs => do
    let digits := cs.takeWhile (· != '\x7d')
    if 6 < digits.length || digits.length = cs.length then none
    return (← Text.charOfHex? digits, cs.drop (digits.length + 1))
  | c :: cs => if c == '"' || c == '\'' || c == '\\' then some (c, cs) else none
  | [] => none

/-- A text up to its closing quote, with the characters before the last one first. -/
def scanText : Nat → List Char → Scan String
  | 0, _ => fun _ => none
  | fuel + 1, done => fun cs =>
    match cs with
    | [] => none
    | '"' :: cs => some (String.ofList done.reverse, cs)
    | '\\' :: cs => do
      let (c, rest) ← scanEscape cs
      scanText fuel (c :: done) rest
    | c :: cs => scanText fuel (c :: done) cs

/-- A text without escapes up to a quote with as many number signs behind it as came before. -/
def scanRaw (signs : Nat) (done : List Char) : Scan String
  | [] => none
  | c :: cs =>
    if c == '"' && cs.take signs == List.replicate signs '#' then
      some (String.ofList done.reverse, cs.drop signs)
    else scanRaw signs (c :: done) cs

/-- A single character up to its closing quote. -/
def scanChar : Scan String := fun cs => do
  let (c, rest) ← match cs with
    | '\\' :: cs => scanEscape cs
    | c :: cs => some (c, cs)
    | [] => none
  match rest with
  | '\'' :: rest => return (String.singleton c, rest)
  | _ => none

/-- The integer, if it fits a word of 64 bits with or without a sign. -/
def ofInt? (negative : Bool) (n : Nat) : Option Setting :=
  let i : Int := if negative then -n else n
  if Decimal.fitsSigned 64 i || (!negative && Decimal.fitsNatural 64 n) then some (.int i) else none

/-- The integer that digits of a base denote; underscores may stand behind the first digit. -/
def intOf? (negative : Bool) (base : Nat) (digits : List Char) : Option Setting :=
  if digits.head? == some '_' then none
  else (Text.natOfDigits? base (digits.filter (· != '_'))).bind (ofInt? negative)

/-- A number from behind its sign. -/
def scanMagnitude (negative : Bool) : Scan Setting := fun cs =>
  let isWhole (c : Char) := Text.isDigitOf 16 c || c == '_'
  let isDecimal (c : Char) := c.isDigit || ['e', 'E', '.', '+', '-', '_'].contains c
  let based (base : Nat) (cs : List Char) : Option (Setting × List Char) := do
    let digits := cs.takeWhile isWhole
    return (← intOf? negative base digits, cs.drop digits.length)
  let decimal := cs.takeWhile isDecimal
  match cs with
  | '0' :: 'x' :: cs => based 16 cs
  | '0' :: 'o' :: cs => based 8 cs
  | '0' :: 'b' :: cs => based 2 cs
  | cs =>
    if (cs.takeWhile isWhole).length < decimal.length && decimal.head? != some '_' then do
      let x ← Decimal.readDecimal? (decimal.filter (· != '_'))
      return (.float (if negative then -x.magnitude else x.magnitude), cs.drop decimal.length)
    else based 10 cs

/-- A number that has a name. -/
def namedNumber? : String → Option Float
  | "inf" => some (Float.ofBits 0x7FF0000000000000)
  | "NaN" => some (Float.ofBits 0x7FF8000000000000)
  | _ => none

/-- A number with its sign. -/
def scanNumber : Scan Setting := fun cs =>
  let (negative, magnitude) := Decimal.takeSign cs
  let signed (x : Float) : Setting := .float (if negative then -x else x)
  match scanName magnitude with
  | some (name, rest) => (namedNumber? name).map fun x => (signed x, rest)
  | none => scanMagnitude negative magnitude

end RiskDecision.Ron
