import RiskDecision.Config.Setting
import RiskDecision.Text.Digits
import RiskDecision.Text.Split
import RiskDecision.Toml.Moment

/-!
# Keys and plain values of TOML

A key has bare or quoted parts. A plain value is a quoted text of one of four kinds, a moment, which
is a text too, or a truth value or number.
-/

namespace RiskDecision.Toml

/-- The character of a short escape. -/
def shortEscape? : Char → Option Char
  | 'b' => some '\x08'
  | 'e' => some '\x1b'
  | 't' => some '\t'
  | 'n' => some '\n'
  | 'f' => some '\x0c'
  | 'r' => some '\x0d'
  | '"' => some '"'
  | '\\' => some '\\'
  | _ => none

/-- A text in double quotes on one line, from behind the opening quote. -/
def scanBasic (done : List Char) : Scan String
  | [] => none
  | '"' :: cs => some (String.ofList done.reverse, cs)
  | '\\' :: 'x' :: a :: b :: cs => do scanBasic ((← Text.charOfHex? [a, b]) :: done) cs
  | '\\' :: 'u' :: a :: b :: c :: d :: cs => do
    scanBasic ((← Text.charOfHex? [a, b, c, d]) :: done) cs
  | '\\' :: 'U' :: a :: b :: c :: d :: e :: f :: g :: h :: cs => do
    scanBasic ((← Text.charOfHex? [a, b, c, d, e, f, g, h]) :: done) cs
  | '\\' :: c :: cs => do scanBasic ((← shortEscape? c) :: done) cs
  | c :: cs => if isPlain c then scanBasic (c :: done) cs else none

/-- A text in single quotes on one line, from behind the opening quote. -/
def scanLiteral (done : List Char) : Scan String
  | [] => none
  | '\'' :: cs => some (String.ofList done.reverse, cs)
  | c :: cs => if isPlain c then scanLiteral (c :: done) cs else none

/-- A text in three double quotes, from behind the opening quotes. While `folding`, blanks and line
ends are dropped, as they are behind a backslash at the end of a line. Up to two more quotes may
stand before the closing ones. -/
def scanLongBasic (folding : Bool) (done : List Char) : Scan String
  | '"' :: '"' :: '"' :: '"' :: '"' :: cs => some (String.ofList ('"' :: '"' :: done).reverse, cs)
  | '"' :: '"' :: '"' :: '"' :: cs => some (String.ofList ('"' :: done).reverse, cs)
  | '"' :: '"' :: '"' :: cs => some (String.ofList done.reverse, cs)
  | '\\' :: 'x' :: a :: b :: cs => do scanLongBasic false ((← Text.charOfHex? [a, b]) :: done) cs
  | '\\' :: 'u' :: a :: b :: c :: d :: cs => do
    scanLongBasic false ((← Text.charOfHex? [a, b, c, d]) :: done) cs
  | '\\' :: 'U' :: a :: b :: c :: d :: e :: f :: g :: h :: cs => do
    scanLongBasic false ((← Text.charOfHex? [a, b, c, d, e, f, g, h]) :: done) cs
  | '\\' :: c :: cs =>
    if (afterLineEnd? (skipSpaces (c :: cs))).isSome then scanLongBasic true done cs
    else do scanLongBasic false ((← shortEscape? c) :: done) cs
  | '\x0d' :: '\n' :: cs =>
    if folding then scanLongBasic true done cs
    else scanLongBasic false ('\n' :: '\x0d' :: done) cs
  | c :: cs =>
    if folding && (isSpace c || c == '\n') then scanLongBasic true done cs
    else if isPlain c || c == '\n' then scanLongBasic false (c :: done) cs
    else none
  | [] => none

/-- A text in three single quotes, from behind the opening quotes. -/
def scanLongLiteral (done : List Char) : Scan String
  | '\'' :: '\'' :: '\'' :: '\'' :: '\'' :: cs =>
    some (String.ofList ('\'' :: '\'' :: done).reverse, cs)
  | '\'' :: '\'' :: '\'' :: '\'' :: cs => some (String.ofList ('\'' :: done).reverse, cs)
  | '\'' :: '\'' :: '\'' :: cs => some (String.ofList done.reverse, cs)
  | '\x0d' :: '\n' :: cs => scanLongLiteral ('\n' :: '\x0d' :: done) cs
  | c :: cs => if isPlain c || c == '\n' then scanLongLiteral (c :: done) cs else none
  | [] => none

/-- The text without one line end at its front. -/
def skipLineEnd (cs : List Char) : List Char := (afterLineEnd? cs).getD cs

/-- A quoted text of any kind. -/
def scanText : Scan String
  | '"' :: '"' :: '"' :: cs => scanLongBasic false [] (skipLineEnd cs)
  | '\'' :: '\'' :: '\'' :: cs => scanLongLiteral [] (skipLineEnd cs)
  | '"' :: cs => scanBasic [] cs
  | '\'' :: cs => scanLiteral [] cs
  | _ => none

/-- One part of a key: bare, or quoted on one line. -/
def scanName : Scan String
  | '"' :: cs => scanBasic [] cs
  | '\'' :: cs => scanLiteral [] cs
  | cs =>
    let name := cs.takeWhile Setting.isNameChar
    if name.isEmpty then none else some (String.ofList name, cs.drop name.length)

/-- The greatest number of parts of a key, and of containers around a value. -/
def maxDepth : Nat := 80

/-- Parts of a key with points between them, at most one more than `points`. -/
def scanNames (points : Nat) (cs : List Char) : Option (List String × List Char) := do
  let (name, rest) ← scanName (skipSpaces cs)
  match points, skipSpaces rest with
  | points + 1, '.' :: rest =>
    let (names, rest) ← scanNames points rest
    return (name :: names, rest)
  | _, rest => return ([name], rest)

/-- A key with the blanks on both sides of it. -/
def scanKey : Scan (List String) := scanNames (maxDepth - 1)

/-- Digits of a base with single underscores between them. -/
def digits? (isDigit : Char → Bool) (cs : List Char) : Option (List Char) :=
  let parts := Text.splitChars '_' cs
  if parts.all fun part => !part.isEmpty && part.all isDigit then some parts.flatten else none

/-- An integer of 64 bits. -/
def int? (n : Int) : Option Setting :=
  if Decimal.fitsSigned 64 n then some (.int n) else none

/-- An integer in base ten, without sign; no zero leads other digits. -/
def decimal? (cs : List Char) : Option Nat := do
  let ds ← digits? Char.isDigit cs
  if 1 < ds.length && ds.head? == some '0' then none else some (Text.digitsValue 10 ds)

/-- A number with a point or an exponent, without sign. -/
def float? (cs : List Char) : Option Float := do
  let whole := cs.takeWhile fun c => c.isDigit || c == '_'
  let _ ← decimal? whole
  let rest := cs.drop whole.length
  let fraction := match rest with
    | '.' :: r => r.takeWhile fun c => c.isDigit || c == '_'
    | _ => []
  let pointed := rest.head? == some '.'
  let exponent := if pointed then rest.drop (fraction.length + 1) else rest
  if pointed then
    let _ ← digits? Char.isDigit fraction
  match exponent with
  | [] => if !pointed then none
  | e :: r =>
    if e.toLower != 'e' then none
    let _ ← digits? Char.isDigit (Decimal.takeSign r).2
  let written ← Decimal.readDecimal? (cs.filter (· != '_'))
  let x := written.magnitude
  if x.isInf then none else some x

/-- A truth value or number that is written without quotes. -/
def word? (cs : List Char) : Option Setting :=
  match cs with
  | ['t', 'r', 'u', 'e'] => some (.bool true)
  | ['f', 'a', 'l', 's', 'e'] => some (.bool false)
  | '0' :: 'x' :: ds => do int? (Text.digitsValue 16 (← digits? (Text.isDigitOf 16) ds))
  | '0' :: 'o' :: ds => do int? (Text.digitsValue 8 (← digits? (Text.isDigitOf 8) ds))
  | '0' :: 'b' :: ds => do int? (Text.digitsValue 2 (← digits? (Text.isDigitOf 2) ds))
  | cs =>
    let (negative, body) := Decimal.takeSign cs
    let signed (x : Float) : Setting := .float (if negative then -x else x)
    if body == ['i', 'n', 'f'] then some (signed (Float.ofBits 0x7FF0000000000000))
    else if body == ['n', 'a', 'n'] then some (signed (Float.ofBits 0x7FF8000000000000))
    else
      match decimal? body with
      | some n => int? (if negative then -n else n)
      | none => (float? body).map signed

/-- A character of a word. -/
def isWordChar (c : Char) : Bool := c.isAlphanum || c == '_' || c == '+' || c == '-' || c == '.'

/-- A value without parts. -/
def scanScalar (cs : List Char) : Option (Setting × List Char) :=
  match (scanText cs).or (scanMoment cs) with
  | some (s, rest) => some (.text s, rest)
  | none => do
    let word := cs.takeWhile isWordChar
    return (← word? word, cs.drop word.length)

end RiskDecision.Toml
