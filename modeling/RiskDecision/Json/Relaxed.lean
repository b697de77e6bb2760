import RiskDecision.Decimal.Reader
import RiskDecision.Decimal.Width
import RiskDecision.Json.Basic
import RiskDecision.Text.Blank
import RiskDecision.Text.Digits
import RiskDecision.Text.Scan

/-!
# Relaxed JSON

The way of writing JSON that is called JSON5: comments may stand between tokens, a name needs no
quotes as a key, a text may stand in single quotes and go on in the next line behind a backslash, a
comma may follow the last item, and a number may have a plus sign, base 16, a point at either end,
or be infinite or no number at all.
-/

namespace RiskDecision.Json.Relaxed

/-- A blank between tokens. -/
def isSpace (c : Char) : Bool := (Text.isBlank c && c != '\u0085') || c == '\uFEFF'

/-- A character that ends a line. -/
def isLineEnd (c : Char) : Bool := c == '\n' || c == '\x0d' || c == '\u2028' || c == '\u2029'

/-- Where in the gap between two tokens the next character stands. -/
inductive Gap
  | between
  | lineComment
  | blockComment

/-- The text without blanks and comments at its front. -/
def skipGap : Gap → List Char → Option (List Char)
  | .blockComment, [] => none
  | _, [] => some []
  | .blockComment, '*' :: '/' :: cs => skipGap .between cs
  | .blockComment, _ :: cs => skipGap .blockComment cs
  | .lineComment, c :: cs => skipGap (if isLineEnd c then .between else .lineComment) cs
  | .between, '/' :: '/' :: cs => skipGap .lineComment cs
  | .between, '/' :: '*' :: cs => skipGap .blockComment cs
  | .between, c :: cs => if isSpace c then skipGap .between cs else some (c :: cs)

/-- A character that a name may begin with. Beyond ASCII all but blanks count as letters. -/
def isNameStart (c : Char) : Bool :=
  c.isAlpha || c == '$' || c == '_' || (0x80 ≤ c.toNat && !Text.isBlank c && c != '\uFEFF')

/-- A character that may follow in a name. -/
def isNamePart (c : Char) : Bool := isNameStart c || c.isDigit

/-- A name without quotes, with the characters before the last one first. -/
def scanName (done : List Char) : Scan String
  | '\\' :: 'u' :: a :: b :: c :: d :: cs => do
    let code ← Text.charOfHex? [a, b, c, d]
    if isNamePart code then scanName (code :: done) cs else none
  | c :: cs =>
    if isNameStart c || (isNamePart c && !done.isEmpty) then scanName (c :: done) cs
    else if done.isEmpty then none
    else some (String.ofList done.reverse, c :: cs)
  | [] => if done.isEmpty then none else some (String.ofList done.reverse, [])

/-- The character of a short escape. Any character but a digit may be escaped, most of them to no
effect. -/
def shortEscape? : Char → Option Char
  | 'b' => some '\x08'
  | 'f' => some '\x0c'
  | 'n' => some '\n'
  | 'r' => some '\x0d'
  | 't' => some '\t'
  | 'v' => some '\x0b'
  | '0' => some '\x00'
  | c => if c.isDigit || c == 'x' || c == 'u' then none else some c

/-- The character of two halves of a surrogate pair. -/
def charOfPair? (high low : Nat) : Option Char :=
  if 0xD800 ≤ high && high ≤ 0xDBFF && 0xDC00 ≤ low && low ≤ 0xDFFF then
    some (Char.ofNat (0x10000 + (high - 0xD800) * 0x400 + (low - 0xDC00)))
  else none

/-- A text up to its closing quote, with the characters before the last one first. -/
def scanText (quote : Char) (done : List Char) : Scan String
  | [] => none
  | '\\' :: '\x0d' :: '\n' :: cs => scanText quote done cs
  | '\\' :: 'x' :: a :: b :: cs => do scanText quote ((← Text.charOfHex? [a, b]) :: done) cs
  | '\\' :: 'u' :: a :: b :: c :: d :: cs => do
    let unit ← Text.natOfDigits? 16 [a, b, c, d]
    match Text.charOfCode? unit, cs with
    | some code, cs => scanText quote (code :: done) cs
    | none, '\\' :: 'u' :: e :: f :: g :: h :: cs =>
      let low ← Text.natOfDigits? 16 [e, f, g, h]
      scanText quote ((← charOfPair? unit low) :: done) cs
    | none, _ => none
  | '\\' :: c :: cs =>
    if isLineEnd c then scanText quote done cs
    else if c == '0' && cs.head?.any Char.isDigit then none
    else do scanText quote ((← shortEscape? c) :: done) cs
  | c :: cs =>
    if c = quote then some (String.ofList done.reverse, cs)
    else if c == '\n' || c == '\x0d' then none
    else scanText quote (c :: done) cs

/-- An integer; one that fits neither a signed nor an unsigned word of 64 bits is a number. -/
def ofInt (negative : Bool) (n : Nat) : Json :=
  let i : Int := if negative then -n else n
  if Decimal.fitsSigned 64 i || (!negative && Decimal.fitsNatural 64 n) then .int i
  else .float (if negative then -(Float.ofNat n) else Float.ofNat n)

/-- A number without its sign. -/
def magnitude? (negative : Bool) (cs : List Char) : Option Json :=
  let signed (x : Float) : Json := .float (if negative then -x else x)
  match cs with
  | '0' :: 'x' :: digits | '0' :: 'X' :: digits =>
    (Text.natOfDigits? 16 digits).map (ofInt negative)
  | ['N', 'a', 'N'] => some (signed (Float.ofBits 0x7FF8000000000000))
  | ['I', 'n', 'f', 'i', 'n', 'i', 't', 'y'] => some (signed (Float.ofBits 0x7FF0000000000000))
  | cs => do
    let written ← Decimal.readDecimal? cs
    if 1 < written.whole.length && written.whole.head? == some '0' then none
    if cs.all Char.isDigit then return ofInt negative (Decimal.digitsValue cs)
    else return signed written.magnitude

/-- A value that is written as a word. -/
def word? (cs : List Char) : Option Json :=
  if cs == ['n', 'u', 'l', 'l'] then some .null
  else if cs == ['t', 'r', 'u', 'e'] then some (.bool true)
  else if cs == ['f', 'a', 'l', 's', 'e'] then some (.bool false)
  else
    let (negative, magnitude) := Decimal.takeSign cs
    magnitude? negative magnitude

/-- A character of a word. -/
def isWordChar (c : Char) : Bool := isNamePart c || c == '+' || c == '-' || c == '.'

/-- The key of a member. -/
def scanKey : Scan String
  | '"' :: cs => scanText '"' [] cs
  | '\'' :: cs => scanText '\'' [] cs
  | cs => scanName [] cs

mutual

/-- A value, in which containers are nested and repeated at most `fuel` times. -/
def scanValue (fuel : Nat) (cs : List Char) : Option (Json × List Char) :=
  match fuel, cs with
  | fuel + 1, '[' :: cs => do
    let (items, rest) ← scanItems fuel (← skipGap .between cs)
    return (.array items, rest)
  | fuel + 1, '\x7b' :: cs => do
    let (members, rest) ← scanMembers fuel (← skipGap .between cs)
    return (.ofMembers members, rest)
  | _, '"' :: cs => (scanText '"' [] cs).map fun (s, rest) => (.text s, rest)
  | _, '\'' :: cs => (scanText '\'' [] cs).map fun (s, rest) => (.text s, rest)
  | _, cs => do
    let word := cs.takeWhile isWordChar
    return (← word? word, cs.drop word.length)

/-- The items of an array up to its closing bracket. -/
def scanItems (fuel : Nat) (cs : List Char) : Option (List Json × List Char) :=
  match fuel, cs with
  | _, ']' :: rest => some ([], rest)
  | 0, _ => none
  | fuel + 1, cs => do
    let (item, rest) ← scanValue fuel cs
    match ← skipGap .between rest with
    | ']' :: rest => return ([item], rest)
    | ',' :: rest =>
      let (items, rest) ← scanItems fuel (← skipGap .between rest)
      return (item :: items, rest)
    | _ => none

/-- The members of an object up to its closing brace. -/
def scanMembers (fuel : Nat) (cs : List Char) : Option (List (String × Json) × List Char) :=
  match fuel, cs with
  | _, '\x7d' :: rest => some ([], rest)
  | 0, _ => none
  | fuel + 1, cs => do
    let (key, rest) ← scanKey cs
    match ← skipGap .between rest with
    | ':' :: rest =>
      let (value, rest) ← scanValue fuel (← skipGap .between rest)
      match ← skipGap .between rest with
      | '\x7d' :: rest => return ([(key, value)], rest)
      | ',' :: rest =>
        let (members, rest) ← scanMembers fuel (← skipGap .between rest)
        return ((key, value) :: members, rest)
      | _ => none
    | _ => none

end

/-- The value of a text in relaxed JSON, or nothing if it is not well formed. -/
def read? (text : String) : Option Json := do
  let cs := text.toList
  let (value, rest) ← scanValue cs.length (← skipGap .between cs)
  if (← skipGap .between rest).isEmpty then return value else none

end RiskDecision.Json.Relaxed
