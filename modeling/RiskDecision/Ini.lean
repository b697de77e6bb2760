import RiskDecision.Config.Place
import RiskDecision.Text.Blank
import RiskDecision.Text.Digits
import RiskDecision.Text.Scan

/-!
# Sections of keys and values

The format of files that is called INI: a line in brackets begins a section, and lines with an
equals sign or a colon between a key and its text fill it. Keys before the first section stand for
themselves. A section that begins again starts anew. A comment begins with a semicolon or number
sign in the first column.
-/

namespace RiskDecision.Ini

/-- A character that ends a line. -/
def isLineEnd (c : Char) : Bool := c == '\n' || c == '\x0d'

/-- The character of a short escape; most characters stand for themselves. -/
def shortEscape : Char → Char
  | '0' => '\x00'
  | 'a' => '\x07'
  | 'b' => '\x08'
  | 't' => '\t'
  | 'r' => '\x0d'
  | 'n' => '\n'
  | c => c

/-- Characters up to one at which `stops` holds, with escapes resolved. Only if `atEnd` may
the text end before one. A line end behind a backslash is dropped. -/
def scanUntil (stops : Char → Bool) (atEnd : Bool) (done : List Char) : Scan (List Char)
  | [] => if atEnd then some (done.reverse, []) else none
  | '\\' :: '\n' :: cs => scanUntil stops atEnd done cs
  | '\\' :: 'x' :: a :: b :: c :: d :: cs => do
    scanUntil stops atEnd ((← Text.charOfHex? [a, b, c, d]) :: done) cs
  | ['\\'] | '\\' :: 'x' :: _ => none
  | '\\' :: c :: cs => scanUntil stops atEnd (shortEscape c :: done) cs
  | c :: cs =>
    if stops c then some (done.reverse, c :: cs) else scanUntil stops atEnd (c :: done) cs

/-- The text of a value: quoted parts, and then the rest of the line without blanks at its end. -/
def scanValue : Nat → List Char → Scan String
  | 0, _ => fun _ => none
  | fuel + 1, done => fun cs =>
    match cs with
    | '"' :: cs => do
      let (part, rest) ← scanUntil (· == '"') false [] cs
      scanValue fuel (done ++ part) (rest.drop 1)
    | '\'' :: cs => do
      let (part, rest) ← scanUntil (· == '\'') false [] cs
      scanValue fuel (done ++ part) (rest.drop 1)
    | cs => do
      let (part, rest) ← scanUntil isLineEnd true [] cs
      return (String.ofList (done ++ Text.dropTrailingBlanks part), rest)

/-- A document so far: its settings and the section that keys belong to. -/
structure Document where
  settings : Setting
  current : Option String

namespace Document

/-- A document without keys. -/
def empty : Document := ⟨.table [], none⟩

/-- Begins a section. -/
def beginSection (d : Document) (name : String) : Document :=
  ⟨d.settings.put name (.table []), some name⟩

/-- Puts a text under a key. -/
def put (d : Document) (key value : String) : Document :=
  match d.current with
  | none => { d with settings := d.settings.put key (.text value) }
  | some name =>
    { d with settings := d.settings.put name ((d.settings.child name).put key (.text value)) }

end Document

/-- The text without the blanks at its front, and whether a line begins there. -/
def skipBlanks (fresh : Bool) : List Char → Bool × List Char
  | [] => (fresh, [])
  | c :: cs => if Text.isBlank c then skipBlanks (c == '\n') cs else (fresh, c :: cs)

/-- Takes sections and keys to the end of the text, at most `fuel` of them. -/
def takeAll (fuel : Nat) (d : Document) (fresh : Bool) (cs : List Char) : Option Document :=
  match fuel, skipBlanks fresh cs with
  | _, (_, []) => some d
  | 0, _ => none
  | fuel + 1, (fresh, c :: cs) =>
    if c == ';' || c == '#' then
      if fresh then takeAll fuel d false (cs.dropWhile (· != '\n')) else none
    else if c == '[' then do
      let (name, rest) ← scanUntil (· == ']') false [] cs
      takeAll fuel (d.beginSection (Text.trim (String.ofList name))) false (rest.drop 1)
    else do
      let (name, rest) ← scanUntil (fun c => c == '=' || c == ':') false [] (c :: cs)
      let key := Text.trim (String.ofList name)
      let line := (rest.drop 1).dropWhile fun c => Text.isBlank c && !isLineEnd c
      let (value, rest) ← scanValue line.length.succ [] line
      if key == "" then none else takeAll fuel (d.put key value) false rest

/-- The top entries of a text, or nothing if it is not well formed. -/
def read? (text : String) : Option (List (String × Setting)) :=
  let cs := text.toList
  (takeAll cs.length.succ .empty true cs).map (·.settings.entries)

end RiskDecision.Ini
