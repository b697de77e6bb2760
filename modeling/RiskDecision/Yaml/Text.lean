import RiskDecision.Yaml.Cursor

/-!
# Texts of YAML

A text is plain or stands in quotes of two kinds. It may go on in further lines: a single line end
is folded to a blank, and of several all but the first are kept.
-/

namespace RiskDecision.Yaml

/-- The characters, the last one first, that stand for line ends in a folded text. -/
def foldedBreaks (count : Nat) : List Char :=
  if count ≤ 1 then [' '] else List.replicate (count - 1) '\n'

/-- Moves over line ends and blanks up to the next line that is not empty, and counts the line ends.
That line must not be indented less than `least`, nor mark the end of a document. -/
def skipBreaks (least : Nat) : Nat → Move Nat
  | 0 => failure
  | fuel + 1 => do
    modify (·.next)
    ensure !(← get).atEnd
    skipSpaces
    if (← ahead).head? == some '\n' then return (← skipBreaks least fuel) + 1
    ensure (least ≤ (← get).column)
    return 1

/-- A text in single quotes, from behind the opening one. `done` and `blanks` are the characters
before, the last one first; blanks count only if something follows them in the line. -/
def scanSingle (least : Nat) : Nat → List Char → List Char → Move String
  | 0, _, _ => failure
  | fuel + 1, done, blanks => do
    match ← ahead with
    | [] => failure
    | '\'' :: '\'' :: _ => do
      skip 2
      scanSingle least fuel ('\'' :: (blanks ++ done)) []
    | '\'' :: _ => do
      skip 1
      return String.ofList (blanks ++ done).reverse
    | '\n' :: cs => do
      let count ← skipBreaks least cs.length.succ
      scanSingle least fuel (foldedBreaks count ++ done) []
    | c :: _ => do
      skip 1
      if isSpace c then scanSingle least fuel done (c :: blanks)
      else scanSingle least fuel (c :: (blanks ++ done)) []

/-- The character of a short escape. -/
def shortEscape? : Char → Option Char
  | '0' => some '\x00'
  | 'a' => some '\x07'
  | 'b' => some '\x08'
  | 't' | '\t' => some '\t'
  | 'n' => some '\n'
  | 'v' => some '\x0b'
  | 'f' => some '\x0c'
  | 'r' => some '\x0d'
  | 'e' => some '\x1b'
  | ' ' => some ' '
  | '"' => some '"'
  | '/' => some '/'
  | '\\' => some '\\'
  | 'N' => some '\u0085'
  | '_' => some '\u00A0'
  | 'L' => some '\u2028'
  | 'P' => some '\u2029'
  | _ => none

/-- The number of digits in the escape that a letter begins. -/
def escapeWidth? : Char → Option Nat
  | 'x' => some 2
  | 'u' => some 4
  | 'U' => some 8
  | _ => none

/-- The character of an escape, from behind its backslash. -/
def scanEscape : Move Char := do
  match ← ahead with
  | [] => failure
  | c :: cs =>
    match escapeWidth? c with
    | some width => do
      skip (width + 1)
      ensure (width ≤ cs.length)
      (Text.charOfHex? (cs.take width)).elim failure pure
    | none => do
      skip 1
      (shortEscape? c).elim failure pure

/-- A text in double quotes, from behind the opening one. `done` and `blanks` are the characters
before, the last one first; blanks count only if something follows them in the line. A backslash at
the end of a line joins it with the next one. -/
def scanDouble (least : Nat) : Nat → List Char → List Char → Move String
  | 0, _, _ => failure
  | fuel + 1, done, blanks => do
    match ← ahead with
    | [] => failure
    | '"' :: _ => do
      skip 1
      return String.ofList (blanks ++ done).reverse
    | '\\' :: '\n' :: cs => do
      skip 1
      let count ← skipBreaks least cs.length.succ
      scanDouble least fuel (List.replicate (count - 1) '\n' ++ blanks ++ done) []
    | '\\' :: _ => do
      skip 1
      let c ← scanEscape
      scanDouble least fuel (c :: (blanks ++ done)) []
    | '\n' :: cs => do
      let count ← skipBreaks least cs.length.succ
      scanDouble least fuel (foldedBreaks count ++ done) []
    | c :: _ => do
      skip 1
      if isSpace c then scanDouble least fuel done (c :: blanks)
      else scanDouble least fuel (c :: (blanks ++ done)) []

/-- A quoted text at the cursor. -/
def scanQuoted (least : Nat) : Move String := do
  let quote :: cs ← ahead | failure
  skip 1
  if quote == '"' then scanDouble least cs.length.succ [] []
  else scanSingle least cs.length.succ [] []

/-- The characters of a plain text in one line. It ends at a colon that ends a word, at a comment,
and within brackets at a punctuation mark. -/
def plainRun (inFlow : Bool) (before : Char) : List Char → List Char
  | [] => []
  | c :: cs =>
    if c == '\n' || (c == '#' && isSpace before) || (inFlow && isFlowMark c)
      || (c == ':' && (endsWord cs || (inFlow && cs.head?.any isFlowMark))) then []
    else c :: plainRun inFlow c cs

/-- The same text without blanks at its end. -/
def withoutBlanks (cs : List Char) : List Char := (cs.reverse.dropWhile isSpace).reverse

/-- Moves over the characters of a plain text in one line. -/
def takePlain (inFlow : Bool) : Move (List Char) := do
  let run := withoutBlanks (plainRun inFlow ' ' (← ahead))
  skip run.length
  return run

/-- A character that means something at the beginning of a node. -/
def isIndicator (c : Char) : Bool :=
  isFlowMark c || ['#', '&', '*', '!', '\'', '"', '%', '@', '\x60'].contains c

/-- A plain text may begin with these characters. -/
def beginsPlain (inFlow : Bool) : List Char → Bool
  | [] => false
  | c :: cs =>
    if c == '-' || c == '?' || c == ':' then
      !endsWord cs && !(inFlow && cs.head?.any isFlowMark)
    else !isSpace c && c != '\n' && !isIndicator c && (inFlow || (c != '|' && c != '>'))

/-- The further lines of a plain text, after its characters so far. -/
def scanPlainLines (inFlow : Bool) (least : Nat) : Nat → List Char → Move String
  | 0, _ => failure
  | fuel + 1, done => do
    let here ← get
    let further : Move (List Char) := do
      skipSpaces
      ensure ((← ahead).head? == some '\n')
      let count ← skipBreaks least here.rest.length.succ
      ensure ((← ahead).head? != some '#')
      let run ← takePlain inFlow
      ensure !run.isEmpty
      return done ++ foldedBreaks count ++ run
    match further.run here with
    | none => return String.ofList done
    | some (done, c) => do
      set c
      scanPlainLines inFlow least fuel done

/-- A plain text at the cursor. -/
def scanPlain (inFlow : Bool) (least : Nat) : Move String := do
  let cs ← ahead
  ensure (beginsPlain inFlow cs)
  scanPlainLines inFlow least cs.length.succ (← takePlain inFlow)

end RiskDecision.Yaml
