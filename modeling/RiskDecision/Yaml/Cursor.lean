import RiskDecision.Yaml.Node

/-!
# Moving through a YAML text

A cursor knows the column that it is in, because blocks are told apart by their indentation, and the
nodes that were given a name so far. Line ends are single line feeds. Lines that begin with three
hyphens or three points mark where documents begin and end.
-/

namespace RiskDecision.Yaml

/-- A place in a text. -/
structure Cursor where
  rest : List Char
  line : Nat
  column : Nat
  /-- The nodes that were named before, the last one first. -/
  named : List (String × Node)

/-- A reader that moves a cursor, and fails where the text is not well formed. -/
abbrev Move (α : Type) : Type := StateT Cursor Option α

/-- A blank within a line. -/
def isSpace (c : Char) : Bool := c == ' ' || c == '\t'

/-- Nothing, a blank or a line end follows. -/
def endsWord : List Char → Bool
  | [] => true
  | c :: _ => isSpace c || c == '\n'

/-- A punctuation mark of lists and tables in brackets. -/
def isFlowMark (c : Char) : Bool := [',', '[', ']', '\x7b', '\x7d'].contains c

namespace Cursor

/-- At the first character of a text. -/
def start (cs : List Char) : Cursor := ⟨cs, 0, 0, []⟩

/-- Behind the next character. -/
def next (c : Cursor) : Cursor :=
  match c.rest with
  | [] => c
  | '\n' :: rest => { c with rest, line := c.line + 1, column := 0 }
  | _ :: rest => { c with rest, column := c.column + 1 }

/-- Behind characters of the same line. -/
def skip (c : Cursor) (n : Nat) : Cursor :=
  { c with rest := c.rest.drop n, column := c.column + n }

/-- At a line that marks the beginning or end of a document. -/
def atMark (c : Cursor) (mark : Char) : Bool :=
  c.column = 0 && c.rest.take 3 == [mark, mark, mark] && endsWord (c.rest.drop 3)

/-- At the end of a document. -/
def atEnd (c : Cursor) : Bool := c.rest.isEmpty || c.atMark '-' || c.atMark '.'

/-- At an indicator that stands alone. -/
def atLone (c : Cursor) (indicator : Char) : Bool :=
  c.rest.head? == some indicator && endsWord (c.rest.drop 1)

end Cursor

/-- The characters that follow. -/
def ahead : Move (List Char) := return (← get).rest

/-- Moves over characters of the same line. -/
def skip (n : Nat) : Move Unit := modify (·.skip n)

/-- Goes on only if a condition holds. -/
def ensure (b : Bool) : Move Unit := if b then pure () else failure

/-- Moves over blanks in the line. -/
def skipSpaces : Move Unit := do skip ((← ahead).takeWhile isSpace).length

/-- Moves over a comment, if there is one. Nothing but a blank or the beginning of a line may stand
in front of it. -/
def skipComment (separate : Bool) : Move Unit := do
  if (← ahead).head? == some '#' then
    ensure separate
    skip ((← ahead).takeWhile (· != '\n')).length

/-- Moves over blanks and a comment to the end of the line. -/
def endLine : Move Unit := do
  let column := (← get).column
  skipSpaces
  skipComment ((← get).column != column || column = 0)
  ensure ((← ahead).isEmpty || (← ahead).head? == some '\n')

/-- Moves to the next character that is no blank, line end or part of a comment. No tab may stand in
front of it at the beginning of a line, unless it is within brackets. -/
def skipGap (inFlow : Bool) : Nat → Move Unit
  | 0 => failure
  | fuel + 1 => do
    let before := (← get).column
    let blanks := (← ahead).takeWhile isSpace
    skip blanks.length
    match (← ahead).head? with
    | some '\n' => do
      modify (·.next)
      skipGap inFlow fuel
    | some '#' => do
      skipComment (before = 0 || !blanks.isEmpty)
      skipGap inFlow fuel
    | some _ => ensure (inFlow || before != 0 || !blanks.contains '\t')
    | none => pure ()

/-- Moves to the next token, and tells whether it stands in another line. -/
def nextToken (inFlow : Bool) : Move Bool := do
  let c ← get
  skipGap inFlow (c.rest.length + 1)
  return (← get).line != c.line

end RiskDecision.Yaml
