import RiskDecision.Text.Scan

/-!
# Between the parts of a TOML text

Blanks, line ends and comments, and the characters that a text or comment may hold. A carriage
return counts as part of a line end only, with a line feed behind it.
-/

namespace RiskDecision.Toml

/-- Blanks within a line. -/
def isSpace (c : Char) : Bool := c == ' ' || c == '\t'

/-- A character that may stand in a quoted text or a comment as itself. -/
def isPlain (c : Char) : Bool := c == '\t' || (0x20 ≤ c.toNat && c.toNat != 0x7F)

/-- The text without the blanks at its front. -/
def skipSpaces (cs : List Char) : List Char := cs.dropWhile isSpace

/-- The text behind the line end at its front, if there is one. -/
def afterLineEnd? : List Char → Option (List Char)
  | '\n' :: cs => some cs
  | '\x0d' :: '\n' :: cs => some cs
  | _ => none

/-- The text without blanks, line ends and comments at its front. -/
def skipTrivia (inComment : Bool) : List Char → Option (List Char)
  | [] => some []
  | '\n' :: cs => skipTrivia false cs
  | '\x0d' :: '\n' :: cs => skipTrivia false cs
  | c :: cs =>
    if inComment then if isPlain c then skipTrivia true cs else none
    else if c = '#' then skipTrivia true cs
    else if isSpace c then skipTrivia false cs
    else some (c :: cs)

/-- What follows a statement: the rest of the line holds at most a comment. -/
def endLine (cs : List Char) : Option (List Char) :=
  let rest := match skipSpaces cs with
    | '#' :: comment => comment.dropWhile isPlain
    | rest => rest
  if rest.isEmpty then some [] else afterLineEnd? rest

end RiskDecision.Toml
