import RiskDecision.Yaml.Cursor

/-!
# Blocks of text in YAML

A text may be written as a block of lines that are indented alike. A literal block keeps its line
ends; a folded one makes a blank of a line end between two lines that neither are empty nor indented
further.
-/

namespace RiskDecision.Yaml

/-- What becomes of the line ends at the end of a block. -/
inductive Chomping
  | strip
  | clip
  | keep

/-- How a block is to be read. -/
structure BlockHeader where
  folded : Bool
  chomping : Chomping
  /-- How much further than its parent it is indented, if that is said. -/
  indent : Option Nat

/-- The indicators behind the one that begins a block: each at most once, in any order. -/
def headerOf? (folded : Bool) (cs : List Char) : Option BlockHeader :=
  let chomping? (c : Char) : Option Chomping :=
    if c == '+' then some .keep else if c == '-' then some .strip else none
  let indent? (c : Char) : Option Nat :=
    if c.isDigit && c != '0' then Text.hexValue? c else none
  match cs with
  | [] => some ⟨folded, .clip, none⟩
  | [a] =>
    match chomping? a, indent? a with
    | some chomping, _ => some ⟨folded, chomping, none⟩
    | none, some n => some ⟨folded, .clip, some n⟩
    | none, none => none
  | [a, b] =>
    match chomping? a, indent? b, indent? a, chomping? b with
    | some chomping, some n, _, _ | _, _, some n, some chomping => some ⟨folded, chomping, some n⟩
    | _, _, _, _ => none
  | _ => none

/-- The lines of a block: empty ones, and those that are indented at least as far as the first line
that is not empty, or as far as is said. The cursor stays at the first line behind it. -/
def takeLines (least : Nat) (indent : Option Nat) : Nat → Move (List (List Char))
  | 0 => failure
  | fuel + 1 => do
    let here ← get
    if here.rest.isEmpty || here.atEnd then return []
    let line := here.rest.takeWhile (· != '\n')
    let spaces := (line.takeWhile (· == ' ')).length
    let indent := match indent with
      | none => if spaces < line.length then some (max least spaces) else none
      | some n => some n
    if spaces = line.length || indent.any (· ≤ spaces) then do
      skip line.length
      modify (·.next)
      return line.drop (indent.getD line.length) :: (← takeLines least indent fuel)
    else return []

/-- The text of lines with their line ends. In a folded block a line end between two lines that
neither are empty nor begin with a blank becomes a blank, and of several the first is dropped. -/
def joinLines (folded : Bool) : List (List Char) → List Char
  | [] => []
  | [line] => line
  | line :: rest =>
    let isBody (l : List Char) := l.head?.any (!isSpace ·)
    let next := rest.find? (!·.isEmpty)
    let breaks := if folded && isBody line && next.any isBody then
        if rest.head?.any (·.isEmpty) then [] else [' ']
      else ['\n']
    line ++ breaks ++ joinLines folded rest

/-- A block of lines at the cursor, in a node that is indented by `parent`. -/
def scanBlock (parent : Int) : Move String := do
  let c :: cs ← ahead | failure
  let indicators := cs.takeWhile fun c => c == '+' || c == '-' || c.isDigit
  let some header := headerOf? (c == '>') indicators | failure
  skip (indicators.length + 1)
  endLine
  modify (·.next)
  let least := (parent + 1).toNat
  let indent := header.indent.map fun n => (max parent 0).toNat + n
  let lines ← takeLines (max least 1) indent ((← ahead).length + 1)
  let body := (lines.reverse.dropWhile (·.isEmpty)).reverse
  let text := joinLines header.folded body
  let breaks := match header.chomping with
    | .strip => []
    | .clip => if body.isEmpty then [] else ['\n']
    | .keep => List.replicate (lines.length - body.length + (if body.isEmpty then 0 else 1)) '\n'
  return String.ofList (text ++ breaks)

end RiskDecision.Yaml
