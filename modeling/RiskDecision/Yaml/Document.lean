import RiskDecision.Yaml.BlockText
import RiskDecision.Yaml.Flow

/-!
# YAML documents

Outside of brackets, lists and tables are blocks: all items of a list, and all keys of a table,
begin in the same column, and what belongs to them is indented further. Only the items of a list may
begin in the column of the key that they belong to. A text holds at most one document, which is a
table.
-/

namespace RiskDecision.Yaml

/-- A key of a table, with the colon behind it in the same line. -/
def scanKey : Move Scalar := do
  let line := (← get).line
  let p ← properties
  let node ← match ← ahead with
    | '*' :: _ => scanRepeated
    | '"' :: _ | '\'' :: _ => do pure (Node.scalar (.text (← scanQuoted 0)))
    | cs => do
      ensure (beginsPlain false cs)
      pure (Node.plain (String.ofList (← takePlain false)))
  let key ← p.give node
  skipSpaces
  let c ← get
  ensure (c.line = line && c.atLone ':')
  skip 1
  scalarOf key

/-- The cursor is at a key of a table. -/
def atKey (c : Cursor) : Bool := c.atLone '?' || (scanKey.run c).isSome

/-- A node without further nodes in blocks, up to the end of its line. -/
def scanLeaf (parent : Int) (fuel : Nat) : Move Node := do
  let least := (parent + 1).toNat
  match ← ahead with
  | '|' :: _ | '>' :: _ => do return .scalar (.text (← scanBlock parent))
  | '*' :: _ => do
    let node ← scanRepeated
    endLine
    return node
  | '[' :: _ | '\x7b' :: _ => do
    let node ← flowNode parent.toNat fuel
    endLine
    return node
  | '"' :: _ | '\'' :: _ => do
    let s ← scanQuoted least
    endLine
    return .scalar (.text s)
  | _ => do
    let s ← scanPlain false least
    endLine
    return .plain s

/-- The cursor is behind the last part of a node whose parent begins in the column `parent`. Where
`listHere` holds, the items of a list may begin in that column, too. -/
def isBehind (c : Cursor) (parent : Int) (fresh listHere : Bool) : Bool :=
  c.atEnd || (fresh && c.column ≤ parent && !(listHere && c.column = parent && c.atLone '-'))

mutual

/-- A node of a block that begins in the column `parent`. Where `compact` holds, a list or table may
begin in the same line. -/
def blockNode (parent : Int) (listHere compact : Bool) : Nat → Move Node
  | 0 => failure
  | fuel + 1 => do
    let fresh ← nextToken false
    let c ← get
    let opened := fresh || compact
    if isBehind c parent fresh listHere then return .plain ""
    if opened && c.atLone '-' then return .list (← blockItems c.column fuel)
    if opened && atKey c then tableOf (← blockEntries c.column fuel)
    else
      let p ← properties
      if p.any then p.give (← blockNode parent listHere false fuel)
      else scanLeaf parent fuel

/-- The items of a list whose hyphens stand in a column. -/
def blockItems (column : Nat) : Nat → Move (List Setting)
  | 0 => failure
  | fuel + 1 => do
    skip 1
    let item ← settingOf (← blockNode column false true fuel)
    let _ ← nextToken false
    let c ← get
    if c.atEnd || c.column < column then return [item]
    ensure (c.column = column)
    if c.atLone '-' then return item :: (← blockItems column fuel)
    else return [item]

/-- A key with its value. -/
def blockEntry (column : Nat) : Nat → Move (Scalar × Setting)
  | 0 => failure
  | fuel + 1 => do
    if (← get).atLone '?' then
      skip 1
      let key ← scalarOf (← blockNode column false true fuel)
      let _ ← nextToken false
      let c ← get
      if c.column = column && c.atLone ':' then
        skip 1
        return (key, ← settingOf (← blockNode column true true fuel))
      else return (key, .null)
    else
      let key ← scanKey
      return (key, ← settingOf (← blockNode column true false fuel))

/-- The entries of a table whose keys begin in a column. -/
def blockEntries (column : Nat) : Nat → Move (List (Scalar × Setting))
  | 0 => failure
  | fuel + 1 => do
    let entry ← blockEntry column fuel
    let _ ← nextToken false
    let c ← get
    if c.atEnd || c.column < column then return [entry]
    ensure (c.column = column)
    ensure (atKey c)
    return entry :: (← blockEntries column fuel)

end

/-- Single line feeds in place of all line ends. -/
def unifyLineEnds : List Char → List Char
  | '\x0d' :: '\n' :: cs => '\n' :: unifyLineEnds cs
  | '\x0d' :: cs => '\n' :: unifyLineEnds cs
  | c :: cs => c :: unifyLineEnds cs
  | [] => []

/-- Moves over directives, and tells whether there are any. -/
def skipDirectives : Nat → Move Bool
  | 0 => failure
  | fuel + 1 => do
    let _ ← nextToken false
    let c ← get
    if c.column = 0 && c.rest.head? == some '%' then
      skip (c.rest.takeWhile (· != '\n')).length
      let _ ← skipDirectives fuel
      return true
    else return false

/-- Moves behind marks of the end of a document, which must be the end of the text. -/
def endText : Nat → Move Unit
  | 0 => failure
  | fuel + 1 => do
    let _ ← nextToken false
    let c ← get
    if c.atMark '.' then
      skip 3
      endLine
      endText fuel
    else ensure c.rest.isEmpty

/-- The only document of a text; without any, a table without entries. -/
def scanDocument (fuel : Nat) : Move Node := do
  let directed ← skipDirectives fuel
  let c ← get
  if c.atMark '-' then
    skip 3
    let node ← blockNode (-1) false false fuel
    endText fuel
    return node
  else
    ensure !directed
    let node ← if c.atEnd then pure (.table []) else blockNode (-1) false true fuel
    endText fuel
    return node

/-- The top entries of a text, or nothing if it is not well formed or no table. -/
def read? (text : String) : Option (List (String × Setting)) :=
  let cs := unifyLineEnds text.toList
  match (scanDocument (4 * cs.length + 8)).run (.start cs) with
  | some (.table entries, _) => some entries
  | _ => none

end RiskDecision.Yaml
