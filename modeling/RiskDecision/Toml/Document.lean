import RiskDecision.Toml.Scalar

/-!
# TOML documents

A document is a sequence of statements: assignments, and headers that say to which table the
following assignments belong. The statements build a tree. No key can be given twice, and a table
can be opened by a header only once, though it may have come into being before as the parent of
another.
-/

namespace RiskDecision.Toml

/-- How a table came into being. -/
inductive Origin
  /-- As the parent of a table that was opened. -/
  | implied
  /-- By a header of its own. -/
  | opened
  /-- By an assignment to a key with points. -/
  | assigned
  deriving DecidableEq

/-- A node of the tree that statements build. -/
inductive Node
  | value (s : Setting)
  | table (origin : Origin) (entries : List (String × Node))
  /-- The tables of an array, the last one first. -/
  | tables (items : List (List (String × Node)))

/-- The entries of a table under construction. -/
abbrev Entries := List (String × Node)

mutual

/-- The configured value of a node. -/
def Node.setting : Node → Setting
  | .value s => s
  | .table _ entries => .table (settings entries)
  | .tables items => .list (tableSettings items).reverse

/-- The configured values of the entries of a table. -/
def settings : List (String × Node) → List (String × Setting)
  | [] => []
  | (key, node) :: rest => Dictionary.insert key node.setting (settings rest)

/-- The configured values of the tables of an array. -/
def tableSettings : List (List (String × Node)) → List Setting
  | [] => []
  | entries :: rest => .table (settings entries) :: tableSettings rest

end

namespace Entries

/-- Puts a node under a key. -/
def put (key : String) (node : Node) (e : Entries) : Entries :=
  Dictionary.insert key node e

/-- Assigns a value to a key. The tables on the way must not have been opened by headers. -/
def assign (value : Setting) : List String → Entries → Option Entries
  | [], _ => none
  | [key], e =>
    match Dictionary.find? key e with
    | none => some (e.put key (.value value))
    | some _ => none
  | key :: rest, e =>
    match Dictionary.find? key e with
    | none => do return e.put key (.table .assigned (← assign value rest []))
    | some (.table .opened _) => none
    | some (.table origin inner) => do return e.put key (.table origin (← assign value rest inner))
    | some _ => none

/-- Changes the entries of the table at a path that headers lead to. -/
def change (f : Entries → Option Entries) : List String → Entries → Option Entries
  | [], e => f e
  | key :: rest, e =>
    match Dictionary.find? key e with
    | none => do return e.put key (.table .implied (← change f rest []))
    | some (.table origin inner) => do return e.put key (.table origin (← change f rest inner))
    | some (.tables (last :: before)) => do
      return e.put key (.tables ((← change f rest last) :: before))
    | some _ => none

/-- Opens a table. -/
def openTable (key : String) (e : Entries) : Option Entries :=
  match Dictionary.find? key e with
  | none => some (e.put key (.table .opened []))
  | some (.table .implied inner) => some (e.put key (.table .opened inner))
  | some _ => none

/-- Opens the next table of an array. -/
def openItem (key : String) (e : Entries) : Option Entries :=
  match Dictionary.find? key e with
  | none => some (e.put key (.tables [[]]))
  | some (.tables items) => some (e.put key (.tables ([] :: items)))
  | some _ => none

end Entries

mutual

/-- A value with at most `depth` containers around any of its parts. -/
def scanValue (depth fuel : Nat) (cs : List Char) : Option (Setting × List Char) :=
  match depth, fuel, cs with
  | depth + 1, fuel + 1, '[' :: cs => do
    let (items, rest) ← scanItems depth fuel (← skipTrivia false cs)
    return (.list items, rest)
  | depth + 1, fuel + 1, '\x7b' :: cs => do
    let (entries, rest) ← scanPairs depth fuel [] (← skipTrivia false cs)
    return (.table (settings entries), rest)
  | _, _, cs => scanScalar cs

/-- The items of an array up to its closing bracket. -/
def scanItems (depth fuel : Nat) (cs : List Char) : Option (List Setting × List Char) :=
  match fuel, cs with
  | _, ']' :: rest => some ([], rest)
  | 0, _ => none
  | fuel + 1, cs => do
    let (item, rest) ← scanValue depth fuel cs
    match ← skipTrivia false rest with
    | ']' :: rest => return ([item], rest)
    | ',' :: rest =>
      let (items, rest) ← scanItems depth fuel (← skipTrivia false rest)
      return (item :: items, rest)
    | _ => none

/-- The assignments of a table in braces up to the closing one. -/
def scanPairs (depth fuel : Nat) (done : Entries) (cs : List Char) :
    Option (Entries × List Char) :=
  match fuel, cs with
  | _, '\x7d' :: rest => some (done, rest)
  | 0, _ => none
  | fuel + 1, cs => do
    let (key, rest) ← scanKey cs
    match ← skipTrivia false rest with
    | '=' :: rest =>
      let (value, rest) ← scanValue depth fuel (← skipTrivia false rest)
      let done ← done.assign value key
      match ← skipTrivia false rest with
      | '\x7d' :: rest => return (done, rest)
      | ',' :: rest => scanPairs depth fuel done (← skipTrivia false rest)
      | _ => none
    | _ => none

end

/-- The document so far: all entries, and the table that assignments go to. -/
structure Document where
  entries : Entries
  current : List String

namespace Document

/-- Takes a header, which opens the last table of a path. -/
def takeHeader (d : Document) (opening : String → Entries → Option Entries)
    (path : List String) : Option Document := do
  let last ← path.getLast?
  let entries ← d.entries.change (opening last) path.dropLast
  return ⟨entries, path⟩

/-- Takes one statement from the front of the text. -/
def takeStatement (d : Document) (cs : List Char) : Option (Document × List Char) :=
  match cs with
  | '[' :: '[' :: cs => do
    let (path, rest) ← scanKey cs
    match rest with
    | ']' :: ']' :: rest => return (← d.takeHeader Entries.openItem path, rest)
    | _ => none
  | '[' :: cs => do
    let (path, rest) ← scanKey cs
    match rest with
    | ']' :: rest => return (← d.takeHeader Entries.openTable path, rest)
    | _ => none
  | cs => do
    let (key, rest) ← scanKey cs
    match rest with
    | '=' :: rest =>
      let (value, rest) ← scanValue maxDepth rest.length (skipSpaces rest)
      let entries ← d.entries.change (Entries.assign value key) d.current
      return ({ d with entries }, rest)
    | _ => none

/-- Takes statements to the end of the text, at most `fuel` of them. -/
def takeAll : Nat → Document → List Char → Option Document
  | fuel, d, cs =>
    match fuel, skipTrivia false cs with
    | _, none => none
    | _, some [] => some d
    | 0, _ => none
    | fuel + 1, some cs => do
      let (d, rest) ← d.takeStatement cs
      takeAll fuel d (← endLine rest)

end Document

/-- The text without a mark of its byte order at the front. -/
def withoutMark : List Char → List Char
  | '\uFEFF' :: cs => cs
  | cs => cs

/-- The top entries of a TOML text, or nothing if it is not well formed. -/
def read? (text : String) : Option (List (String × Setting)) :=
  let cs := withoutMark text.toList
  (Document.takeAll (cs.length + 1) ⟨[], []⟩ cs).map fun d => settings d.entries

end RiskDecision.Toml
