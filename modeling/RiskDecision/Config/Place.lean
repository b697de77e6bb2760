import RiskDecision.Config.Setting
import RiskDecision.Text.Split

/-!
# Places in configured values

A place is reached from a value by steps, each to a key of a table or an item of a list. It is
written as names with points between them, and with numbers in brackets: `engine.root_aliases[0]`.
Putting a value in a place makes tables and lists on the way where there are none. A table is merged
into the table that is there already entry by entry; anything else replaces what is there.
-/

namespace RiskDecision

/-- A step from a value to a part of it. -/
inductive Place.Step
  | key (name : String)
  /-- An item of a list, counted from the end if the number is below zero. -/
  | item (index : Int)
  deriving Repr, DecidableEq

/-- The steps that lead to a part of a value. -/
abbrev Place := List Place.Step

namespace Place

/-- A character that may stand beside the number in brackets. -/
def isPadding (c : Char) : Bool := c == ' ' || c == '\t'

/-- The text between brackets as a number. -/
def index? (cs : List Char) : Option Int :=
  match ((cs.dropWhile isPadding).reverse.dropWhile isPadding).reverse with
  | '-' :: digits => Setting.intOfDigits? true digits
  | digits => Setting.intOfDigits? false digits

/-- The step to a key. -/
def keyStep? (name : List Char) : Option Step :=
  if name.isEmpty || !name.all Setting.isNameChar then none else some (.key (String.ofList name))

/-- The steps of a name with brackets behind it. -/
def segment? (cs : List Char) : Option Place := do
  match Text.splitChars '[' cs with
  | [] => none
  | name :: brackets =>
    let items ← brackets.mapM fun bracket => do
      if bracket.getLast? != some ']' then none
      return Step.item (← index? bracket.dropLast)
    return (← keyStep? name) :: items

/-- The place that a text denotes. -/
def ofText? (s : String) : Option Place := do
  let segments ← (Text.splitChars '.' s.toList).mapM segment?
  return segments.flatten

/-- The place of a key: the one that it denotes, or the entry of that very name. -/
def ofKey (key : String) : Place := (ofText? key).getD [.key key]

end Place

namespace Setting

/-- The entries of a table; anything else has none. -/
def entries : Setting → List (String × Setting)
  | .table entries => entries
  | _ => []

/-- The items of a list; anything else has none. -/
def items : Setting → List Setting
  | .list items => items
  | _ => []

/-- The table with one entry put in place. -/
def put (s : Setting) (key : String) (value : Setting) : Setting :=
  .table (Dictionary.insert key value s.entries)

/-- The value of a key, null if there is none. -/
def child (s : Setting) (key : String) : Setting :=
  (Dictionary.find? key s.entries).getD .null

/-- The items with null values added so that an index is among them, and its position then. -/
def reach (items : List Setting) : Int → List Setting × Nat
  | .ofNat n => (items ++ List.replicate (n + 1 - items.length) .null, n)
  | .negSucc n =>
    (List.replicate (n + 1 - items.length) .null ++ items, items.length - (n + 1))

/-- The value with the part behind a step changed. -/
def change (f : Setting → Setting) (s : Setting) : Place.Step → Setting
  | .key name => s.put name (f (s.child name))
  | .item index =>
    let (items, position) := reach s.items index
    .list (items.modify position f)

mutual

/-- The first value with the second merged into it. -/
def merge (old : Setting) : Setting → Setting
  | .table entries => mergeEntries (.table old.entries) entries
  | s => s

/-- The table with entries merged into it one by one. -/
def mergeEntries (old : Setting) : List (String × Setting) → Setting
  | [] => old
  | (key, value) :: rest => mergeEntries (old.put key ((old.child key).merge value)) rest

end

/-- Merges a value into a place. -/
def mergeAt (value : Setting) : Place → Setting → Setting
  | [], s => s.merge value
  | step :: rest, s => s.change (mergeAt value rest) step

/-- Merges a value into the place of a key. -/
def mergeKey (s : Setting) (key : String) (value : Setting) : Setting :=
  mergeAt value (Place.ofKey key) s

end Setting

end RiskDecision
