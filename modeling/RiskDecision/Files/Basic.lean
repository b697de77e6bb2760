import RiskDecision.Text.Ascii
import RiskDecision.Text.Split

/-!
# Files and directories

The files that a program is given, as a tree of named entries. Paths are relative to the root and
are followed name by name; an empty name and a single point stay where they are, two points lead to
the directory above. Only directories can be entered.
-/

namespace RiskDecision

/-- A file or directory. -/
inductive Entry
  | file (content : ByteArray)
  | directory (entries : List (String × Entry))

namespace Entry

/-- A directory without entries. -/
def emptyDirectory : Entry := .directory []

/-- The entry is a directory. -/
def isDirectory : Entry → Bool
  | .directory _ => true
  | .file _ => false

/-- The entries of a directory. -/
def entries? : Entry → Option (List (String × Entry))
  | .directory entries => some entries
  | .file _ => none

/-- The content of a file. -/
def content? : Entry → Option ByteArray
  | .file content => some content
  | .directory _ => none

/-- The text of a file in UTF-8. -/
def text? (e : Entry) : Option String := e.content?.bind fun content => String.fromUTF8? content

/-- Follows names from an entry, with the directories above it, the innermost first. -/
def followFrom (above : List Entry) (entry : Entry) : List String → Option Entry
  | [] => some entry
  | name :: rest =>
    match entry with
    | .file _ => none
    | .directory entries =>
      if name = "" || name = "." then followFrom above entry rest
      else if name = ".." then
        match above with
        | [] => none
        | parent :: above => followFrom above parent rest
      else
        match entries.lookup name with
        | some inner => followFrom (entry :: above) inner rest
        | none => none

/-- The entry at a path. The empty path leads nowhere. -/
def at? (root : Entry) (path : String) : Option Entry :=
  if path = "" || path.toList.head? == some '/' then none
  else followFrom [] root (Text.split '/' path)

/-- The directory with one entry put in place, or anything else replaced by such a directory. -/
def putNames (inner : Entry) : List String → Entry → Entry
  | [], _ => inner
  | name :: rest, entry =>
    let entries := (entry.entries?).getD []
    let old := (entries.lookup name).getD emptyDirectory
    .directory ((entries.filter (·.1 != name)) ++ [(name, putNames inner rest old)])

/-- The names that lead from the root to a place, after one more name on a path to it. -/
def stepNames (names : List String) (name : String) : List String :=
  if name = "" || name = "." then names
  else if name = ".." then names.dropLast
  else names ++ [name]

/-- The names that lead from the root to the end of a path. -/
def names (path : String) : List String := (Text.split '/' path).foldl stepNames []

/-- The tree with a directory at the end of names, unless a directory is there already. -/
def ensureDirectory (root : Entry) (names : List String) : Entry :=
  if (followFrom [] root names).any isDirectory then root else putNames emptyDirectory names root

/-- The tree with the directories on the way along a path, those that it leaves again included. -/
def ensureWay (root : Entry) (place : List String) : List String → Entry
  | [] | [_] => root
  | name :: rest =>
    let next := stepNames place name
    ensureWay (ensureDirectory root next) next rest

/-- Puts an entry at a path, with the directories on the way. -/
def put (root : Entry) (path : String) (inner : Entry) : Entry :=
  putNames inner (names path) (ensureWay root [] (Text.split '/' path))

/-- Takes the entry at the end of names away. -/
def removeNames : List String → Entry → Entry
  | [], entry => entry
  | [name], .directory entries => .directory (entries.filter (·.1 != name))
  | name :: rest, .directory entries =>
    match entries.lookup name with
    | none => .directory entries
    | some inner =>
      .directory (entries.map fun e => if e.1 = name then (name, removeNames rest inner) else e)
  | _, .file content => .file content

/-- Takes the entry at a path away. -/
def remove (root : Entry) (path : String) : Entry := removeNames (names path) root

end Entry

namespace Path

/-- A path seen from a directory; one from the very root stays as it is. -/
def join (directory path : String) : String :=
  if directory = "" || path.toList.head? == some '/' then path else directory ++ "/" ++ path

/-- The last name on a path. -/
def fileName (path : String) : String := ((Entry.names path).getLast?).getD ""

/-- The path of the directory that holds the last name, as names. -/
def parentNames (path : String) : List String := (Entry.names path).dropLast

/-- A name before and after its last point. A point at the very start belongs to the name. -/
def cut (name : String) : String × Option String :=
  match (Text.split '.' name).reverse with
  | [] | [_] => (name, none)
  | [last, first] => if first = "" then (name, none) else (first, some last)
  | last :: rest => (".".intercalate rest.reverse, some last)

/-- The name of a file without its extension. -/
def stem (name : String) : String := (cut name).1

/-- The extension of a file. -/
def extension? (name : String) : Option String := (cut name).2

/-- The name is that of a catalog file: its extension is `json` in any case. -/
def isCatalogName (name : String) : Bool :=
  (extension? name).any fun e => Text.sameIgnoringCase e "json"

end Path

end RiskDecision
