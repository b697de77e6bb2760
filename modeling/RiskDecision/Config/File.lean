import RiskDecision.Files.Basic
import RiskDecision.Ini
import RiskDecision.Json.Parser
import RiskDecision.Json.Relaxed
import RiskDecision.Ron.Document
import RiskDecision.Text.Utf8
import RiskDecision.Toml.Document
import RiskDecision.Yaml.Document

/-!
# Configuration files

A configuration file is looked for under its name first and then under its name with the extension
of a format behind it. A file under the very name has the format of its extension; one without a
known format is passed over, as is one that is not there.
-/

namespace RiskDecision

mutual

/-- The configured value of a JSON value. -/
def Setting.ofJson : Json → Setting
  | .null => .null
  | .bool b => .bool b
  | .int n => .int n
  | .float x => .float x
  | .text s => .text s
  | .array items => .list (Setting.ofItems items)
  | .object members => .table (Setting.ofMembers members)

/-- The configured values of the items of an array. -/
def Setting.ofItems : List Json → List Setting
  | [] => []
  | j :: rest => Setting.ofJson j :: Setting.ofItems rest

/-- The configured values of the members of an object. -/
def Setting.ofMembers : List (String × Json) → List (String × Setting)
  | [] => []
  | (key, j) :: rest => (key, Setting.ofJson j) :: Setting.ofMembers rest

end

namespace ConfigFile

/-- A format of configuration files. -/
inductive Format
  | toml
  | json
  | yaml
  | ini
  | ron
  | json5
  deriving Repr, DecidableEq

namespace Format

/-- All formats in the order in which files of theirs are looked for. -/
def all : List Format := [.toml, .json, .yaml, .ini, .ron, .json5]

/-- The extensions of the files of a format. -/
def extensions : Format → List String
  | .toml => ["toml"]
  | .json => ["json"]
  | .yaml => ["yaml", "yml"]
  | .ini => ["ini"]
  | .ron => ["ron"]
  | .json5 => ["json5"]

/-- The format with an extension. -/
def ofExtension? (extension : String) : Option Format :=
  all.find? fun format => format.extensions.contains extension

/-- The members of an object as top entries. -/
def entriesOfJson? : Json → Option (List (String × Setting))
  | .object members => some (Setting.ofMembers members)
  | _ => none

/-- The top entries of a text, or nothing if it is not well formed. -/
def read? : Format → String → Option (List (String × Setting))
  | .toml, text => Toml.read? text
  | .json, text => (Json.ofText text).toOption.bind entriesOfJson?
  | .yaml, text => Yaml.read? text
  | .ini, text => Ini.read? text
  | .ron, text => Ron.read? text
  | .json5, text => (Json.Relaxed.read? text).bind entriesOfJson?

end Format

/-- The names for a file with the extension of a format behind its name, with that format. -/
def extendedNames (name : String) : List (String × Format) :=
  Format.all.flatMap fun format =>
    format.extensions.map fun extension => (name ++ "." ++ extension, format)

/-- The names under which a file is looked for. -/
def candidates (name : String) : List String := name :: (extendedNames name).map (·.1)

/-- The content of the file that is found for a name, with its format. -/
def find? (look : String → Option Entry) (name : String) : Option (Format × ByteArray) :=
  let content? (name : String) := (look name).bind Entry.content?
  match content? name with
  | some content => do
    let format ← Format.ofExtension? (← Path.extension? (Path.fileName name))
    return (format, content)
  | none => (extendedNames name).findSome? fun (extended, format) =>
    (content? extended).map fun content => (format, content)

/-- The top entries of the file that is found for a name. Bytes that are no text are replaced. -/
def read (look : String → Option Entry) (name : String) :
    Except ConfigFault (List (String × Setting)) :=
  match find? look name with
  | none => .ok []
  | some (format, content) =>
    match format.read? (Text.Utf8.decode content.toList) with
    | some entries => .ok entries
    | none => .error (.malformed name)

end ConfigFile

end RiskDecision
