import RiskDecision.Files.Basic
import RiskDecision.Service.Basic

/-!
# Loading catalogs from files

A catalog file is named for its domain. Loading a directory loads its catalog files one by one in
ascending order of their names; a file that cannot be loaded changes nothing and stops nothing, so
of several files for one domain the last one that loads is in force.
-/

namespace RiskDecision

/-- Why a catalog file or directory cannot be loaded. -/
inductive FileFault
  /-- There is no such file or directory, or it is no text. -/
  | unreadable
  | fault (f : Fault)
  deriving Repr

namespace Service

/-- Loads a catalog file, given its name and what is found under it. -/
def loadFile (name : String) (entry : Option Entry) : Operation FileFault LoadReport :=
  match entry.bind Entry.text? with
  | none => throw .unreadable
  | some text => (loadText (Path.stem name) text).adaptExcept .fault

/-- The catalog files among the entries of a directory, in ascending order of their names. -/
def catalogFiles (entries : List (String × Entry)) : List (String × Entry) :=
  (entries.filter fun e => !e.2.isDirectory && Path.isCatalogName e.1).mergeSort
    fun a b => a.1 ≤ b.1

/-- Loads files one after the other. One that cannot be loaded has no report. -/
def loadFiles : List (String × Entry) → Operation FileFault (List LoadReport)
  | [] => return []
  | e :: rest => do
    let report ← tryCatch (some <$> loadFile e.1 (some e.2)) fun _ => return none
    let reports ← loadFiles rest
    return report.toList ++ reports

/-- Loads the catalog files of a directory. -/
def loadDirectory (directory : Option Entry) : Operation FileFault (List LoadReport) :=
  match directory.bind Entry.entries? with
  | none => throw .unreadable
  | some entries => loadFiles (catalogFiles entries)

end Service

end RiskDecision
