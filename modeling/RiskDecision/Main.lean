import RiskDecision.Session
import RiskDecision.Watch

/-!
# The command line

The program reads its configuration and its catalogs, then answers the requests on its standard
input, a line each. It fails only at a line that is no text. If it is configured to watch the
catalog directory, catalogs that changed meanwhile are loaded again before the next line.
-/

namespace RiskDecision.Program

/-- The variables of this process. -/
def vars : IO (List (String × String)) := do
  try
    let block ← IO.FS.readBinFile "/proc/self/environ"
    return (Session.partsEndedBy 0 block.toList).filterMap Session.variableOf?
  catch _ => return []

/-- The file at a path, if it can be read. -/
def readFile (path : String) : IO (Option Entry) := do
  try return some (.file (← IO.FS.readBinFile path))
  catch _ => return none

/-- The directory at a path with its catalog files, if it can be read. -/
def readDirectory (path : String) : IO (Option Entry) := do
  try
    let listing ← ((← IO.currentDir) / path).readDir
    let names := (listing.toList.map (·.fileName)).filter Path.isCatalogName
    let entries ← names.filterMapM fun name => do
      return (← readFile (Path.join path name)).map fun entry => (name, entry)
    return some (.directory entries)
  catch _ => return none

/-- What is found at the paths that a session looks at. -/
def found (paths : List String) (read : String → IO (Option Entry)) :
    IO (List (String × Entry)) :=
  paths.filterMapM fun path => return (← read path).map fun entry => (path, entry)

/-- The bytes of the next line without its end, nothing at the end of the input. -/
partial def readLine (input : IO.FS.Stream) (line : ByteArray) : IO (Option ByteArray) := do
  match (← input.read 1).toList with
  | [] => return if line.isEmpty then none else some line
  | b :: _ => if b = 10 then return some line else readLine input (line.push b)

/-- A running program. -/
structure Running where
  service : Service
  /-- The watcher of the catalog directory. -/
  watcher : Option Watcher
  /-- The content of the catalog directory when it was last looked at. -/
  catalogs : List (String × Entry)

/-- Loads catalogs again that changed. -/
def Running.refresh (r : Running) : IO Running := do
  match r.watcher with
  | none => return r
  | some w =>
    match (← readDirectory w.directory).bind Entry.entries? with
    | none => return r
    | some catalogs =>
      return { r with service := w.afterChanges r.service r.catalogs catalogs, catalogs }

/-- Answers lines to the end of the input. -/
partial def Running.answerAll (r : Running) (input output : IO.FS.Stream) : IO Ending := do
  match ← readLine input .empty with
  | none => return .finished
  | some line =>
    let r ← r.refresh
    match Session.answerBytes r.service line with
    | .error ending => return ending
    | .ok (answer, service) =>
      if let some answer := answer then
        output.putStr answer.line
        output.flush
      Running.answerAll { r with service } input output

/-- Starts the program. -/
def start : IO Running := do
  let vars ← vars
  let configFiles ← found (Session.configPaths vars) readFile
  let config := Session.configure vars (configFiles.lookup ·)
  let directory := config.catalog.directory
  let bundle ← found config.catalog.bundleFile.toList readFile
  let catalogs ← readDirectory directory
  let look (path : String) := if path = directory then catalogs else bundle.lookup path
  let service := Session.start config look
  let watcher := if config.catalog.watch then (Watcher.create directory).start catalogs else none
  return { service, watcher, catalogs := (catalogs.bind Entry.entries?).getD [] }

end RiskDecision.Program

/-- Answers the requests on the standard input. -/
def main : IO UInt32 := do
  let running ← RiskDecision.Program.start
  match ← running.answerAll (← IO.getStdin) (← IO.getStdout) with
  | .finished => return 0
  | .unreadableLine => return 1
