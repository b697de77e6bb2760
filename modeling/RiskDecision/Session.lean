import RiskDecision.Config.App
import RiskDecision.Json.Printer
import RiskDecision.Service.Files

/-!
# A session on lines of text

A session starts a service from its configuration and then answers requests, one a line. Each line
that is not blank gets exactly one answer, which depends on that line and the published catalogs
only; a line that is no request, or whose request fails, is answered by an error. The session ends
with the input, or at a line that is no text.
-/

namespace RiskDecision

/-- The answer to a line. -/
inductive Answer
  | verdict (v : Verdict)
  | badRequest (error : RequestError)
  | fault (f : Fault)

namespace Answer

/-- The message for a line that is no request. -/
def badRequestMessage : String := "请求格式错误"

/-- Writes an answer. -/
def toJson : Answer → Json
  | .verdict v => v.toJson
  | .badRequest _ => .object [("error", .text badRequestMessage)]
  | .fault f => .object [("error", .text f.message)]

/-- The line that is written for an answer. -/
def line (a : Answer) : String := a.toJson.toText ++ "\n"

end Answer

/-- How a session ended. -/
inductive Ending
  /-- The input came to its end. -/
  | finished
  /-- A line is no text in UTF-8. -/
  | unreadableLine
  deriving Repr, DecidableEq

namespace Session

/-- The name of the service, which also names its configuration file. -/
def serviceName : String := "decision-engine"

/-- The variable that names the configuration directory. -/
def directoryVariable : String := "CONFIG_DIR"

/-- The configuration directory where none is named. -/
def defaultDirectory : String := "config"

/-- A variable from its name and its value with an equals sign between them. -/
def variableOf? (entry : List UInt8) : Option (String × String) := do
  let name ← String.fromUTF8? ⟨(entry.takeWhile (· != 61)).toArray⟩
  let value ← String.fromUTF8? ⟨((entry.dropWhile (· != 61)).drop 1).toArray⟩
  return (name, value)

/-- The configuration directory. -/
def directory (vars : List (String × String)) : String :=
  (vars.lookup directoryVariable).getD defaultDirectory

/-- The paths at which configuration files are looked for. -/
def configPaths (vars : List (String × String)) : List String :=
  let names := AppConfig.fileNames serviceName (AppConfig.environmentOf vars)
  (names.flatMap ConfigFile.candidates).map (Path.join (directory vars))

/-- The configuration, or the defaults if it cannot be loaded. -/
def configure (vars : List (String × String)) (look : String → Option Entry) : AppConfig :=
  match AppConfig.load serviceName vars fun name =>
      look (Path.join (directory vars) name) with
  | .ok config => config
  | .error _ => {}

/-- The service with the payload of a bundle file, if it can be loaded. -/
def withBundleFile (s : Service) (entry : Option Entry) : Service :=
  match entry.bind Entry.text? with
  | none => s
  | some text =>
    match Bundle.ofText text with
    | .ok b => s.after (Service.loadBundle b)
    | .error _ => s

/-- The service with the catalogs of a directory, if there is one. -/
def withDirectory (s : Service) (entry : Option Entry) : Service :=
  s.after (Service.loadDirectory entry)

/-- Starts the service of a configuration: the bundle file comes first, the directory second. -/
def start (config : AppConfig) (look : String → Option Entry) : Service :=
  let s := Service.start config.engine
  let s := withBundleFile s (config.catalog.bundleFile.bind look)
  withDirectory s (look config.catalog.directory)

/-- Answers a line; a blank one has no answer. -/
def answerLine (s : Service) (line : String) : Option Answer × Service :=
  if Text.isAllBlank line then (none, s)
  else
    match Request.ofText line with
    | .error e => (some (.badRequest e), s)
    | .ok request =>
      match (Service.evaluate request).run s with
      | .ok v s => (some (.verdict v), s)
      | .error f s => (some (.fault f), s)

/-- The parts of the input that a byte ends. What follows the last such byte is a part only if it is
not empty. -/
def partsEndedBy (stop : UInt8) : List UInt8 → List (List UInt8)
  | [] => []
  | b :: bs =>
    if b = stop then [] :: partsEndedBy stop bs
    else
      match partsEndedBy stop bs with
      | [] => [[b]]
      | part :: rest => (b :: part) :: rest

/-- The lines of the input. -/
def splitLines (input : List UInt8) : List (List UInt8) := partsEndedBy 10 input

/-- Answers bytes as a line, unless they are no text. -/
def answerBytes (s : Service) (line : ByteArray) : Except Ending (Option Answer × Service) :=
  match String.fromUTF8? line with
  | none => .error .unreadableLine
  | some text => .ok (answerLine s text)

/-- Answers lines until one is no text. -/
def answerLines (s : Service) : List (List UInt8) → List Answer × Ending
  | [] => ([], .finished)
  | line :: rest =>
    match answerBytes s ⟨line.toArray⟩ with
    | .error ending => ([], ending)
    | .ok (answer, s) =>
      let (answers, ending) := answerLines s rest
      (answer.toList ++ answers, ending)

/-- Answers the lines of an input. -/
def serve (s : Service) (input : List UInt8) : List Answer × Ending :=
  answerLines s (splitLines input)

end Session

end RiskDecision
