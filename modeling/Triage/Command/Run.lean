import Triage.Build.Verdict
import Triage.Build.Retarget
import Triage.Command.Parse
import Triage.Panel.Format
import Triage.Panel.Items
import Triage.Panel.Standard

/-!
# Running a command

A command reads from a `World` and ends in an `Outcome`: what to print, what to write to a file, and
the exit code.  Nothing is written before everything is computed.

* `Command.run`           the outcome of a command line;
* `Outcome.writeFailed`   the outcome if the file cannot be written;
* `FileTree.bv`           a command run on a tree of files.
-/

namespace Triage

open Json (Value)

/-- what a command can see -/
structure World where
  read : ReadBytes
  stdin : List UInt8 := []
  environment : Variables := []

structure Outcome where
  code : Nat := 0
  stdout : String := ""
  /-- the text of an error, without its last line feed -/
  stderr : String := ""
  /-- a file to write and its text -/
  file : Option (String × String) := none
deriving DecidableEq, Repr

inductive CommandError where
  | io (e : FileError)
  | store (e : FileError)
  | storeSyntax
  | databaseSyntax
  | build (e : BuildFault)
  | blankTab
deriving DecidableEq, Repr

namespace CommandError

def message : CommandError → String
  | .io e => "io error: " ++ e.message
  | .store e => "I/O error: " ++ e.message
  | .storeSyntax => "Serialization error:"
  | .databaseSyntax => "Invalid JSON:"
  | .build e => e.message
  | .blankTab => "invalid argument: --tab must not be empty"

def code : CommandError → Nat
  | .blankTab => 2
  | _ => 1

def outcome (e : CommandError) : Outcome := { code := e.code, stderr := "error: " ++ e.message }

end CommandError

namespace Outcome

/-- a text and a line feed, to a file or to the standard output -/
def ofText (output : Option String) (text : String) : Outcome :=
  match output with
  | none => { stdout := text ++ "\n" }
  | some path => { file := some (path, text ++ "\n") }

def writeFailed (e : FileError) : Outcome := (CommandError.io e).outcome

/-- the arguments are no command -/
def usage : Outcome :=
  { code := 2
    stderr := "usage: bv clangify|check [-i FILE] [-o FILE]\n" ++
      "       bv filter --reports FILE [--url QUERY] [--origin user|deep-link] [--tab NAME]\n" ++
      "       bv config show\n       bv --version" }

end Outcome

namespace World

/-- the variables, and behind them those of a file `.env` -/
def config (w : World) : Config :=
  let file := match loadText w.read ".env" with
    | .ok text => Dotenv.parse text
    | .error _ => []
  .ofVariables (Config.lookup w.environment file)

def input (w : World) (path : Option String) : Except CommandError String :=
  let text := match path with
    | some p => loadText w.read p
    | none => textOf w.stdin
  text.mapError .io

def store (w : World) (path : String) : Except CommandError Store := do
  let raw ← (loadText w.read path).mapError .store
  match Json.parseAs? Store.ofJson raw with
  | some s => pure s
  | none => throw .storeSyntax

end World

def Config.toJson (c : Config) : Value :=
  .record [("search_debounce_ms", natJson c.searchDebounceMs),
    ("default_detection_statuses", Value.texts (c.defaultDetectionStatuses.map Coded.label)),
    ("default_unique", .bool c.defaultUnique), ("items_page_size", natJson c.itemsPageSize),
    ("log_level", .text c.logLevel), ("clang_binary", .text c.clangBinary),
    ("clangxx_binary", .text c.clangxxBinary)]

def Config.drivers (c : Config) : Drivers := ⟨c.clangBinary, c.clangxxBinary⟩

namespace Panel

/-- the first page of candidates for every facet; a facet that has none keeps what it had -/
def fetchAll (p : Panel) : Panel :=
  p.facets.foldl (fun q f => (q.candidatesFor f.id { page := .first p.config.itemsPageSize }).2) p

end Panel

namespace Command

def runClangify (w : World) (s : Streams) : Except CommandError Outcome := do
  let raw ← w.input s.input
  match BuildStep.parseAll? raw with
  | none => throw .databaseSyntax
  | some es =>
    let done ← (w.config.drivers.retarget w.read es).mapError .build
    pure (.ofText s.output (BuildStep.listJson done.entries).pretty)

def runCheck (w : World) (s : Streams) : Except CommandError Outcome := do
  let raw ← w.input s.input
  match Verdict.ofText? raw with
  | none => throw .databaseSyntax
  | some r =>
    pure { Outcome.ofText s.output r.toJson.pretty with code := if r.hasErrors then 1 else 0 }

def runFilter (w : World) (r : FilterRequest) : Except CommandError Outcome := do
  if Text.isBlankText r.tab then throw .blankTab
  let store ← w.store r.reports
  let panel := Panel.standard w.config { store } r.tab
  let panel := (panel.load (.parse r.url) r.origin).2
  pure (.ofText none panel.fetchAll.toJson.pretty)

def perform (w : World) : Command → Except CommandError Outcome
  | .clangify s => runClangify w s
  | .check s => runCheck w s
  | .filter r => runFilter w r
  | .configShow => .ok (.ofText none w.config.toJson.pretty)
  | .version => .ok (.ofText none "bv 0.3.0")

def run (w : World) (args : List String) : Outcome :=
  match parse? args with
  | none => .usage
  | some c =>
    match c.perform w with
    | .ok o => o
    | .error e => e.outcome

end Command

/-- the outcome of a command line, and the files after it -/
def FileTree.bv (t : FileTree) (environment : Variables) (stdin : List UInt8) (args : List String) :
    Outcome × FileTree :=
  let o := Command.run ⟨t.read, stdin, environment⟩ args
  match o.file with
  | none => (o, t)
  | some (path, text) =>
    match t.write path (Text.Utf8.encode text.toList) with
    | .ok t => (o, t)
    | .error e => (.writeFailed e, t)

end Triage
