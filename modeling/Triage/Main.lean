import Triage.Command.Run

/-!
# The program `bv`

Runs a command line on the files of the machine.  A command is a function of the files it reads, so
it is run on those loaded so far, and once more whenever it names a response file that is not among
them.
-/

namespace Triage

/-- the reason that the system gives -/
def FileError.ofSystem : IO.Error → FileError
  | .noFileOrDirectory _ _ _ => .notFound
  | .inappropriateType _ code _ => if code = 21 then .isDirectory else .notDirectory
  | .permissionDenied _ code text =>
    .other (text ++ " (os error " ++ Text.integerText code.toNat ++ ")")
  | e => .other (toString e)

/-- the files looked at so far -/
abbrev Loaded := List (String × Except FileError (List UInt8))

namespace Loaded

def read (files : Loaded) : ReadBytes := fun path =>
  (Table.get? path files).getD (.error .notLoaded)

def add (files : Loaded) (path : String) : IO Loaded := do
  let found ← try
      let bytes ← IO.FS.readBinFile path
      pure (.ok bytes.toList)
    catch e => pure (.error (FileError.ofSystem e))
  return Table.put path found files

end Loaded

namespace Command

/-- what a command reads before anything else -/
def paths : Command → List String
  | .clangify s | .check s => ".env" :: s.input.toList
  | .filter r => [".env", r.reports]
  | .configShow => [".env"]
  | .version => []

def usesStdin : Command → Bool
  | .clangify s | .check s => s.input.isNone
  | _ => false

/-- the response file that a command is waiting for -/
def wanted? : CommandError → Option String
  | .build (.responseFile path (.unreadable .notLoaded)) => some path
  | _ => none

partial def complete (c : Command) (stdin : List UInt8) (vars : Variables) (files : Loaded) :
    IO Outcome := do
  match c.perform ⟨files.read, stdin, vars⟩ with
  | .ok o => return o
  | .error e =>
    match wanted? e with
    | some path => complete c stdin vars (← files.add path)
    | none => return e.outcome

end Command

def environmentNames : List String :=
  ["BUGVIEW_SEARCH_DEBOUNCE_MS", "BUGVIEW_DEFAULT_DETECTION_STATUS", "BUGVIEW_DEFAULT_UNIQUE",
   "BUGVIEW_ITEMS_PAGE_SIZE", "BUGVIEW_LOG_LEVEL", "BUGVIEW_CLANG_BINARY",
   "BUGVIEW_CLANGXX_BINARY"]

def environment : IO Variables :=
  environmentNames.filterMapM fun name => do
    return (← IO.getEnv name).map fun value => (name, value)

/-- the outcome of a command line, its file not yet written -/
def outcomeOf (args : List String) : IO Outcome := do
  match Command.parse? args with
  | none => return .usage
  | some c =>
    let files ← c.paths.foldlM Loaded.add []
    let stdin ← if c.usesStdin then (← IO.getStdin).readBinToEnd else pure ByteArray.empty
    c.complete stdin.toList (← environment) files

def Outcome.save (o : Outcome) : IO Outcome := do
  match o.file with
  | none => return o
  | some (path, text) =>
    try
      IO.FS.writeBinFile path text.toUTF8
      return o
    catch e => return .writeFailed (.ofSystem e)

end Triage

open Triage in
def main (args : List String) : IO UInt32 := do
  let o ← (← outcomeOf args).save
  IO.print o.stdout
  unless o.stderr.isEmpty do IO.eprintln o.stderr
  return UInt32.ofNat o.code
