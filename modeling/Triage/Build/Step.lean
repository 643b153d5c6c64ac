import Triage.Build.Fault
import Triage.Build.Path
import Triage.Build.Shell
import Triage.Json.Printer
import Triage.Json.Reader

/-!
# Entries of a compilation database

* `BuildStep.argv`     the arguments of an entry: those listed, or else the words of its command;
* `BuildStep.source`   its file, resolved against its directory;
* `BuildStep.toJson`, `BuildStep.ofJson`, `BuildStep.parseAll?`   the JSON form.
-/

namespace Triage

open Json (Value Reader readList readOption columns need orElse)

structure BuildStep where
  directory : String
  file : String
  arguments : Option (List String) := none
  command : Option String := none
  output : Option String := none
deriving DecidableEq, Repr

namespace BuildStep

def argv (e : BuildStep) (index : Nat) : Except BuildFault (List String) :=
  match e.arguments, e.command with
  | some args, _ => .ok args
  | none, none => .error (.noCommand index)
  | none, some command =>
    match Shell.split command with
    | some args => .ok args
    | none => .error (.unsplittable index command)

def source (e : BuildStep) : String := Path.join e.directory e.file

def toJson (e : BuildStep) : Value :=
  .record ([("directory", .text e.directory), ("file", .text e.file)] ++
    Value.optional "arguments" Value.texts e.arguments ++
    Value.optional "command" .text e.command ++ Value.optional "output" .text e.output)

def listJson (es : List BuildStep) : Value := .list (es.map toJson)

def ofJson : Reader BuildStep := fun t =>
  match columns ["directory", "file", "arguments", "command", "output"] t with
  | some [directory, file, arguments, command, output] => do
    some ⟨← need Json.readText directory, ← need Json.readText file,
      ← orElse (readOption (readList Json.readText)) none arguments,
      ← orElse (readOption Json.readText) none command,
      ← orElse (readOption Json.readText) none output⟩
  | _ => none

def parseAll? (raw : String) : Option (List BuildStep) := Json.parseAs? (readList ofJson) raw

end BuildStep

end Triage
