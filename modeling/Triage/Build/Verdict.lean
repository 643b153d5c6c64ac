import Triage.Build.Path
import Triage.Build.Shell
import Triage.Json.Printer
import Triage.Json.Term
import Triage.Text.Blank

/-!
# Checking a compilation database

* `Problem`               what can be wrong with a database or an entry, with its code, message and
                          severity;
* `Inspection.inspect`    the problems of an entry on its own, and its meaning if it is complete: a
                          file, a directory and arguments from one source;
* `Inspection.compare`    the problems of a complete entry beside the complete ones before it;
* `Inspection.findings`   all findings, in the order of the entries.
-/

namespace Triage

open Json (Value)

inductive Problem where
  | notAnArray
  | notAnObject
  | missingFile
  | missingDirectory
  | relativeDirectory (dir : String)
  | ambiguousCommand
  | missingCommand
  | invalidArguments
  | unparseableCommand (command : Value)
  | duplicateEntry (first : Nat)
  | conflictingArguments (source : String) (first : Nat)

namespace Problem

def isWarning : Problem → Bool
  | .relativeDirectory _ | .duplicateEntry _ | .conflictingArguments _ _ => true
  | _ => false

def code : Problem → String
  | .notAnArray => "not-an-array"
  | .notAnObject => "not-an-object"
  | .missingFile => "missing-file"
  | .missingDirectory => "missing-directory"
  | .relativeDirectory _ => "relative-directory"
  | .ambiguousCommand => "ambiguous-command"
  | .missingCommand => "missing-command"
  | .invalidArguments => "invalid-arguments"
  | .unparseableCommand _ => "unparseable-command"
  | .duplicateEntry _ => "duplicate-entry"
  | .conflictingArguments _ _ => "conflicting-arguments"

def message : Problem → String
  | .notAnArray => "compilation database must be a JSON array"
  | .notAnObject => "entry is not a JSON object"
  | .missingFile => "'file' is missing or empty"
  | .missingDirectory => "'directory' is missing or empty"
  | .relativeDirectory dir => "'directory' is not absolute: " ++ dir
  | .ambiguousCommand => "both 'arguments' and 'command' are set"
  | .missingCommand => "neither 'arguments' nor 'command' is set"
  | .invalidArguments => "'arguments' must be a non-empty array of strings"
  | .unparseableCommand command => "'command' cannot be split: " ++ command.compact
  | .duplicateEntry first => "duplicate of entry " ++ Text.integerText first
  | .conflictingArguments source first =>
    source ++ " is also compiled by entry " ++ Text.integerText first ++ " with different arguments"

end Problem

structure Finding where
  /-- the place of the entry; none for the database itself -/
  index : Option Nat
  problem : Problem

/-- an entry whose meaning is clear -/
structure CompleteEntry where
  file : String
  directory : String
  argv : List String
deriving DecidableEq, Repr

def CompleteEntry.source (e : CompleteEntry) : String := Path.join e.directory e.file

namespace Inspection

/-- a text that is not blank -/
def filledText? : Option Value → Option String
  | some (.text s) => if Text.isBlankText s then none else some s
  | _ => none

def texts? : List Value → Option (List String)
  | [] => some []
  | .text s :: vs => (texts? vs).map (s :: ·)
  | _ :: _ => none

def listed? : Value → Option (List String)
  | .list (v :: vs) => texts? (v :: vs)
  | _ => none

/-- the words of a command, if there is at least one -/
def commandWords? : Value → Option (List String)
  | .text s => (Shell.split s).filter (· ≠ [])
  | _ => none

def directoryProblems (directory : Option String) : List Problem :=
  match directory with
  | none => [.missingDirectory]
  | some dir => if Path.isAbsolute dir then [] else [.relativeDirectory dir]

def argv (arguments command : Option Value) : Except Problem (List String) :=
  match arguments, command with
  | some _, some _ => .error .ambiguousCommand
  | none, none => .error .missingCommand
  | some v, none =>
    match listed? v with
    | some args => .ok args
    | none => .error .invalidArguments
  | none, some v =>
    match commandWords? v with
    | some args => .ok args
    | none => .error (.unparseableCommand v)

def problemOf {α : Type} : Except Problem α → List Problem
  | .ok _ => []
  | .error p => [p]

def inspect (item : Value) : List Problem × Option CompleteEntry :=
  if item.isRecord then
    let file := filledText? (item.get? "file")
    let directory := filledText? (item.get? "directory")
    let args := argv (item.get? "arguments") (item.get? "command")
    let problems := (if file.isNone then [.missingFile] else []) ++ directoryProblems directory ++
      problemOf args
    match file, directory, args with
    | some file, some directory, .ok argv => (problems, some ⟨file, directory, argv⟩)
    | _, _, _ => (problems, none)
  else ([.notAnObject], none)

/-- complete entries that differ from all before them, the first of them first -/
abbrev Seen := List (Nat × CompleteEntry)

def compare (seen : Seen) (e : CompleteEntry) : List Problem :=
  match seen.find? (·.2 == e) with
  | some (first, _) => [.duplicateEntry first]
  | none =>
    match seen.find? (·.2.source == e.source) with
    | some (first, other) =>
      if other.argv = e.argv then [] else [.conflictingArguments e.source first]
    | none => []

def remember (seen : Seen) (index : Nat) (e : CompleteEntry) : Seen :=
  if seen.any (·.2 == e) then seen else seen ++ [(index, e)]

def entries (index : Nat) (seen : Seen) : List Value → List Finding
  | [] => []
  | item :: items =>
    let (problems, complete) := inspect item
    let more := match complete with
      | some e => compare seen e
      | none => []
    let seen := match complete with
      | some e => remember seen index e
      | none => seen
    (problems ++ more).map (⟨some index, ·⟩) ++ entries (index + 1) seen items

def findings : Value → List Finding
  | .list items => entries 0 [] items
  | _ => [⟨none, .notAnArray⟩]

end Inspection

/-- the findings about a database, and how many entries it has -/
structure Verdict where
  entries : Nat
  findings : List Finding

namespace Verdict

def ofValue (v : Value) : Verdict where
  entries := match v with
    | .list items => items.length
    | _ => 0
  findings := Inspection.findings v

/-- none if the text is not JSON -/
def ofText? (raw : String) : Option Verdict := (Value.parse? raw).map ofValue

def warnings (r : Verdict) : Nat := r.findings.countP (·.problem.isWarning)

def errors (r : Verdict) : Nat := r.findings.countP fun f => !f.problem.isWarning

def hasErrors (r : Verdict) : Bool := 0 < r.errors

end Verdict

def Finding.toJson (f : Finding) : Value :=
  .record (Value.optional "index" (fun n : Nat => .int n) f.index ++
    [("severity", .text (if f.problem.isWarning then "warning" else "error")),
     ("code", .text f.problem.code), ("message", .text f.problem.message)])

def Verdict.toJson (r : Verdict) : Value :=
  .record [("entries", .int r.entries), ("errors", .int r.errors), ("warnings", .int r.warnings),
    ("findings", .list (r.findings.map Finding.toJson))]

end Triage
