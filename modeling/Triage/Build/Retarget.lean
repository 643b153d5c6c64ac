import Triage.Build.Arguments
import Triage.Build.Step
import Triage.Build.ResponseFile
import Triage.Table

/-!
# A compilation database for another compiler

* `compiles`           the arguments ask for a compilation and the file is a source file;
* `Drivers.prepare`    one entry on its own: expanded, and retargeted if it is a compile action;
* `Drivers.retarget`   all entries: those that are no compile action are left out, and so are those
                       that have the directory, file and arguments of an earlier one; one entry that
                       fails makes the whole fail.
-/

namespace Triage

def compileFlags : List String := ["-c", "-S", "-E"]

def sourceSuffixes : List String :=
  ["c", "cc", "cp", "cpp", "cxx", "c++", "C", "CC", "CPP", "m", "mm", "i", "ii", "s", "S", "cu"]

def isSourceFile (file : String) : Bool := (Path.extension? file).any sourceSuffixes.contains

def compiles (argv : List String) (file : String) : Bool :=
  argv.any compileFlags.contains && isSourceFile file

structure Retargeted where
  entries : List BuildStep
  /-- entries that were no compile action -/
  skipped : Nat
  /-- entries that an earlier one already stands for -/
  duplicates : Nat
deriving DecidableEq, Repr

/-- what an entry does -/
def BuildStep.action (e : BuildStep) : String × String × Option (List String) :=
  (e.directory, e.file, e.arguments)

namespace Drivers

def retargetStep (d : Drivers) (e : BuildStep) (argv : List String) : BuildStep :=
  { directory := e.directory, file := e.file, arguments := some (Arguments.retarget d argv),
    output := e.output }

/-- nothing for an entry that is no compile action -/
def prepare (d : Drivers) (read : ReadBytes) (index : Nat) (e : BuildStep) :
    Except BuildFault (Option BuildStep) := do
  let argv ← Response.expand read e.directory (← e.argv index)
  if argv = [] then throw (.emptyArguments index)
  else if compiles argv e.file then pure (some (d.retargetStep e argv))
  else pure none

/-- all entries, counted from an index on -/
def prepareFrom (d : Drivers) (read : ReadBytes) :
    Nat → List BuildStep → Except BuildFault (List (Option BuildStep))
  | _, [] => .ok []
  | index, e :: es => do
    let p ← d.prepare read index e
    let ps ← d.prepareFrom read (index + 1) es
    .ok (p :: ps)

def retarget (d : Drivers) (read : ReadBytes) (es : List BuildStep) :
    Except BuildFault Retargeted := do
  let prepared ← d.prepareFrom read 0 es
  let actions := prepared.filterMap id
  let kept := firstOfEach BuildStep.action actions
  .ok ⟨kept, prepared.length - actions.length, actions.length - kept.length⟩

end Drivers

end Triage
