import Triage.Command.Options
import Triage.Panel.Lifecycle

/-!
# The command line

`Command.parse?` reads the arguments of `bv`; none if they are no command:

* `bv clangify`, `bv check`   with `-i`/`--input` and `-o`/`--output` for files instead of the
                              standard streams;
* `bv filter`                 with `--reports`, and perhaps `--url`, `--origin` and `--tab`;
* `bv config show`, `bv --version`.
-/

namespace Triage

/-- where a command reads from and writes to; the standard streams if nothing is given -/
structure Streams where
  input : Option String := none
  output : Option String := none
deriving DecidableEq, Repr

/-- what the filter panel is loaded from -/
structure FilterRequest where
  reports : String
  url : String := ""
  origin : Origin := .deepLink
  tab : String := "reports"
deriving DecidableEq, Repr

inductive Command where
  | clangify (streams : Streams)
  | check (streams : Streams)
  | filter (request : FilterRequest)
  | configShow
  | version
deriving DecidableEq, Repr

namespace Command

def streamNames : List OptionName := [⟨"input", some 'i'⟩, ⟨"output", some 'o'⟩]

def filterNames : List OptionName :=
  [{ long := "reports" }, { long := "url" }, { long := "origin" }, { long := "tab" }]

/-- the options, none of them twice -/
def options? (names : List OptionName) (args : List String) : Option Options :=
  (readOptions names args).filter (·.once)

/-- a path may not be empty -/
def isPath (p : Option String) : Bool := p != some ""

def streams? (args : List String) : Option Streams := do
  let os ← options? streamNames args
  let s : Streams := ⟨os.value? "input", os.value? "output"⟩
  if isPath s.input && isPath s.output then some s else none

def origin? : Option String → Option Origin
  | none | some "deep-link" => some .deepLink
  | some "user" => some .userNavigation
  | some _ => none

def filter? (args : List String) : Option FilterRequest := do
  let os ← options? filterNames args
  let reports ← os.value? "reports"
  let origin ← origin? (os.value? "origin")
  if reports = "" then none
  else
    let base : FilterRequest := { reports, origin }
    some { base with
      url := (os.value? "url").getD base.url
      tab := (os.value? "tab").getD base.tab }

/-- `-V` and whatever follows it in the same argument -/
def asksVersion (arg : String) : Bool :=
  match Arg.ofString arg with
  | .long "version" none => true
  | .short 'V' _ => true
  | _ => false

def config? : List String → Option Command
  | ["show"] | ["show", "--"] => some .configShow
  | _ => none

def parse? : List String → Option Command
  | "clangify" :: args => (streams? args).map .clangify
  | "check" :: args => (streams? args).map .check
  | "filter" :: args => (filter? args).map .filter
  | "config" :: args => config? args
  | arg :: _ => if asksVersion arg then some .version else none
  | [] => none

end Command

end Triage
