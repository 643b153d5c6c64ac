import Triage.Report.Store
import Triage.Text.Order

/-!
# Counted answers

* `Page.slice`      a piece of an ordered list;
* `TextAttribute`   file path, checker name or checker message: how a filter constrains it and what
                    a report has there;
* `Store.namesOf`   the texts that occur in the results, each with its number of reports, most
                    frequent first and then by name (`ranked`); the field's own condition chooses
                    among the names and does not enter the results;
* `Store.codesOf`   the number of results for each member of a coded attribute that occurs;
* `Store.componentCounts`, `Store.runCounts`, `Store.tagCounts`   the same for source components,
                    runs and tags, which are listed also when no report belongs to them.
-/

namespace Triage

structure Page where
  /-- everything, if there is no limit -/
  limit : Option Nat := none
  offset : Nat := 0
deriving DecidableEq, Repr

namespace Page

def all : Page := {}

def first (limit : Nat) : Page := ⟨some limit, 0⟩

def slice {α : Type} (p : Page) (as : List α) : List α :=
  match p.limit with
  | none => as.drop p.offset
  | some n => (as.drop p.offset).take n

end Page

structure NameTally where
  name : String
  count : Nat
deriving DecidableEq, Repr

structure RunTally where
  runId : Int
  name : String
  count : Nat
deriving DecidableEq, Repr

structure TagTally where
  tagId : Int
  runName : String
  tag : String
  count : Nat
deriving DecidableEq, Repr

/-- the text that names a tag: its run and the tag itself -/
def tagToken (runName tag : String) : String := runName ++ ":" ++ tag

def TagTally.token (t : TagTally) : String := tagToken t.runName t.tag

/-- before in the order of descending counts, then of ascending names -/
def rankedBefore {α : Type} (count : α → Nat) (name : α → List String) (a b : α) : Bool :=
  if count a = count b then Text.listLe (name a) (name b) else count b < count a

def ranked {α : Type} (count : α → Nat) (name : α → List String) (as : List α) : List α :=
  as.mergeSort (rankedBefore count name)

inductive TextAttribute where
  | filePath | checkerName | checkerMsg
deriving DecidableEq, Repr

namespace TextAttribute

def patterns : TextAttribute → ReportFilter → List String
  | .filePath, f => f.filepath
  | .checkerName, f => f.checkerName
  | .checkerMsg, f => f.checkerMsg

def setPatterns : TextAttribute → List String → ReportFilter → ReportFilter
  | .filePath, ps, f => { f with filepath := ps }
  | .checkerName, ps, f => { f with checkerName := ps }
  | .checkerMsg, ps, f => { f with checkerMsg := ps }

def ofReport : TextAttribute → Report → String
  | .filePath, r => r.filePath
  | .checkerName, r => r.checkerName
  | .checkerMsg, r => r.checkerMsg

end TextAttribute

namespace Store

def resultCount (s : Store) (scope : Scope) : Nat := (s.results scope).length

def textsOf (s : Store) (field : TextAttribute) (scope : Scope) : List String :=
  (s.results { scope with filter := field.setPatterns [] scope.filter }).map field.ofReport

def namesOf (s : Store) (field : TextAttribute) (scope : Scope) : List NameTally :=
  let texts := s.textsOf field scope
  let names := (firstOfEach id texts).filter (wanted (field.patterns scope.filter))
  ranked (·.count) ([·.name]) (names.map fun n => ⟨n, texts.count n⟩)

/-- in the order of the members, without those that do not occur -/
def codesOf {α : Type} [Coded α] [BEq α] (s : Store) (key : Report → α) (scope : Scope) :
    List (α × Nat) :=
  let members := (s.results scope).map key
  ((Coded.all : List α).map fun a => (a, members.count a)).filter fun p => 0 < p.2

def componentCounts (s : Store) (scope : Scope) : List NameTally :=
  let rows := s.results { scope with filter := { scope.filter with componentNames := [] } }
  let kept := s.components.filter fun c => wanted scope.filter.componentNames c.name
  ranked (·.count) ([·.name])
    (kept.map fun c => ⟨c.name, (rows.filter fun r => c.covers r.filePath).length⟩)

/-- Each run is counted as the only baseline run. -/
def runCounts (s : Store) (scope : Scope) (patterns : List String) : List RunTally :=
  let kept := s.runs.filter fun r => wanted patterns r.name
  ranked (·.count) ([·.name])
    (kept.map fun r => ⟨r.id, r.name, s.resultCount { scope with runIds := [r.id] }⟩)

/-- Each tag is counted as the only baseline tag; a tag without a stored run is not listed. -/
def tagCounts (s : Store) (scope : Scope) (patterns : List String) : List TagTally :=
  let counted (t : RunTag) : Option TagTally := do
    let runName ← s.nameOfRun? t.runId
    if wanted patterns (tagToken runName t.tag) then
      some ⟨t.id, runName, t.tag,
        s.resultCount { scope with filter := { scope.filter with runTag := [t.id] } }⟩
    else none
  ranked (·.count) (fun t => [t.runName, t.tag]) (s.tags.filterMap counted)

end Store

end Triage
