import Triage.Glob
import Triage.Report.Filter
import Triage.Table

/-!
# Stored reports and which of them a scope selects

* `Component.covers`   a path has one of the `+` patterns, if there are any, and no `-` pattern;
* `Store.visibleAt`    a report was detected by the time of a tag and not fixed by then;
* `Store.meets`        the conditions of a filter, apart from runs and tags;
* `Store.results`      the selected reports, in stored order: conditions on different attributes
                       must all hold, of the values of one attribute any will do. A comparison looks
                       at bug hashes, and so does unique mode, which keeps the first report of each
                       hash (`firstOfEach`).
-/

namespace Triage

structure Run where
  id : Int
  name : String
deriving DecidableEq, Repr

/-- a named point in the history of a run -/
structure RunTag where
  id : Int
  runId : Int
  tag : String
  timestamp : Int
deriving DecidableEq, Repr

structure Report where
  id : Int
  runId : Int
  bugHash : String
  filePath : String
  checkerName : String
  checkerMsg : String := ""
  severity : Severity
  reviewStatus : ReviewStatus := .unreviewed
  detectionStatus : DetectionStatus := .new
  detectedAt : Int
  fixedAt : Option Int := none
  bugPathLength : Nat := 0
deriving DecidableEq, Repr

/-- a named set of source paths -/
structure Component where
  name : String
  patterns : List String
deriving DecidableEq, Repr

structure Store where
  runs : List Run := []
  tags : List RunTag := []
  reports : List Report := []
  components : List Component := []
deriving DecidableEq, Repr

/-- one of the patterns covers the text -/
def anyGlob (patterns : List String) (text : String) : Bool := patterns.any (Glob.accepts · text)

/-- no pattern is given, or one of them covers the text -/
def wanted (patterns : List String) (text : String) : Bool :=
  patterns.isEmpty || anyGlob patterns text

/-- the patterns that follow a sign -/
def Component.signed (c : Component) (sign : Char) : List String :=
  c.patterns.filterMap fun p => (Text.after? [sign] p.toList).map String.ofList

def Component.covers (c : Component) (path : String) : Bool :=
  wanted (c.signed '+') path && !anyGlob (c.signed '-') path

namespace Store

def nameOfRun? (s : Store) (id : Int) : Option String :=
  (s.runs.find? (·.id == id)).map (·.name)

def visibleAt (tag : RunTag) (r : Report) : Bool :=
  r.runId == tag.runId && decide (r.detectedAt ≤ tag.timestamp) &&
    r.fixedAt.all (tag.timestamp < ·)

def hasTag (s : Store) (ids : List Int) (r : Report) : Bool :=
  (s.tags.filter fun t => ids.contains t.id).any (visibleAt · r)

def hasComponent (s : Store) (names : List String) (r : Report) : Bool :=
  (s.components.filter fun c => anyGlob names c.name).any (·.covers r.filePath)

/-- no value is given, or the value is among them -/
def isOneOf {α : Type} [BEq α] (as : List α) (a : α) : Bool := as.isEmpty || as.contains a

def meets (s : Store) (f : ReportFilter) (r : Report) : Bool :=
  wanted f.filepath r.filePath && wanted f.checkerName r.checkerName &&
    wanted f.checkerMsg r.checkerMsg && wanted f.reportHash r.bugHash &&
    isOneOf f.severity r.severity && isOneOf f.reviewStatus r.reviewStatus &&
    isOneOf f.detectionStatus r.detectionStatus &&
    (f.componentNames.isEmpty || s.hasComponent f.componentNames r) &&
    f.bugPathLength.all (·.contains r.bugPathLength) &&
    f.date.detected.all (·.contains r.detectedAt) &&
    f.date.fixed.all fun i => r.fixedAt.any i.contains

/-- the report belongs to the baseline runs and tags -/
def inBaseline (s : Store) (scope : Scope) (r : Report) : Bool :=
  isOneOf scope.runIds r.runId &&
    (scope.filter.runTag.isEmpty || s.hasTag scope.filter.runTag r)

def baseline (s : Store) (scope : Scope) : List Report :=
  s.reports.filter fun r => s.inBaseline scope r && s.meets scope.filter r

/-- the report belongs to the runs or to the tags of a comparison -/
def inComparison (s : Store) (c : Comparison) (r : Report) : Bool :=
  (c.runIds.getD []).contains r.runId || s.hasTag (c.runTag.getD []) r

def comparisonRows (s : Store) (c : Comparison) (f : ReportFilter) : List Report :=
  s.reports.filter fun r => s.inComparison c r && s.meets f r

def hashes (rs : List Report) : List String := rs.map (·.bugHash)

/-- one side of a comparison, by bug hash -/
def compared (diff : DiffType) (base side : List Report) : List Report :=
  match diff with
  | .new => side.filter fun r => !(hashes base).contains r.bugHash
  | .resolved => base.filter fun r => !(hashes side).contains r.bugHash
  | .unresolved => side.filter fun r => (hashes base).contains r.bugHash

/-- the selected reports, with every report of a hash -/
def rows (s : Store) (scope : Scope) : List Report :=
  match scope.comparison with
  | none => s.baseline scope
  | some c => compared c.diffType (s.baseline scope) (s.comparisonRows c scope.filter)

def results (s : Store) (scope : Scope) : List Report :=
  if scope.filter.isUnique then firstOfEach (·.bugHash) (s.rows scope) else s.rows scope

end Store

end Triage
