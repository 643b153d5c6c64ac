import Triage.Facet.Offers
import Triage.Facet.Tickets
import Triage.History.State

/-!
# A facet and what it holds

* `Facet.select`, `Facet.deselect`, `Facet.clear`   change the selection, by canonical values;
* `Facet.entries`, `Facet.load`   what the facet writes into the history, and how it takes its
                                  selection from there: a value that stays selected keeps its place
                                  and what is known about it;
* `Facet.addTo`                   writes the facet's own condition into a query;
* `Facet.refresh`                 asks for the counts and ids of the selected values again; a value
                                  with wildcards has the sum of the counts, and all ids, of what it
                                  covers;
* `Facet.store?`                  takes over an answer, if its ticket is still the latest.
-/

namespace Triage

structure Facet where
  kind : FacetKind
  selection : Selection
  candidates : List Candidate := []
  tickets : Tickets := {}
  search : Option SearchBox := none
deriving DecidableEq, Repr

/-- what became of the counts of a facet -/
inductive RefreshResult where
  | refreshed | skipped | failed
deriving DecidableEq, Repr

namespace Facet

def make (kind : FacetKind) (quietPeriod : Nat) : Facet where
  kind := kind
  selection := { mode := kind.mode }
  search := if kind.source.isSearchable then some { interval := quietPeriod } else none

def id (f : Facet) : String := f.kind.id

def values (f : Facet) : List String := f.selection.values

/-! ## selection -/

def select (f : Facet) (raw : String) (info : ValueInfo) : Facet :=
  match f.kind.canonical raw with
  | none => f
  | some value => { f with selection := f.selection.select value info }

def deselect (f : Facet) (raw : String) : Facet :=
  { f with selection := f.selection.deselect ((f.kind.canonical raw).getD raw) }

/-- Fetches under way are superseded, and a search still waiting is dropped. -/
def clear (f : Facet) : Facet :=
  { f with
    selection := f.selection.clear
    candidates := []
    tickets := f.tickets.advance
    search := f.search.map SearchBox.cancel }

/-! ## conditions -/

/-- the ids that the selection stands for; one that no stored id matches if it stands for none -/
def idCondition (f : Facet) : List Int :=
  let ids := f.selection.ids
  if ids.isEmpty && !f.selection.isEmpty then [Query.noSuchId] else ids

def codes (α : Type) [Coded α] (f : Facet) : List α := f.values.filterMap Coded.ofLabel?

def diffType (f : Facet) : DiffType := (f.values.head?.bind Coded.ofLabel?).getD .new

def isUnique (f : Facet) : Bool := f.selection.contains "on"

def interval (f : Facet) : Option Calendar.Interval :=
  f.values.head?.bind fun v => (Calendar.Interval.parse v).toOption

def range (f : Facet) : Option LengthRange := f.values.head?.bind FacetKind.range?

/-- the facet's own part of the filter -/
def constrain (f : Facet) (q : ReportFilter) : ReportFilter :=
  match f.kind with
  | .runTag .baseline => { q with runTag := f.idCondition }
  | .unique => { q with isUnique := f.isUnique }
  | .reviewStatus => { q with reviewStatus := f.codes ReviewStatus }
  | .detectionStatus => { q with detectionStatus := f.codes DetectionStatus }
  | .severity => { q with severity := f.codes Severity }
  | .pathLength => { q with bugPathLength := f.range }
  | .date .detected => { q with date := { q.date with detected := f.interval } }
  | .date .fixed => { q with date := { q.date with fixed := f.interval } }
  | .text field => field.setPatterns f.values q
  | .component => { q with componentNames := f.values }
  | .reportHash => { q with reportHash := f.values }
  | .run _ | .runTag .compare | .diffType => q

def addTo (f : Facet) (q : Query) : Query :=
  match f.kind with
  | .run .baseline => { q with runIds := f.idCondition }
  | .run .compare => { q with compareRunIds := f.idCondition }
  | .runTag .compare => { q with compareRunTags := f.idCondition }
  | .diffType => { q with diffType := f.diffType }
  | _ => { q with filter := f.constrain q.filter }

/-! ## history -/

def boundEntry (key : String) (b : Option Nat) : String × Option (List String) :=
  (key, b.map fun n => [Text.integerText n])

/-- every key of the facet, with the values to write or none -/
def entries (f : Facet) : List (String × Option (List String)) :=
  match f.kind with
  | .pathLength =>
    [boundEntry FacetKind.minKey (f.range.bind (·.min)),
     boundEntry FacetKind.maxKey (f.range.bind (·.max))]
  | _ => [(f.kind.mainKey, unlessEmpty f.values)]

/-- what the history asks for, in canonical form -/
def incoming (kind : FacetKind) (h : History) : List String :=
  match kind with
  | .pathLength =>
    let lo := (h.first? FacetKind.minKey).getD ""
    let hi := (h.first? FacetKind.maxKey).getD ""
    if lo = "" ∧ hi = "" then [] else (kind.canonical (lo ++ ":" ++ hi)).toList
  | _ => ((h.get? kind.mainKey).getD []).filterMap kind.canonical

/-- the selection before the values of the history come in: the length facet starts afresh, every
other facet keeps what is asked for again -/
def kept (f : Facet) (wanted : List String) : Selection :=
  match f.kind with
  | .pathLength => f.selection.clear
  | _ => { f.selection with items := f.selection.items.filter fun i => wanted.contains i.value }

def load (f : Facet) (h : History) : Facet :=
  let wanted := incoming f.kind h
  { f with selection := wanted.foldl (fun s v => s.select v {}) (f.kept wanted) }

/-! ## candidates and counts -/

/-- the conditions of other facets have changed -/
def forget (f : Facet) : Facet :=
  if f.kind.isCountSensitive then { f with candidates := [], tickets := f.tickets.advance } else f

def store? (f : Facet) (ticket : Nat) (items : List Candidate) : Option Facet :=
  if f.tickets.isLatest ticket then some { f with candidates := items } else none

/-- what an answer says about a selected value -/
def observed (items : List Candidate) (value : String) : ValueInfo :=
  let found := items.filter fun c => !c.synthetic && Glob.accepts value c.value
  ⟨some (found.foldr (fun c n => c.count.getD 0 + n) 0), found.filterMap (·.id)⟩

def reconcile (f : Facet) (items : List Candidate) : Facet :=
  { f with selection := { f.selection with
      items := f.selection.items.map fun i => { i with info := observed items i.value } } }

/-- the facet has counts to refresh -/
def hasCounts (f : Facet) : Bool := f.kind.isCountSensitive && !f.selection.isEmpty

/-- A failed call leaves the facet as it is. -/
def refresh (f : Facet) (scope : Scope) (g : Gateway) : RefreshResult × Facet × Gateway :=
  if f.hasCounts then
    match (f.kind.offers scope (.ofValues f.values)).run.run g with
    | (.ok items, g) => (.refreshed, f.reconcile items, g)
    | (.error _, g) => (.failed, f, g)
  else (.skipped, f, g)

end Facet

end Triage
