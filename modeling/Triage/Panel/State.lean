import Triage.Facet.State
import Triage.Panel.Refusal
import Triage.Settings.Config

/-!
# A filter panel

A `Panel` owns its facets in registration order, groups of them that can be collapsed, and the
service it asks.

* `Panel.addFacet`, `Panel.addGroup`   add a facet or a group; ids and history keys must not clash;
* `Panel.query`, `Panel.scopeWithout`   the conditions of all facets, of all but one;
* `Panel.refreshOne`, `Panel.refreshAll`   ask for the counts of a facet, of all facets in turn;
* `Panel.writeHistory`   writes the selections into the history.
-/

namespace Triage

structure Group where
  name : String
  members : List String
  expanded : Bool := true
deriving DecidableEq, Repr

inductive Phase where
  | uninitialized | ready
deriving DecidableEq, Repr

/-- how many facets had which outcome in one round -/
structure Summary where
  refreshed : Nat := 0
  skipped : Nat := 0
  failed : Nat := 0
deriving DecidableEq, Repr

namespace Summary

def add (s : Summary) : RefreshResult → Summary
  | .refreshed => { s with refreshed := s.refreshed + 1 }
  | .skipped => { s with skipped := s.skipped + 1 }
  | .failed => { s with failed := s.failed + 1 }

def total (s : Summary) : Nat := s.refreshed + s.skipped + s.failed

theorem total_add (s : Summary) (o : RefreshResult) : (s.add o).total = s.total + 1 := by
  cases o <;> simp [add, total] <;> omega

end Summary

structure Panel where
  config : Config := {}
  gateway : Gateway := {}
  tab : Option String := none
  facets : List Facet := []
  groups : List Group := []
  phase : Phase := .uninitialized
  history : History := {}
deriving DecidableEq, Repr

namespace Panel

/-- the history key of the tab -/
def tabKey : String := "tab"

def find? (p : Panel) (id : String) : Option Facet := p.facets.find? (·.id == id)

/-- the facet, or the reason why there is none -/
def facet (p : Panel) (id : String) : Except Refusal Facet :=
  match p.find? id with
  | some f => .ok f
  | none => .error (.unknownFacet id)

/-- the facet of a kind replaced -/
def put (p : Panel) (f : Facet) : Panel :=
  { p with facets := p.facets.map fun g => if g.kind = f.kind then f else g }

/-! ## registration -/

/-- what stands in the way of a key of a new facet -/
def keyClash? (p : Panel) (kind : FacetKind) (key : String) : Option Refusal :=
  if key = tabKey then some (.duplicateKey key "panel")
  else
    (p.facets.find? fun f => f.kind == kind || f.kind.keys.contains key).map fun owner =>
      .duplicateKey key owner.id

def addFacet (p : Panel) (kind : FacetKind) : Except Refusal Panel :=
  match kind.keys.findSome? (p.keyClash? kind) with
  | some e => .error e
  | none => .ok { p with facets := p.facets ++ [.make kind p.config.searchDebounceMs] }

def addGroup (p : Panel) (g : Group) : Except Refusal Panel :=
  match g.members.find? fun m => (p.find? m).isNone with
  | some missing => .error (.unknownFacet missing)
  | none => .ok { p with groups := p.groups ++ [g] }

def inClosedGroup (p : Panel) (id : String) : Bool :=
  p.groups.any fun g => !g.expanded && g.members.contains id

/-! ## the query -/

def queryOf (facets : List Facet) : Query := facets.foldl (fun q f => f.addTo q) {}

def query (p : Panel) : Query := queryOf p.facets

def scopeWithout (p : Panel) (id : String) : Scope :=
  (queryOf (p.facets.filter (·.id != id))).scope

/-! ## history -/

def tabEntry (p : Panel) : List (String × Option (List String)) :=
  match p.tab with
  | none => []
  | some tab => [(tabKey, some [tab])]

def writeHistory (p : Panel) : Panel :=
  let entries := p.tabEntry ++ p.facets.flatMap Facet.entries
  { p with history := entries.foldl (fun h e => h.set e.1 e.2) {} }

def queryString (p : Panel) : String := p.history.queryString

/-! ## counts -/

/-- the counts of one facet, under the conditions of the others -/
def refreshOne (p : Panel) (f : Facet) : RefreshResult × Panel :=
  let (outcome, f', g) := f.refresh (p.scopeWithout f.id) p.gateway
  (outcome, { p.put f' with gateway := g })

/-- one facet in a round: its candidates are dropped, and its counts refreshed unless it is in a
collapsed group -/
def visit (p : Panel) (except : List String) (f : Facet) : RefreshResult × Panel :=
  if except.contains f.id then (.skipped, p)
  else
    let p := p.put f.forget
    if p.inClosedGroup f.id then (.skipped, p) else p.refreshOne f.forget

def round (except : List String) : List Facet → Summary → Panel → Summary × Panel
  | [], s, p => (s, p)
  | f :: fs, s, p =>
    let (outcome, p) := p.visit except f
    round except fs (s.add outcome) p

/-- all facets in registration order, and then the history -/
def refreshAll (p : Panel) (except : List String) : Summary × Panel :=
  let (s, p) := round except p.facets {} p
  (s, p.writeHistory)

end Panel

end Triage
