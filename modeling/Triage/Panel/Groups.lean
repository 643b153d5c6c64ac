import Triage.Panel.State

/-!
# Collapsing and expanding groups

* `Panel.setExpanded`   collapses or expands a group; a group that opens on a ready panel has the
                        counts of its members refreshed, which a round leaves out while it is
                        collapsed;
* `Panel.openActive`    opens every group in which something is selected.
-/

namespace Triage.Panel

/-- the first group with a name before the change, and all groups after it -/
def setFirst (name : String) (expanded : Bool) : List Group → Option (Group × List Group)
  | [] => none
  | g :: gs =>
    if g.name = name then some (g, { g with expanded } :: gs)
    else (setFirst name expanded gs).map fun (old, gs) => (old, g :: gs)

def refreshMembers : List String → Summary → Panel → Except Refusal (Summary × Panel)
  | [], s, p => .ok (s, p)
  | m :: ms, s, p => do
    let f ← p.facet m
    let (outcome, p) := p.refreshOne f
    refreshMembers ms (s.add outcome) p

def setExpanded (p : Panel) (name : String) (expanded : Bool) :
    Except Refusal (Summary × Panel) :=
  match setFirst name expanded p.groups with
  | none => .error (.unknownGroup name)
  | some (old, groups) =>
    let p := { p with groups }
    if expanded && !old.expanded && p.phase == .ready then refreshMembers old.members {} p
    else .ok ({}, p)

/-- a facet with this id has a selection -/
def isActive (p : Panel) (id : String) : Bool :=
  p.facets.any fun f => f.id == id && !f.selection.isEmpty

def openActive (p : Panel) : Panel :=
  { p with groups := p.groups.map fun g =>
      if g.members.any p.isActive then { g with expanded := true } else g }

end Triage.Panel
