import Triage.Panel.Groups

/-!
# Loading a panel from the history

* `Panel.load`       takes every selection from a history, opens the groups that hold one, and
                     refreshes all counts;
* `Panel.appear`     the first time the panel is visible;
* `Panel.start`      when it is made while the history names its tab;
* `Panel.navigate`   on a ready panel, unless the history names another tab.

The configured defaults come in only the first time, only when the user came by navigation, and
only for keys that the history does not have.
-/

namespace Triage

/-- how the user reached the panel -/
inductive Origin where
  | userNavigation | deepLink
deriving DecidableEq, Repr

namespace Panel

def hasKey (p : Panel) (key : String) : Bool := p.facets.any fun f => f.kind.keys.contains key

def withDefaultStatuses (p : Panel) (h : History) : History :=
  let key := FacetKind.detectionStatus.id
  if p.hasKey key && !h.has key then
    match p.config.defaultDetectionStatuses with
    | [] => h
    | statuses => h.set key (some (statuses.map Coded.label))
  else h

def withDefaultUnique (p : Panel) (h : History) : History :=
  let key := FacetKind.unique.id
  if p.hasKey key && !h.has key && p.config.defaultUnique then h.putOne key "on" else h

def withDefaults (p : Panel) (h : History) : History :=
  p.withDefaultUnique (p.withDefaultStatuses h)

def load (p : Panel) (h : History) (origin : Origin) : Summary × Panel :=
  let h := if p.phase = .uninitialized ∧ origin = .userNavigation then p.withDefaults h else h
  let p := openActive { p with facets := p.facets.map fun f => f.load h }
  let (s, p) := p.refreshAll []
  (s, { p with phase := .ready })

def start (p : Panel) (h : History) : Option (Summary × Panel) :=
  if p.phase = .uninitialized ∧ p.tab.isSome ∧ h.first? tabKey = p.tab then
    some (p.load h .deepLink)
  else none

def appear (p : Panel) (h : History) (origin : Origin) : Option (Summary × Panel) :=
  if p.phase = .uninitialized then some (p.load h origin) else none

/-- both name a tab, and not the same -/
def namesOtherTab (p : Panel) (h : History) : Bool :=
  match p.tab, h.first? tabKey with
  | some ours, some theirs => ours != theirs
  | _, _ => false

def navigate (p : Panel) (h : History) : Option (Summary × Panel) :=
  if p.phase = .ready ∧ p.namesOtherTab h = false then some (p.load h .deepLink) else none

end Panel

end Triage
