import Triage.Panel.State

/-!
# Selecting and clearing

* `Panel.select`                    selects a value and refreshes every other facet; without any
                                    knowledge about the value the facet's own counts are asked for
                                    first, so that names of runs and tags have ids before the others
                                    are asked;
* `Panel.deselect`, `Panel.clear`   take a value out, take all values out, and refresh every other
                                    facet;
* `Panel.reset`                     clears every facet and asks for nothing.
-/

namespace Triage.Panel

def select (p : Panel) (id value : String) (info : ValueInfo) :
    Except Refusal (Summary × Panel) := do
  let f ← p.facet id
  let f := f.select value info
  let p := p.put f
  let p := if info.isEmpty && f.kind.isCountSensitive then (p.refreshOne f).2 else p
  pure (p.refreshAll [id])

def deselect (p : Panel) (id value : String) : Except Refusal (Summary × Panel) := do
  let f ← p.facet id
  pure ((p.put (f.deselect value)).refreshAll [id])

def clear (p : Panel) (id : String) : Except Refusal (Summary × Panel) := do
  let f ← p.facet id
  pure ((p.put f.clear).refreshAll [id])

def reset (p : Panel) : Panel := writeHistory { p with facets := p.facets.map Facet.clear }

end Triage.Panel
