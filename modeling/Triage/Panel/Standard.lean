import Triage.Panel.State

/-!
# The standard panel

`Panel.standard` has a facet of every kind and four groups; the group of the comparison starts
collapsed.
-/

namespace Triage.Panel

def ids (kinds : List FacetKind) : List String := kinds.map FacetKind.id

def standardGroups : List Group :=
  [{ name := "baseline", members := ids [.run .baseline, .runTag .baseline] },
   { name := "compare", members := ids [.run .compare, .runTag .compare, .diffType],
     expanded := false },
   { name := "report",
     members := ids [.unique, .reviewStatus, .detectionStatus, .severity, .pathLength,
       .text .filePath, .component, .text .checkerName, .text .checkerMsg, .reportHash] },
   { name := "dates", members := ids [.date .detected, .date .fixed] }]

def standard (config : Config) (gateway : Gateway) (tab : String) : Panel where
  config := config
  gateway := gateway
  tab := some tab
  facets := FacetKind.all.map (Facet.make · config.searchDebounceMs)
  groups := standardGroups

end Triage.Panel
