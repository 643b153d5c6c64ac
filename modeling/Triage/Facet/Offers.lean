import Triage.Facet.Candidate
import Triage.Facet.Kind
import Triage.Gateway

/-!
# Candidates of a facet

`FacetKind.offers k scope r` asks the service for the values that facet `k` can offer under a scope,
which the caller builds without the facet's own condition.

* Runs, tags, paths, checkers, messages and components are listed by the service, with the search
  text itself in front.
* Coded attributes offer all members, each with its count.
* The comparison type offers all members, counted one by one while there is a comparison.
* Uniqueness offers its two values, a report hash the typed text, dates and lengths nothing.
-/

namespace Triage

namespace Scope

/-- the filter with other components or other texts, the rest as it is -/
def withComponents (s : Scope) (names : List String) : Scope :=
  { s with filter := { s.filter with componentNames := names } }

def withTexts (s : Scope) (field : TextAttribute) (patterns : List String) : Scope :=
  { s with filter := field.setPatterns patterns s.filter }

end Scope

namespace FacetKind

def runOffers (scope : Scope) (r : ItemsRequest) : Ask (List Candidate) := do
  let rows ← Gateway.ask fun s => r.page.slice (s.runCounts scope r.patterns)
  pure (r.offer (rows.map fun row => .identified row.name row.count row.runId))

def tagOffers (scope : Scope) (r : ItemsRequest) : Ask (List Candidate) := do
  let rows ← Gateway.ask fun s => r.page.slice (s.tagCounts scope r.patterns)
  pure (r.offer (rows.map fun row => .identified row.token row.count row.tagId))

def nameCandidates (r : ItemsRequest) (rows : List NameTally) : List Candidate :=
  r.offer (rows.map fun row => .counted row.name row.count)

def textOffers (field : TextAttribute) (scope : Scope) (r : ItemsRequest) :
    Ask (List Candidate) := do
  let rows ← Gateway.ask fun s => r.page.slice (s.namesOf field (scope.withTexts field r.patterns))
  pure (nameCandidates r rows)

def componentOffers (scope : Scope) (r : ItemsRequest) : Ask (List Candidate) := do
  let rows ← Gateway.ask fun s => r.page.slice (s.componentCounts (scope.withComponents r.patterns))
  pure (nameCandidates r rows)

/-- the count of a member, zero if it does not occur -/
def countFor {α : Type} [BEq α] (counts : List (α × Nat)) (a : α) : Nat :=
  ((counts.find? (·.1 == a)).map (·.2)).getD 0

def codeOffers {α : Type} [Coded α] [BEq α] (key : Report → α) (scope : Scope) (r : ItemsRequest) :
    Ask (List Candidate) := do
  let counts ← Gateway.ask fun s => s.codesOf key scope
  pure (r.retain ((Coded.all : List α).map fun a => .counted (Coded.label a) (countFor counts a)))

/-- one call for each comparison type in the list -/
def countDiffTypes (scope : Scope) (c : Comparison) : List DiffType → Ask (List Candidate)
  | [] => pure []
  | d :: ds => do
    let n ← Gateway.ask fun s =>
      s.resultCount { scope with comparison := some { c with diffType := d } }
    let rest ← countDiffTypes scope c ds
    pure (.counted (Coded.label d) n :: rest)

def diffTypeOffers (scope : Scope) (r : ItemsRequest) : Ask (List Candidate) := do
  match scope.comparison with
  | some c => pure (r.retain (← countDiffTypes scope c Coded.all))
  | none => pure (r.retain ((Coded.all : List DiffType).map fun d => .plain (Coded.label d)))

def offers : FacetKind → Scope → ItemsRequest → Ask (List Candidate)
  | .run _, scope, r => runOffers scope r
  | .runTag _, scope, r => tagOffers scope r
  | .diffType, scope, r => diffTypeOffers scope r
  | .unique, _, _ => pure [.plain "on", .plain "off"]
  | .reviewStatus, scope, r => codeOffers (·.reviewStatus) scope r
  | .detectionStatus, scope, r => codeOffers (·.detectionStatus) scope r
  | .severity, scope, r => codeOffers (·.severity) scope r
  | .pathLength, _, _ | .date _, _, _ => pure []
  | .text field, scope, r => textOffers field scope r
  | .component, scope, r => componentOffers scope r
  | .reportHash, _, r => pure (r.prependTyped [])

end FacetKind

end Triage
