import Triage.Panel.State

/-!
# Fetching candidates

A fetch has three steps, so that answers may arrive in any order: `Panel.openFetch` hands out a
ticket, `Panel.runFetch` asks the service, and `Panel.closeFetch` takes the answer over if no later
ticket was handed out meanwhile.

* `Panel.candidatesFor`   the three steps in a row;
* `Panel.typeText`        notes the text in a search box;
* `Panel.runSearches`     fetches for every search box whose quiet period is over.
-/

namespace Triage

/-- a fetch under way -/
structure Pending where
  kind : FacetKind
  ticket : Nat
  scope : Scope
  request : ItemsRequest
deriving DecidableEq, Repr

namespace Panel

def openFetch (p : Panel) (id : String) (r : ItemsRequest) : Except Refusal (Pending × Panel) := do
  let f ← p.facet id
  let (ticket, tickets) := f.tickets.next
  pure (⟨f.kind, ticket, p.scopeWithout id, r⟩, p.put { f with tickets })

def runFetch (p : Panel) (fetch : Pending) : Except GatewayError (List Candidate) × Panel :=
  let (answer, g) := (fetch.kind.offers fetch.scope fetch.request).run.run p.gateway
  (answer, { p with gateway := g })

def closeFetch (p : Panel) (fetch : Pending) (answer : Except GatewayError (List Candidate)) :
    Except Refusal (List Candidate × Panel) := do
  let f ← p.facet fetch.kind.id
  match answer with
  | .error e => throw (.gateway e)
  | .ok items =>
    match f.store? fetch.ticket items with
    | some f => pure (items, p.put f)
    | none => throw (.staleFetch fetch.kind.id fetch.ticket)

/-- The ticket and the call count even when no candidates come back. -/
def candidatesFor (p : Panel) (id : String) (r : ItemsRequest) :
    Except Refusal (List Candidate) × Panel :=
  match p.openFetch id r with
  | .error e => (.error e, p)
  | .ok (fetch, p) =>
    let (answer, p) := p.runFetch fetch
    match p.closeFetch fetch answer with
    | .error e => (.error e, p)
    | .ok (items, p) => (.ok items, p)

def typeText (p : Panel) (id text : String) (now : Nat) : Except Refusal Panel := do
  let f ← p.facet id
  match f.search with
  | none => throw (.searchUnsupported id)
  | some d => pure (p.put { f with search := some (d.note text now) })

/-- the facets whose search is due, with the text -/
def dueSearches (p : Panel) (now : Nat) : List (String × String) :=
  p.facets.filterMap fun f => (f.search.bind (·.due? now)).map (f.id, ·)

def takeSearch (now : Nat) (f : Facet) : Facet :=
  { f with search := f.search.map fun d => (d.take now).2 }

/-- one fetch after the other -/
def fetchEach (page : Page) : List (String × String) → Panel →
    List (String × Except Refusal (List Candidate)) × Panel
  | [], p => ([], p)
  | (id, text) :: rest, p =>
    let (answer, p) := p.candidatesFor id (.ofText text page)
    let (answers, p) := fetchEach page rest p
    ((id, answer) :: answers, p)

/-- All searches that are due are taken out before the first fetch. -/
def runSearches (p : Panel) (now : Nat) :
    List (String × Except Refusal (List Candidate)) × Panel :=
  fetchEach (.first p.config.itemsPageSize) (p.dueSearches now)
    { p with facets := p.facets.map (takeSearch now) }

end Panel

end Triage
