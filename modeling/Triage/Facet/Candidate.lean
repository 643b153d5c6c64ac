import Triage.Facet.Selection
import Triage.Report.Counts
import Triage.Text.Blank

/-!
# Values offered for selection

* `Candidate`                   a value with what is known about it; `synthetic` marks text that was
                                typed and need not occur anywhere;
* `ItemsRequest`                what to offer: a search text, or the values already selected, and a
                                page;
* `ItemsRequest.patterns`       the wildcard patterns that an answer must match;
* `ItemsRequest.retain`         keeps what the requested values cover;
* `ItemsRequest.prependTyped`   puts the search text itself in front, unless it is offered already.
-/

namespace Triage

structure Candidate where
  value : String
  count : Option Nat := none
  id : Option Int := none
  synthetic : Bool := false
deriving DecidableEq, Repr

namespace Candidate

def counted (value : String) (count : Nat) : Candidate := { value, count := some count }

def identified (value : String) (count : Nat) (id : Int) : Candidate :=
  { value, count := some count, id := some id }

def plain (value : String) : Candidate := { value }

def typed (value : String) : Candidate := { value, synthetic := true }

def info (c : Candidate) : ValueInfo := ⟨c.count, c.id.toList⟩

end Candidate

structure ItemsRequest where
  query : Option String := none
  values : Option (List String) := none
  page : Page := {}
deriving DecidableEq, Repr

namespace ItemsRequest

def ofText (text : String) (page : Page) : ItemsRequest := { query := some text, page }

def ofValues (values : List String) : ItemsRequest := { values := some values }

/-- the trimmed search text, if anything is left of it -/
def needle (r : ItemsRequest) : Option String :=
  (r.query.map Text.trim).filter (· ≠ "")

/-- a pattern for the texts that contain `q` -/
def containing (q : String) : String := "*" ++ q ++ "*"

def patterns (r : ItemsRequest) : List String :=
  match r.values with
  | some values => values
  | none => (r.needle.map containing).toList

def retain (r : ItemsRequest) (items : List Candidate) : List Candidate :=
  match r.values with
  | some values => items.filter fun c => anyGlob values c.value
  | none => items

def prependTyped (r : ItemsRequest) (items : List Candidate) : List Candidate :=
  match r.values, r.needle with
  | none, some text =>
    if items.any (·.value == text) then items else .typed text :: items
  | _, _ => items

/-- an answer of the service: the rows asked for, behind the typed text -/
def offer (r : ItemsRequest) (items : List Candidate) : List Candidate :=
  r.prependTyped (r.retain items)

end ItemsRequest

end Triage
