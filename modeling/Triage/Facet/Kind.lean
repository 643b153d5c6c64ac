import Triage.Facet.Selection
import Triage.Report.Counts
import Triage.Text.Flag

/-!
# The seventeen kinds of facets

* `FacetKind.id`, `FacetKind.keys`   the name of a facet and the history keys it owns;
* `FacetKind.source`                 where its candidates come from, and with that whether its
                                     counts depend on the other facets (`isCountSensitive`) and
                                     whether it can be searched;
* `FacetKind.mode`                   one selected value or several;
* `FacetKind.canonical`              the one spelling under which a value is selected, if it is
                                     acceptable.
-/

namespace Triage

inductive Side where
  | baseline | compare
deriving DecidableEq, Repr

inductive DateField where
  | detected | fixed
deriving DecidableEq, Repr

inductive FacetKind where
  | run (side : Side)
  | runTag (side : Side)
  | diffType
  | unique
  | reviewStatus
  | detectionStatus
  | severity
  | pathLength
  | date (field : DateField)
  | text (field : TextAttribute)
  | component
  | reportHash
deriving DecidableEq, Repr

inductive CandidateSource where
  /-- a few values without counts -/
  | fixed
  /-- a few values, each with a count -/
  | clientEnum
  /-- values listed by the service, each with a count -/
  | serverExact
  /-- the same with a search by substring -/
  | serverSearch
  /-- whatever the user enters -/
  | freeForm
deriving DecidableEq, Repr

namespace CandidateSource

def isCountSensitive : CandidateSource → Bool
  | .clientEnum | .serverExact | .serverSearch => true
  | .fixed | .freeForm => false

def isSearchable : CandidateSource → Bool
  | .serverSearch => true
  | _ => false

def word : CandidateSource → String
  | .fixed => "fixed"
  | .clientEnum => "client_enum"
  | .serverExact => "server_exact"
  | .serverSearch => "server_search"
  | .freeForm => "free_form"

end CandidateSource

namespace FacetKind

/-- in the order of the standard panel -/
def all : List FacetKind :=
  [.run .baseline, .runTag .baseline, .run .compare, .runTag .compare, .diffType, .unique,
   .reviewStatus, .detectionStatus, .severity, .pathLength, .date .detected, .date .fixed,
   .text .filePath, .component, .text .checkerName, .text .checkerMsg, .reportHash]

def id : FacetKind → String
  | .run .baseline => "run"
  | .run .compare => "newcheck"
  | .runTag .baseline => "run-tag"
  | .runTag .compare => "run-tag-newcheck"
  | .diffType => "difftype"
  | .unique => "is-unique"
  | .reviewStatus => "review-status"
  | .detectionStatus => "detection-status"
  | .severity => "severity"
  | .pathLength => "bug-path-length"
  | .date .detected => "detection-date"
  | .date .fixed => "fix-date"
  | .text .filePath => "filepath"
  | .text .checkerName => "checker-name"
  | .text .checkerMsg => "checker-msg"
  | .component => "source-component"
  | .reportHash => "report-hash"

def ofId? (s : String) : Option FacetKind := all.find? (·.id == s)

def minKey : String := "min-bug-path-length"

def maxKey : String := "max-bug-path-length"

/-- the first of the history keys -/
def mainKey : FacetKind → String
  | .pathLength => minKey
  | k => k.id

def keys : FacetKind → List String
  | .pathLength => [minKey, maxKey]
  | k => [k.id]

def source : FacetKind → CandidateSource
  | .run _ | .runTag _ | .text _ => .serverSearch
  | .diffType | .unique => .fixed
  | .reviewStatus | .detectionStatus | .severity => .clientEnum
  | .pathLength | .date _ | .reportHash => .freeForm
  | .component => .serverExact

def isCountSensitive (k : FacetKind) : Bool := k.source.isCountSensitive

def mode : FacetKind → ChoiceMode
  | .diffType | .unique | .pathLength | .date _ => .single
  | _ => .multi

/-! ## canonical values -/

def trimmed? (raw : String) : Option String :=
  let s := Text.trim raw
  if s = "" then none else some s

/-- a run and a tag around the first colon, both present -/
def tagValue? (raw : String) : Option String := do
  let (left, right) ← Text.cut? [':'] (Text.trimChars raw.toList)
  let left := Text.trimChars left
  let right := Text.trimChars right
  if left = [] ∨ right = [] then none
  else some (tagToken (String.ofList left) (String.ofList right))

def labelValue? (α : Type) [Coded α] (raw : String) : Option String :=
  (Coded.ofLabel? raw : Option α).map Coded.label

def flagValue? (raw : String) : Option String :=
  (Text.flag? raw).map fun on => if on then "on" else "off"

def dateValue? (raw : String) : Option String :=
  match Calendar.Interval.parse (Text.trim raw) with
  | .ok i => if i.isOpen then none else some i.encode
  | .error _ => none

/-- one bound: nothing, or a number of 32 bits -/
def bound? (cs : List Char) : Option (Option Nat) :=
  let cs := Text.trimChars cs
  if cs = [] then some none else (Text.unsigned? Text.maxWord32 cs).map some

/-- bounds around the first colon, in order and not both absent -/
def range? (token : String) : Option LengthRange := do
  let (lo, hi) ← Text.cut? [':'] token.toList
  let lo ← bound? lo
  let hi ← bound? hi
  match LengthRange.make lo hi with
  | .ok r => if r.min.isNone ∧ r.max.isNone then none else some r
  | .error _ => none

def boundText : Option Nat → String
  | none => ""
  | some n => Text.integerText n

def rangeText (r : LengthRange) : String := boundText r.min ++ ":" ++ boundText r.max

def canonical : FacetKind → String → Option String
  | .runTag _, raw => tagValue? raw
  | .diffType, raw => labelValue? DiffType raw
  | .unique, raw => flagValue? raw
  | .reviewStatus, raw => labelValue? ReviewStatus raw
  | .detectionStatus, raw => labelValue? DetectionStatus raw
  | .severity, raw => labelValue? Severity raw
  | .pathLength, raw => (range? (Text.trim raw)).map rangeText
  | .date _, raw => dateValue? raw
  | .run _, raw | .text _, raw | .component, raw | .reportHash, raw => trimmed? raw

end FacetKind

end Triage
