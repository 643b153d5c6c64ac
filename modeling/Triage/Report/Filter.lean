import Triage.Calendar.Interval
import Triage.Report.Code

/-!
# What to show: filters, comparisons and scopes

* `LengthRange`    bounds on the length of a bug path, both included;
* `ReportFilter`   one condition for every attribute; an empty list sets no condition;
* `Comparison`     the runs or tags that the baseline is compared with;
* `Scope`          baseline runs, filter and comparison: what every question about reports is asked
                   of;
* `Query`          the same in the pieces that a panel collects, and `Query.scope`.
-/

namespace Triage

open Calendar (Interval)

structure LengthRange where
  min : Option Nat
  max : Option Nat
deriving DecidableEq, Repr

namespace LengthRange

def make (lo hi : Option Nat) : Except BadValue LengthRange :=
  match lo, hi with
  | some a, some b =>
    if b < a then
      .error (.range (Text.integerText a ++ ":" ++ Text.integerText b))
    else .ok ⟨lo, hi⟩
  | _, _ => .ok ⟨lo, hi⟩

def contains (r : LengthRange) (n : Nat) : Bool := r.min.all (· ≤ n) && r.max.all (n ≤ ·)

end LengthRange

/-- conditions on the first detection and on the fix -/
structure DateCondition where
  detected : Option Interval := none
  fixed : Option Interval := none
deriving DecidableEq, Repr

def DateCondition.isEmpty (d : DateCondition) : Bool := d.detected.isNone && d.fixed.isNone

structure ReportFilter where
  filepath : List String := []
  checkerMsg : List String := []
  checkerName : List String := []
  reportHash : List String := []
  severity : List Severity := []
  reviewStatus : List ReviewStatus := []
  detectionStatus : List DetectionStatus := []
  /-- the ids of baseline tags -/
  runTag : List Int := []
  componentNames : List String := []
  bugPathLength : Option LengthRange := none
  date : DateCondition := {}
  isUnique : Bool := false
deriving DecidableEq, Repr

namespace ReportFilter

/-- which of the attributes carry a condition -/
def conditions (f : ReportFilter) : List Bool :=
  [!f.filepath.isEmpty, !f.checkerMsg.isEmpty, !f.checkerName.isEmpty, !f.reportHash.isEmpty,
   !f.severity.isEmpty, !f.reviewStatus.isEmpty, !f.detectionStatus.isEmpty, !f.runTag.isEmpty,
   !f.componentNames.isEmpty, f.bugPathLength.isSome, f.date.detected.isSome,
   f.date.fixed.isSome, f.isUnique]

def activeCount (f : ReportFilter) : Nat := f.conditions.count true

def hasActive (f : ReportFilter) : Bool := 0 < f.activeCount

end ReportFilter

structure Comparison where
  runIds : Option (List Int) := none
  runTag : Option (List Int) := none
  diffType : DiffType := .new
deriving DecidableEq, Repr

/-- a list, unless it is empty -/
def unlessEmpty {α : Type} : List α → Option (List α)
  | [] => none
  | a :: as => some (a :: as)

theorem unlessEmpty_eq_none {α : Type} {l : List α} : unlessEmpty l = none ↔ l = [] := by
  cases l <;> simp [unlessEmpty]

/-- no comparison without a run and without a tag -/
def Comparison.ofSides (runIds runTags : List Int) (diff : DiffType) : Option Comparison :=
  if runIds = [] ∧ runTags = [] then none
  else some ⟨unlessEmpty runIds, unlessEmpty runTags, diff⟩

structure Scope where
  /-- the baseline runs; all runs if there is none -/
  runIds : List Int := []
  filter : ReportFilter := {}
  comparison : Option Comparison := none
deriving DecidableEq, Repr

structure Query where
  runIds : List Int := []
  filter : ReportFilter := {}
  compareRunIds : List Int := []
  compareRunTags : List Int := []
  diffType : DiffType := .new
deriving DecidableEq, Repr

namespace Query

def comparison (q : Query) : Option Comparison :=
  Comparison.ofSides q.compareRunIds q.compareRunTags q.diffType

def scope (q : Query) : Scope := ⟨q.runIds, q.filter, q.comparison⟩

/-- stands for a selection that names no stored run or tag -/
def noSuchId : Int := -1

end Query

end Triage
