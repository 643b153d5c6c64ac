import Triage.BadValue
import Triage.Text.Blank

/-!
# Coded attributes of a report

A `Coded` type has a short list of members, each with a numeric code, a label for people and a
constant name.

* `ofCode? n`                     the member with a code;
* `ofLabel? s`                    the member whose label or constant name is `s`, without regard to
                                  blanks at the ends, to ASCII case and to the difference between
                                  `_` and a space;
* `requireCode`, `requireLabel`   the same, with a reason when there is none.
-/

namespace Triage

class Coded (α : Type) where
  kind : String
  all : List α
  code : α → Int
  label : α → String
  name : α → String

namespace Coded

variable {α : Type} [Coded α]

/-- the spelling under which labels are compared -/
def normal (s : String) : List Char :=
  (Text.trimChars s.toList).map fun c => if c = '_' then ' ' else c.toLower

def ofCode? (n : Int) : Option α := (all : List α).find? fun a => code a == n

def ofLabel? (s : String) : Option α :=
  if normal s = [] then none
  else (all : List α).find? fun a => normal (label a) == normal s || normal (name a) == normal s

def requireCode (n : Int) : Except BadValue α :=
  match ofCode? n with
  | some a => .ok a
  | none => .error (.code (kind α) n)

def requireLabel (s : String) : Except BadValue α :=
  match ofLabel? s with
  | some a => .ok a
  | none => .error (.label (kind α) s)

/-- ascending by code -/
def sorted (as : List α) : List α := as.mergeSort fun a b => code a ≤ code b

end Coded

inductive Severity where
  | unspecified | style | low | medium | high | critical
deriving DecidableEq, Repr, Inhabited

inductive ReviewStatus where
  | unreviewed | confirmed | falsePositive | intentional
deriving DecidableEq, Repr, Inhabited

inductive DetectionStatus where
  | new | resolved | unresolved | reopened | off | unavailable
deriving DecidableEq, Repr, Inhabited

/-- which side of a comparison of runs to show -/
inductive DiffType where
  | new | resolved | unresolved
deriving DecidableEq, Repr, Inhabited

instance : Coded Severity where
  kind := "severity"
  all := [.unspecified, .style, .low, .medium, .high, .critical]
  code
    | .unspecified => 0
    | .style => 10
    | .low => 20
    | .medium => 30
    | .high => 40
    | .critical => 50
  label
    | .unspecified => "Unspecified"
    | .style => "Style"
    | .low => "Low"
    | .medium => "Medium"
    | .high => "High"
    | .critical => "Critical"
  name
    | .unspecified => "UNSPECIFIED"
    | .style => "STYLE"
    | .low => "LOW"
    | .medium => "MEDIUM"
    | .high => "HIGH"
    | .critical => "CRITICAL"

instance : Coded ReviewStatus where
  kind := "review status"
  all := [.unreviewed, .confirmed, .falsePositive, .intentional]
  code
    | .unreviewed => 0
    | .confirmed => 1
    | .falsePositive => 2
    | .intentional => 3
  label
    | .unreviewed => "Unreviewed"
    | .confirmed => "Confirmed bug"
    | .falsePositive => "False positive"
    | .intentional => "Intentional"
  name
    | .unreviewed => "UNREVIEWED"
    | .confirmed => "CONFIRMED"
    | .falsePositive => "FALSE_POSITIVE"
    | .intentional => "INTENTIONAL"

instance : Coded DetectionStatus where
  kind := "detection status"
  all := [.new, .resolved, .unresolved, .reopened, .off, .unavailable]
  code
    | .new => 0
    | .resolved => 1
    | .unresolved => 2
    | .reopened => 3
    | .off => 4
    | .unavailable => 5
  label
    | .new => "New"
    | .resolved => "Resolved"
    | .unresolved => "Unresolved"
    | .reopened => "Reopened"
    | .off => "Off"
    | .unavailable => "Unavailable"
  name
    | .new => "NEW"
    | .resolved => "RESOLVED"
    | .unresolved => "UNRESOLVED"
    | .reopened => "REOPENED"
    | .off => "OFF"
    | .unavailable => "UNAVAILABLE"

instance : Coded DiffType where
  kind := "diff type"
  all := [.new, .resolved, .unresolved]
  code
    | .new => 0
    | .resolved => 1
    | .unresolved => 2
  label
    | .new => "New"
    | .resolved => "Resolved"
    | .unresolved => "Unresolved"
  name
    | .new => "NEW"
    | .resolved => "RESOLVED"
    | .unresolved => "UNRESOLVED"

namespace DetectionStatus

/-- a report with this status still waits for a fix -/
def isOutstanding : DetectionStatus → Bool
  | .new | .unresolved | .reopened => true
  | .resolved | .off | .unavailable => false

end DetectionStatus

end Triage
