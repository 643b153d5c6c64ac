/-!
# Dates of the proleptic Gregorian calendar

Years are counted from March, so that the leap day comes last:

* `yearStart y`        the days from 1 March of year 0 to 1 March of year `y`;
* `monthStart m`       the days from 1 March to the first of the `m`-th month after March;
* `Date.dayNumber`     the days from 1 January 1970 to a date;
* `Date.ofDayNumber`   the date of a day number.
-/

namespace Triage.Calendar

def yearStart (y : Int) : Int := 365 * y + y / 4 - y / 100 + y / 400

def monthStart (m : Nat) : Nat := (153 * m + 2) / 5

def isLeap (y : Int) : Bool := y % 4 = 0 ∧ (y % 100 ≠ 0 ∨ y % 400 = 0)

def daysInMonth (year : Int) (month : Nat) : Nat :=
  if month = 2 then if isLeap year then 29 else 28
  else if month = 4 ∨ month = 6 ∨ month = 9 ∨ month = 11 then 30
  else 31

structure Date where
  year : Int
  month : Nat
  day : Nat
deriving DecidableEq, Repr

namespace Date

/-- the date exists -/
def Exists (d : Date) : Prop :=
  1 ≤ d.month ∧ d.month ≤ 12 ∧ 1 ≤ d.day ∧ d.day ≤ daysInMonth d.year d.month

instance (d : Date) : Decidable d.Exists := by unfold Exists; infer_instance

/-- from 1 March of year 0 to 1 January 1970 -/
def epoch : Int := 719468

def dayNumber (d : Date) : Int :=
  let marchYear := if d.month ≤ 2 then d.year - 1 else d.year
  let marchMonth := if d.month ≤ 2 then d.month + 9 else d.month - 3
  yearStart marchYear + monthStart marchMonth + d.day - 1 - epoch

/-- the year, counted from March, that holds a day counted from 1 March of year 0 -/
def marchYearOf (z : Int) : Int :=
  let guess := z * 400 / 146097
  if z < yearStart guess then guess - 1
  else if yearStart (guess + 1) ≤ z then guess + 1
  else guess

def ofDayNumber (n : Int) : Date :=
  let z := n + epoch
  let y := marchYearOf z
  let dayOfYear := (z - yearStart y).toNat
  let m := (5 * dayOfYear + 2) / 153
  let day := dayOfYear - monthStart m + 1
  if m < 10 then ⟨y, m + 3, day⟩ else ⟨y + 1, m - 9, day⟩

end Date

end Triage.Calendar
