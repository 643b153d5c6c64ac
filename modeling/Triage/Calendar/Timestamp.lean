import Triage.BadValue
import Triage.Calendar.Date
import Triage.Text.Blank
import Triage.Text.Decimal

/-!
# Timestamps as text

A timestamp is a whole number of seconds since the start of 1970, in UTC.

* `Moment`          a date and a time of day, and `Moment.timestamp`;
* `stamped? cs`     the strict form `YYYY-MM-DDTHH:MM:SS` with a fraction, if any, and an offset;
* `loose? sep cs`   the lenient forms, with blanks before numbers and short numbers allowed;
* `readTimestamp`   the first form that fits, in the order strict, `T`, blank, bare date;
* `timestampText`   `YYYY-MM-DDTHH:MM:SS`, or the plain number outside the calendar (`earliest`,
                    `latest`).

Second 60 is accepted and counts as 59.
-/

namespace Triage.Calendar

open Text

structure Moment where
  date : Date
  hour : Nat
  minute : Nat
  second : Nat
deriving DecidableEq, Repr

namespace Moment

/-- the date exists in a year of the calendar, and so does the time of day -/
def Exists (m : Moment) : Prop :=
  m.date.Exists ∧ -262143 ≤ m.date.year ∧ m.date.year ≤ 262142 ∧
    m.hour < 24 ∧ m.minute < 60 ∧ m.second ≤ 60

instance (m : Moment) : Decidable m.Exists := by unfold Exists; infer_instance

def timestamp (m : Moment) : Int :=
  m.date.dayNumber * 86400 + (m.hour * 3600 + m.minute * 60 + min m.second 59 : Nat)

def ofTimestamp (ts : Int) : Moment :=
  let s := (ts % 86400).toNat
  ⟨Date.ofDayNumber (ts / 86400), s / 3600, s / 60 % 60, s % 60⟩

end Moment

/-! ## reading -/

/-- exactly `k` digits, and what follows -/
def fixed (k : Nat) (cs : List Char) : Option (Nat × List Char) :=
  if (cs.take k).length = k then (natural? (cs.take k)).map (·, cs.drop k) else none

/-- at least one and at most `k` digits, and what follows -/
def upTo (k : Nat) (cs : List Char) : Option (Nat × List Char) :=
  let ds := (cs.take k).takeWhile Char.isDigit
  (natural? ds).map (·, cs.drop ds.length)

/-- a given character, and what follows -/
def expect (c : Char) : List Char → Option (List Char)
  | [] => none
  | d :: cs => if d = c then some cs else none

/-- a fraction, which does not count, and what follows -/
def skipFraction : List Char → Option (List Char)
  | '.' :: cs =>
    if cs.takeWhile Char.isDigit = [] then none else some (cs.dropWhile Char.isDigit)
  | cs => some cs

/-- the seconds that local time is ahead, at the end of the text -/
def offset? : List Char → Option Int
  | ['Z'] | ['z'] => some 0
  | sign :: cs => do
    let (h, cs) ← fixed 2 cs
    let cs ← expect ':' cs
    let (m, cs) ← fixed 2 cs
    if cs = [] ∧ m < 60 ∧ h < 24 then
      let seconds : Int := (h * 3600 + m * 60 : Nat)
      if sign = '+' then some seconds
      else if sign = '-' ∨ sign = '\u2212' then some (-seconds)
      else none
    else none
  | [] => none

def stamped? (cs : List Char) : Option Int := do
  let (year, cs) ← fixed 4 cs
  let cs ← expect '-' cs
  let (month, cs) ← fixed 2 cs
  let cs ← expect '-' cs
  let (day, cs) ← fixed 2 cs
  let cs ← match cs with
    | c :: rest => if c = 'T' ∨ c = 't' ∨ c = ' ' then some rest else none
    | [] => none
  let (hour, cs) ← fixed 2 cs
  let cs ← expect ':' cs
  let (minute, cs) ← fixed 2 cs
  let cs ← expect ':' cs
  let (second, cs) ← fixed 2 cs
  let cs ← skipFraction cs
  let ahead ← offset? cs
  let m : Moment := ⟨⟨year, month, day⟩, hour, minute, second⟩
  if m.Exists then some (m.timestamp - ahead) else none

/-- a year: up to four digits, or a sign and any number of digits -/
def looseYear (cs : List Char) : Option (Int × List Char) :=
  match trimStart cs with
  | '-' :: rest => (upTo rest.length rest).map fun (n, r) => (-(n : Int), r)
  | '+' :: rest => (upTo rest.length rest).map fun (n, r) => ((n : Int), r)
  | cs => (upTo 4 cs).map fun (n, r) => ((n : Int), r)

/-- one or two digits after any blanks -/
def looseNumber (cs : List Char) : Option (Nat × List Char) := upTo 2 (trimStart cs)

def looseDate (cs : List Char) : Option (Date × List Char) := do
  let (year, cs) ← looseYear cs
  let cs ← expect '-' cs
  let (month, cs) ← looseNumber cs
  let cs ← expect '-' cs
  let (day, cs) ← looseNumber cs
  some (⟨year, month, day⟩, cs)

/-- a date, the separator and a time; blanks for `none` as separator -/
def loose? (sep : Option Char) (cs : List Char) : Option Int := do
  let (date, cs) ← looseDate cs
  let cs ← match sep with
    | some c => expect c cs
    | none => some (trimStart cs)
  let (hour, cs) ← looseNumber cs
  let cs ← expect ':' cs
  let (minute, cs) ← looseNumber cs
  let cs ← expect ':' cs
  let (second, cs) ← looseNumber cs
  let m : Moment := ⟨date, hour, minute, second⟩
  if cs = [] ∧ m.Exists then some m.timestamp else none

/-- midnight of a bare date -/
def bareDate? (cs : List Char) : Option Int := do
  let (date, cs) ← looseDate cs
  let m : Moment := ⟨date, 0, 0, 0⟩
  if cs = [] ∧ m.Exists then some m.timestamp else none

def timestamp? (cs : List Char) : Option Int :=
  (stamped? cs).or ((loose? (some 'T') cs).or ((loose? none cs).or (bareDate? cs)))

/-- blanks at both ends do not count -/
def readTimestamp (raw : String) : Except BadValue Int :=
  let text := trim raw
  match timestamp? text.toList with
  | some ts => .ok ts
  | none => .error (.timestamp text)

/-! ## writing -/

/-- the first second of year -262143 -/
def earliest : Int := -8334601228800

/-- the last second of year 262142 -/
def latest : Int := 8210266876799

/-- four digits for the years 0 to 9999, otherwise a sign and at least four digits -/
def yearChars (y : Int) : List Char :=
  if 0 ≤ y ∧ y ≤ 9999 then padded 4 y.toNat
  else (if y < 0 then '-' else '+') :: padded 4 y.natAbs

def Moment.chars (m : Moment) : List Char :=
  yearChars m.date.year ++ '-' :: padded 2 m.date.month ++ '-' :: padded 2 m.date.day ++
    'T' :: padded 2 m.hour ++ ':' :: padded 2 m.minute ++ ':' :: padded 2 m.second

def timestampText (ts : Int) : String :=
  if earliest ≤ ts ∧ ts ≤ latest then String.ofList (Moment.ofTimestamp ts).chars
  else integerText ts

end Triage.Calendar
