import Triage.Calendar.Timestamp
import Triage.Text.Cut

/-!
# Intervals of time

An `Interval` holds the timestamps from `after` to `before`, both included; a side that is not set
is open.

* `Interval.encode`   `after..before`, each side a timestamp or nothing;
* `Interval.parse`    reads that form; the sides may not be the wrong way round.
-/

namespace Triage.Calendar

structure Interval where
  after : Option Int
  before : Option Int
deriving DecidableEq, Repr

namespace Interval

def isOpen (i : Interval) : Bool := i.after.isNone && i.before.isNone

def contains (i : Interval) (ts : Int) : Bool :=
  i.after.all (· ≤ ts) && i.before.all (ts ≤ ·)

/-- both sides are set, and the wrong way round -/
def isReversed (i : Interval) : Bool :=
  match i.after, i.before with
  | some a, some b => b < a
  | _, _ => false

def side (cs : List Char) : Except BadValue (Option Int) :=
  if Text.trimChars cs = [] then .ok none
  else (readTimestamp (String.ofList cs)).map some

def parse (raw : String) : Except BadValue Interval := do
  match Text.cut? ['.', '.'] raw.toList with
  | none => throw (.range raw)
  | some (a, b) =>
    let i : Interval := ⟨← side a, ← side b⟩
    if i.isReversed then throw (.range raw) else pure i

def encodeSide : Option Int → String
  | none => ""
  | some ts => timestampText ts

def encode (i : Interval) : String := encodeSide i.after ++ ".." ++ encodeSide i.before

end Interval

end Triage.Calendar
