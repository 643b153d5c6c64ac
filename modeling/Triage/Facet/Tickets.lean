/-!
# Tickets for fetches, and the quiet period of a search

* `Tickets`     numbers the fetches of a facet; an answer counts only while its ticket is the latest
                (`isLatest_next`, `not_isLatest_of_next`);
* `SearchBox`   holds the last text typed until nobody has typed for an interval.
-/

namespace Triage

structure Tickets where
  latest : Nat := 0
deriving DecidableEq, Repr

namespace Tickets

/-- every earlier ticket is superseded -/
def advance (t : Tickets) : Tickets := ⟨t.latest + 1⟩

/-- the number of a new ticket -/
def next (t : Tickets) : Nat × Tickets := (t.latest + 1, t.advance)

def isLatest (t : Tickets) (ticket : Nat) : Bool := t.latest == ticket

theorem isLatest_next (t : Tickets) : t.next.2.isLatest t.next.1 = true := by
  simp [next, advance, isLatest]

theorem not_isLatest_of_next {t : Tickets} {n : Nat} (h : n ≤ t.latest) :
    t.next.2.isLatest n = false := by
  simp only [next, advance, isLatest, beq_eq_false_iff_ne]; omega

end Tickets

structure SearchBox where
  /-- the quiet period in milliseconds -/
  interval : Nat
  /-- the text typed last and when -/
  pending : Option (String × Nat) := none
deriving DecidableEq, Repr

namespace SearchBox

def note (d : SearchBox) (text : String) (now : Nat) : SearchBox :=
  { d with pending := some (text, now) }

def cancel (d : SearchBox) : SearchBox := { d with pending := none }

/-- the text whose quiet period is over; a time before the note counts as that time -/
def due? (d : SearchBox) (now : Nat) : Option String :=
  match d.pending with
  | none => none
  | some (text, since) => if d.interval ≤ now - since then some text else none

/-- hand out the text that is due, once -/
def take (d : SearchBox) (now : Nat) : Option String × SearchBox :=
  match d.due? now with
  | none => (none, d)
  | some text => (some text, d.cancel)

end SearchBox

end Triage
