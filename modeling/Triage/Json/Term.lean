import Triage.Json.Token
import Triage.Json.Value
import Triage.Table

/-!
# JSON syntax trees

A `Term` is a text that obeys the grammar; its strings and numbers are still as written.

* `Cursor`                          where a reader of tokens stands: the open lists and records
                                    around it, and what may come next;
* `Cursor.feed`                     takes one token, or refuses it;
* `Term.ofTokens?`, `Term.parse?`   the tree of a whole token list, of a whole text;
* `Term.value?`                     what a term means, if its strings are Unicode, its numbers are
                                    not too large and it nests at most 127 deep; of fields with one
                                    name the last value stands at the first place (`Table.put`).
-/

namespace Triage.Json

inductive Term where
  | null
  | bool (b : Bool)
  | number (n : Literal)
  | text (ps : List Piece)
  | list (items : List Term)
  | record (fields : List (List Piece × Term))

/-- a list or record that is not closed yet, its members so far in reverse -/
inductive Frame where
  | list (items : List Term)
  | record (fields : List (List Piece × Term)) (key : List Piece)

/-- what may come next -/
inductive Cursor where
  /-- a value; if `close`, the end of the list just opened as well -/
  | value (stack : List Frame) (close : Bool)
  /-- a field name; if `close`, the end of the record just opened as well -/
  | field (stack : List Frame) (fields : List (List Piece × Term)) (close : Bool)
  /-- the colon after a field name -/
  | colon (stack : List Frame) (fields : List (List Piece × Term)) (key : List Piece)
  /-- a comma or the end of the innermost list or record -/
  | next (frame : Frame) (stack : List Frame)
  /-- nothing: the text is complete -/
  | done (t : Term)

namespace Cursor

def start : Cursor := .value [] false

/-- a value has been read in full -/
def complete (t : Term) : List Frame → Cursor
  | [] => .done t
  | .list items :: stack => .next (.list (t :: items)) stack
  | .record fields key :: stack => .next (.record ((key, t) :: fields) []) stack

def feedValue (stack : List Frame) (close : Bool) : Token → Option Cursor
  | .null => some (complete .null stack)
  | .bool b => some (complete (.bool b) stack)
  | .number n => some (complete (.number n) stack)
  | .text ps => some (complete (.text ps) stack)
  | .openList => some (.value (.list [] :: stack) true)
  | .openRecord => some (.field stack [] true)
  | .closeList =>
    match close, stack with
    | true, .list items :: outer => some (complete (.list items.reverse) outer)
    | _, _ => none
  | _ => none

def feedKey (stack : List Frame) (fields : List (List Piece × Term)) (close : Bool) :
    Token → Option Cursor
  | .text ps => some (.colon stack fields ps)
  | .closeRecord => if close then some (complete (.record fields.reverse) stack) else none
  | _ => none

def feedNext (frame : Frame) (stack : List Frame) (t : Token) : Option Cursor :=
  match frame, t with
  | .list items, .comma => some (.value (.list items :: stack) false)
  | .list items, .closeList => some (complete (.list items.reverse) stack)
  | .record fields _, .comma => some (.field stack fields false)
  | .record fields _, .closeRecord => some (complete (.record fields.reverse) stack)
  | _, _ => none

def feed : Cursor → Token → Option Cursor
  | .value stack close, t => feedValue stack close t
  | .field stack fields close, t => feedKey stack fields close t
  | .colon stack fields key, .colon => some (.value (.record fields key :: stack) false)
  | .colon _ _ _, _ => none
  | .next frame stack, t => feedNext frame stack t
  | .done _, _ => none

def feedAll : Cursor → List Token → Option Cursor
  | c, [] => some c
  | c, t :: ts => (c.feed t).bind (feedAll · ts)

theorem feedAll_nil (c : Cursor) : feedAll c [] = some c := rfl
theorem feedAll_cons (c : Cursor) (t : Token) (ts : List Token) :
    feedAll c (t :: ts) = (c.feed t).bind (feedAll · ts) := rfl
theorem feedAll_append (c : Cursor) (a b : List Token) :
    feedAll c (a ++ b) = (feedAll c a).bind (feedAll · b) := by
  induction a generalizing c with
  | nil => rfl
  | cons t ts ih =>
    simp only [List.cons_append, feedAll_cons]
    cases c.feed t with
    | none => rfl
    | some c' => simp [ih]

end Cursor

namespace Term

def ofTokens? (ts : List Token) : Option Term :=
  match Cursor.start.feedAll ts with
  | some (.done t) => some t
  | _ => none

def parse? (s : String) : Option Term := (lex s.toList).bind ofTokens?

/-- the deepest nesting that has a meaning -/
def maxDepth : Nat := 127

def meaningOfNumber (n : Literal) : Option Value :=
  match n.integer? with
  | some i => some (.int i)
  | none => n.double?.map .double

mutual

/-- the meaning, with lists and records nested at most `depth` deep -/
def valueWithin : Nat → Term → Option Value
  | _, .null => some .null
  | _, .bool b => some (.bool b)
  | _, .number n => meaningOfNumber n
  | _, .text ps => (Piece.decode? ps).map fun s => .text (String.ofList s)
  | 0, .list _ => none
  | depth + 1, .list items => (valuesWithin depth items).map .list
  | 0, .record _ => none
  | depth + 1, .record fields => (fieldsWithin depth fields []).map .record

def valuesWithin : Nat → List Term → Option (List Value)
  | _, [] => some []
  | depth, t :: ts => do
    let v ← valueWithin depth t
    let vs ← valuesWithin depth ts
    some (v :: vs)

def fieldsWithin : Nat → List (List Piece × Term) → List (String × Value) →
    Option (List (String × Value))
  | _, [], seen => some seen
  | depth, (ps, t) :: rest, seen => do
    let key ← Piece.decode? ps
    let v ← valueWithin depth t
    fieldsWithin depth rest (Table.put (String.ofList key) v seen)

end

def value? (t : Term) : Option Value := valueWithin maxDepth t

end Term

/-- the value of a whole text -/
def Value.parse? (s : String) : Option Value := (Term.parse? s).bind Term.value?

end Triage.Json
