import Triage.Json.Double
import Triage.Table

/-!
# JSON values

Whole numbers are kept apart from doubles, and the fields of a record keep their order.

* `Value.get?`   the value of a field;
* `Value.optional`, `Value.nonEmpty`   fields that are left out when there is nothing to write.
-/

namespace Triage.Json

inductive Value where
  | null
  | bool (b : Bool)
  | int (n : Int)
  | double (x : Double)
  | text (s : String)
  | list (items : List Value)
  | record (fields : List (String × Value))

namespace Value

def get? : Value → String → Option Value
  | .record fields, key => Table.get? key fields
  | _, _ => none

def isRecord : Value → Bool
  | .record _ => true
  | _ => false

def texts (ss : List String) : Value := .list (ss.map .text)

def ints (ns : List Int) : Value := .list (ns.map .int)

/-- null for an absent value -/
def orNull {α : Type} (f : α → Value) : Option α → Value
  | none => .null
  | some a => f a

/-- a field for a value that is there, nothing otherwise -/
def optional {α : Type} (key : String) (f : α → Value) : Option α → List (String × Value)
  | none => []
  | some a => [(key, f a)]

/-- a field for a list with elements, nothing otherwise -/
def nonEmpty {α : Type} (key : String) (f : α → Value) : List α → List (String × Value)
  | [] => []
  | as => [(key, .list (as.map f))]

end Value

end Triage.Json
