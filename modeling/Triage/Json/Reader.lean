import Triage.Json.Term

/-!
# Reading typed data from JSON terms

A reader is a function `Term → Option α`.

* `readInt lo hi`, `readBool`, `readText`, `readList`, `readOption`   the elementary ones; a whole
                           number must be written without point and exponent;
* `columns names`          the fields of a record of data, in order: from a record, where names not
                           asked for are passed over without a look at their values and a name asked
                           for may stand only once, or from a list of values in the same order,
                           where the last ones may be missing;
* `need r`, `orElse r d`   read a column that must be there, or one with a default.
-/

namespace Triage.Json

abbrev Reader (α : Type) := Term → Option α

def readInt (lo hi : Int) : Reader Int
  | .number n => n.integer?.filter fun i => lo ≤ i ∧ i ≤ hi
  | _ => none

/-- a whole number of 32 bits with sign -/
def readInt32 : Reader Int := readInt (-2147483648) 2147483647

/-- a whole number of 64 bits with sign -/
def readInt64 : Reader Int := readInt (-9223372036854775808) 9223372036854775807

/-- a whole number of 32 bits without sign -/
def readNat32 : Reader Nat := fun t => (readInt 0 Text.maxWord32 t).map Int.toNat

/-- a whole number of 64 bits without sign -/
def readNat64 : Reader Nat := fun t => (readInt 0 Text.maxWord64 t).map Int.toNat

def readBool : Reader Bool
  | .bool b => some b
  | _ => none

def readText : Reader String
  | .text ps => (Piece.decode? ps).map String.ofList
  | _ => none

def readAll {α : Type} (r : Reader α) : List Term → Option (List α)
  | [] => some []
  | t :: ts => do
    let a ← r t
    let as ← readAll r ts
    some (a :: as)

def readList {α : Type} (r : Reader α) : Reader (List α)
  | .list items => readAll r items
  | _ => none

/-- null for an absent value -/
def readOption {α : Type} (r : Reader α) : Reader (Option α)
  | .null => some none
  | t => (r t).map some

/-- all fields, the last value of a repeated name at its first place -/
def readFields {α : Type} (r : Reader α) : Reader (List (String × α))
  | .record fields => go fields []
  | _ => none
where
  go : List (List Piece × Term) → List (String × α) → Option (List (String × α))
    | [], seen => some seen
    | (ps, t) :: rest, seen => do
      let key ← Piece.decode? ps
      let a ← r t
      go rest (Table.put (String.ofList key) a seen)

/-- the terms of the fields with a name, or none if some field name is no text -/
def fieldsNamed (name : String) : List (List Piece × Term) → Option (List Term)
  | [] => some []
  | (ps, t) :: rest => do
    let key ← Piece.decode? ps
    let more ← fieldsNamed name rest
    some (if String.ofList key = name then t :: more else more)

/-- the only field with a name, if any -/
def columnOf (fields : List (List Piece × Term)) (name : String) : Option (Option Term) :=
  match fieldsNamed name fields with
  | some [] => some none
  | some [t] => some (some t)
  | _ => none

/-- every name with a field of its own, in the order of the names -/
def columnsOf (fields : List (List Piece × Term)) : List String → Option (List (Option Term))
  | [] => some []
  | name :: names => do
    let c ← columnOf fields name
    let cs ← columnsOf fields names
    some (c :: cs)

def columns (names : List String) : Term → Option (List (Option Term))
  | .record fields => columnsOf fields names
  | .list items =>
    if items.length ≤ names.length then
      some (items.map some ++ List.replicate (names.length - items.length) none)
    else none
  | _ => none

/-- a column that must be there -/
def need {α : Type} (r : Reader α) : Option Term → Option α
  | none => none
  | some t => r t

/-- a column with a default -/
def orElse {α : Type} (r : Reader α) (d : α) : Option Term → Option α
  | none => some d
  | some t => r t

/-- the value a reader finds in a whole text -/
def parseAs? {α : Type} (r : Reader α) (s : String) : Option α := (Term.parse? s).bind r

end Triage.Json
