import Triage.History.Form
import Triage.Json.Reader
import Triage.Text.Blank

/-!
# The state kept in a query string

A `History` is an ordered list of keys, each with its values.

* `History.get?`, `History.first?`   the values of a key, the first of them;
* `History.set`, `History.remove`    replace the values in place, take a key out;
* `History.append`                   one more value for a key;
* `History.parse`                    reads a query string or URL hash: names and values are trimmed,
                                     and pairs with an empty side are dropped;
* `History.queryString`              writes each value as a pair of its own.
-/

namespace Triage

structure History where
  entries : List (String × List String) := []
deriving DecidableEq, Repr

namespace History

def empty : History := {}

def keys (h : History) : List String := h.entries.map (·.1)

def get? (h : History) (key : String) : Option (List String) :=
  Table.get? key h.entries

def first? (h : History) (key : String) : Option String := (h.get? key).bind List.head?

def has (h : History) (key : String) : Bool := (h.get? key).isSome

/-- in the place of the key, or at the end -/
def put (h : History) (key : String) (values : List String) : History :=
  ⟨Table.put key values h.entries⟩

def remove (h : History) (key : String) : History := ⟨Table.erase key h.entries⟩

/-- no values take the key out -/
def set (h : History) (key : String) : Option (List String) → History
  | none | some [] => h.remove key
  | some (v :: vs) => h.put key (v :: vs)

def putOne (h : History) (key value : String) : History := h.put key [value]

def append (h : History) (key value : String) : History :=
  h.put key ((h.get? key).getD [] ++ [value])

def ofPairs (pairs : List (String × String)) : History :=
  pairs.foldl (fun h p => h.append p.1 p.2) empty

/-- the text without one leading `#` or `?` -/
def body : List Char → List Char
  | '#' :: cs => cs
  | '?' :: cs => cs
  | cs => cs

/-- the trimmed pairs with two sides -/
def cleanPairs (pairs : List (List Char × List Char)) : List (String × String) :=
  pairs.filterMap fun (name, value) =>
    let name := Text.trimChars name
    let value := Text.trimChars value
    if name = [] ∨ value = [] then none else some (String.ofList name, String.ofList value)

def parse (raw : String) : History :=
  ofPairs (cleanPairs (Form.pairs (body (Text.trimChars raw.toList))))

def pairText (key value : String) : List Char :=
  Form.encode key.toList ++ '=' :: Form.encode value.toList

def queryString (h : History) : String :=
  let pieces := h.entries.flatMap fun (key, values) => values.map (pairText key)
  String.ofList (['&'].intercalate pieces)

/-- the same keys with the same values, in whatever order -/
def sameEntries (a b : History) : Bool :=
  a.entries.length == b.entries.length &&
    a.entries.all fun (key, values) => b.get? key == some values

/-- a record of lists of texts -/
def ofJson : Json.Reader History := fun t =>
  (Json.readFields (Json.readList Json.readText) t).map (⟨·⟩)

def toJson (h : History) : Json.Value :=
  .record (h.entries.map fun (key, values) => (key, Json.Value.texts values))

end History

end Triage
