import Triage.Table

/-!
# Selected values

* `ValueInfo`            what is known about a value: a count, and the ids it stands for;
* `Selection.select`     adds a value at the end; a value already there keeps its place and takes
                         over the new knowledge; in single mode the value replaces the others;
* `Selection.deselect`   takes a value out;
* `Selection.ids`        the ids of all values, each once, in order.
-/

namespace Triage

structure ValueInfo where
  count : Option Nat := none
  ids : List Int := []
deriving DecidableEq, Repr

namespace ValueInfo

def isEmpty (m : ValueInfo) : Bool := m.count.isNone && m.ids.isEmpty

/-- what `new` says, and what `old` says where `new` is silent -/
def merge (old new : ValueInfo) : ValueInfo :=
  ⟨new.count.or old.count, if new.ids.isEmpty then old.ids else new.ids⟩

end ValueInfo

structure Choice where
  value : String
  info : ValueInfo := {}
deriving DecidableEq, Repr

inductive ChoiceMode where
  | multi | single
deriving DecidableEq, Repr

structure Selection where
  mode : ChoiceMode
  items : List Choice := []
deriving DecidableEq, Repr

namespace Selection

def values (s : Selection) : List String := s.items.map (·.value)

def contains (s : Selection) (value : String) : Bool := s.items.any (·.value == value)

def get? (s : Selection) (value : String) : Option Choice :=
  s.items.find? (·.value == value)

def isEmpty (s : Selection) : Bool := s.items.isEmpty

def clear (s : Selection) : Selection := { s with items := [] }

/-- change the knowledge about a value -/
def adjust (s : Selection) (value : String) (f : ValueInfo → ValueInfo) : Selection :=
  { s with
    items := s.items.map fun i => if i.value = value then { i with info := f i.info } else i }

def select (s : Selection) (value : String) (info : ValueInfo) : Selection :=
  if s.contains value then s.adjust value (·.merge info)
  else
    match s.mode with
    | .single => { s with items := [⟨value, info⟩] }
    | .multi => { s with items := s.items ++ [⟨value, info⟩] }

def deselect (s : Selection) (value : String) : Selection :=
  { s with items := s.items.filter (·.value != value) }

def ids (s : Selection) : List Int := firstOfEach id (s.items.flatMap (·.info.ids))

end Selection

end Triage
