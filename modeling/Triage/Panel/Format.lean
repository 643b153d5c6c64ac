import Triage.Panel.State
import Triage.Report.Format

/-!
# The JSON form of selections, candidates and panels

Absent counts and ids, empty id lists and an unset `synthetic` are left out.  `Panel.toJson` is
everything that a panel shows.
-/

namespace Triage

open Json (Value Reader readInt64 readNat64 readText readBool readList readOption columns need
  orElse)

namespace ValueInfo

def fields (m : ValueInfo) : List (String × Value) :=
  Value.optional "count" natJson m.count ++ Value.nonEmpty "ids" .int m.ids

def toJson (m : ValueInfo) : Value := .record m.fields

def ofJson : Reader ValueInfo := fun t =>
  match columns ["count", "ids"] t with
  | some [count, ids] => do
    some ⟨← orElse (readOption readNat64) none count, ← orElse (readList readInt64) [] ids⟩
  | _ => none

end ValueInfo

def Choice.toJson (i : Choice) : Value :=
  .record (("value", .text i.value) :: i.info.fields)

namespace Selection

def toJson (s : Selection) : Value := .list (s.items.map Choice.toJson)

end Selection

namespace Candidate

def toJson (c : Candidate) : Value :=
  .record (("value", .text c.value) :: Value.optional "count" natJson c.count ++
    Value.optional "id" .int c.id ++ if c.synthetic then [("synthetic", .bool true)] else [])

def ofJson : Reader Candidate := fun t =>
  match columns ["value", "count", "id", "synthetic"] t with
  | some [value, count, id, synthetic] => do
    some ⟨← need readText value, ← orElse (readOption readNat64) none count,
      ← orElse (readOption readInt64) none id, ← orElse readBool false synthetic⟩
  | _ => none

def listJson (cs : List Candidate) : Value := .list (cs.map toJson)

end Candidate

def Phase.word : Phase → String
  | .uninitialized => "uninitialized"
  | .ready => "ready"

namespace Panel

def facetJson (p : Panel) (f : Facet) : Value :=
  .record [("id", .text f.id), ("keys", Value.texts f.kind.keys),
    ("collapsed", .bool (p.inClosedGroup f.id)), ("selected", f.selection.toJson),
    ("candidates", Candidate.listJson f.candidates)]

def toJson (p : Panel) : Value :=
  .record [("state", .text p.phase.word), ("query", p.query.scope.toJson),
    ("queryString", .text p.queryString), ("facets", .list (p.facets.map p.facetJson))]

end Panel

end Triage
