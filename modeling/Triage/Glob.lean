import Triage.Text.Cut

/-!
# Wildcard patterns

In a pattern `*` stands for any text, the empty one included; every other character stands for
itself.

* `Glob.gaps parts t`   `t` is the parts in this order, each behind a gap of any length, and the
                        last one at the very end: every part but the last is taken where it stands
                        first, which leaves the most for those after it;
* `Glob.accepts p t`    the pattern covers the text.
-/

namespace Triage.Glob

def gaps : List (List Char) → List Char → Bool
  | [], t => t.isEmpty
  | [last], t => last.isSuffixOf t
  | part :: parts, t =>
    match Text.cut? part t with
    | none => false
    | some (_, rest) => gaps parts rest

theorem gaps_nil (t : List Char) : gaps [] t = t.isEmpty := rfl
theorem gaps_singleton (last t : List Char) : gaps [last] t = last.isSuffixOf t := rfl
theorem gaps_cons_cons (part next : List Char) (parts : List (List Char)) (t : List Char) :
    gaps (part :: next :: parts) t =
      match Text.cut? part t with
      | none => false
      | some (_, rest) => gaps (next :: parts) rest := rfl

/-- the parts between the wildcards, the first one at the very front -/
def acceptsParts (t : List Char) : List (List Char) → Bool
  | [] => t.isEmpty
  | [only] => only == t
  | first :: parts =>
    match Text.after? first t with
    | none => false
    | some rest => gaps parts rest

def acceptsChars (p t : List Char) : Bool := acceptsParts t (p.splitOn '*')

def accepts (p t : String) : Bool := acceptsChars p.toList t.toList

end Triage.Glob
