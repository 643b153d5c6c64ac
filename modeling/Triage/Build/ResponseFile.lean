import Triage.Build.Fault
import Triage.Build.Path
import Triage.Build.Shell

/-!
# Response files

An argument `@path` stands for the words of a file, among which there may be such arguments again.

* `Response.name? a`                the path that an argument names, if it is of this form;
* `Response.replace f`              every such argument replaced by what `f` gives for its path, the
                                    others kept (`replace_append`);
* `Response.expand read dir args`   replaces through at most eight files, one inside the other;
                                    every path is relative to `dir`.
-/

namespace Triage.Response

def name? (arg : String) : Option String :=
  match arg.toList with
  | '@' :: c :: cs => some (String.ofList (c :: cs))
  | _ => none

def replace (f : String → Except BuildFault (List String)) :
    List String → Except BuildFault (List String)
  | [] => .ok []
  | a :: as =>
    match name? a with
    | none => do
      let rest ← replace f as
      .ok (a :: rest)
    | some path => do
      let words ← f path
      let rest ← replace f as
      .ok (words ++ rest)

theorem replace_nil (f : String → Except BuildFault (List String)) : replace f [] = .ok [] := rfl

theorem replace_append (f : String → Except BuildFault (List String)) (as bs : List String) :
    replace f (as ++ bs) =
      (replace f as).bind fun xs => (replace f bs).map fun ys => xs ++ ys := by
  induction as with
  | nil =>
    cases h : replace f bs <;> simp [replace, h, Except.bind, Except.map]
  | cons a as ih =>
    simp only [List.cons_append, replace]
    cases name? a with
    | none =>
      simp only [ih]
      cases replace f as <;> cases replace f bs <;> simp [bind, Except.bind, Except.map]
    | some path =>
      simp only [ih]
      cases f path <;> cases replace f as <;> cases replace f bs <;>
        simp [bind, Except.bind, Except.map]

/-- the words of one response file -/
def words (read : ReadBytes) (path : String) : Except BuildFault (List String) :=
  match loadText read path with
  | .error e => .error (.responseFile path (.unreadable e))
  | .ok text =>
    match Shell.split text with
    | none => .error (.responseFile path .unbalancedQuotes)
    | some ws => .ok ws

/-- how many files may stand one inside the other -/
def maxDepth : Nat := 8

/-- with so many levels left -/
def expandWithin (read : ReadBytes) (dir : String) :
    Nat → List String → Except BuildFault (List String)
  | 0 => replace fun name => .error (.responseDepth (Path.join dir name) maxDepth)
  | levels + 1 => replace fun name => do
    expandWithin read dir levels (← words read (Path.join dir name))

def expand (read : ReadBytes) (dir : String) (args : List String) :
    Except BuildFault (List String) :=
  expandWithin read dir maxDepth args

end Triage.Response
