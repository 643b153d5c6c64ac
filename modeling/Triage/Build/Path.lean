import Triage.Text.Cut

/-!
# File paths

Components are separated by `/`; empty ones, and `.` after the first, do not count.

* `Path.fileName?`    the last component, unless it is `..` or there is none: slashes and `/.` at
                      the end do not count;
* `Path.extension?`   what follows the last point of the file name; a name whose only point stands
                      first has none;
* `Path.join`         a path relative to a directory; an absolute path stands for itself.
-/

namespace Triage.Path

def isAbsolute (p : String) : Bool := p.toList.head? == some '/'

/-- the component says nothing at the end of a path -/
def isIdle (c : List Char) : Bool := c == [] || c == ['.']

def fileNameChars? (p : List Char) : Option (List Char) :=
  match (p.splitOn '/').reverse.dropWhile isIdle with
  | [] => none
  | name :: _ => if name = ['.', '.'] then none else some name

def fileName? (p : String) : Option String := (fileNameChars? p.toList).map String.ofList

/-- the file name, or the whole path if there is none -/
def baseName (p : String) : String := (fileName? p).getD p

def extension? (p : String) : Option String := do
  let name ← fileNameChars? p.toList
  match Text.cutLast? '.' name with
  | none | some ([], _) => none
  | some (_, ext) => some (String.ofList ext)

def join (dir p : String) : String :=
  if isAbsolute p then p
  else if dir = "" ∨ dir.toList.getLast? = some '/' then dir ++ p
  else dir ++ "/" ++ p

end Triage.Path
