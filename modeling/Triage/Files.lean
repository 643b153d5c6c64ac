import Triage.Text.Utf8

/-!
# Files

* `FileError`   why a file cannot be read or written;
* `FileTree`    the files and directories below a working directory; the directories above it are
                there too, and the root, with nothing else in them;
* `Route`       a path as it is walked;
* `FileTree.read`, `FileTree.write`   the bytes of a file, a file with other bytes;
* `textOf`      the text of bytes, which must be UTF-8.
-/

namespace Triage

inductive FileError where
  | notFound
  | notDirectory
  | isDirectory
  | nameTooLong
  | nulInName
  | notText
  /-- nobody has looked at the file yet -/
  | notLoaded
  | other (text : String)
deriving DecidableEq, Repr

namespace FileError

def message : FileError → String
  | .notFound => "No such file or directory (os error 2)"
  | .notDirectory => "Not a directory (os error 20)"
  | .isDirectory => "Is a directory (os error 21)"
  | .nameTooLong => "File name too long (os error 36)"
  | .nulInName => "file name contained an unexpected NUL byte"
  | .notText => "stream did not contain valid UTF-8"
  | .notLoaded => "file not loaded"
  | .other text => text

end FileError

/-- the bytes of a path, or why there are none -/
abbrev ReadBytes := String → Except FileError (List UInt8)

def textOf (bytes : List UInt8) : Except FileError String :=
  match Text.Utf8.decode? bytes with
  | some cs => .ok (String.ofList cs)
  | none => .error .notText

def loadText (read : ReadBytes) (path : String) : Except FileError String := do
  textOf (← read path)

/-- Paths are lists of components below the working directory; those above it start with `..`, as
often as there are steps up, and those below the root with `/`. -/
structure FileTree where
  files : List (List String × List UInt8) := []
  directories : List (List String) := []
deriving DecidableEq, Repr

/-- what a path leads to -/
inductive Place where
  | file (path : List String)
  | directory (path : List String)
  | missing (path : List String)
deriving DecidableEq, Repr

namespace FileTree

def bytes? (t : FileTree) (path : List String) : Option (List UInt8) :=
  (t.files.find? (·.1 == path)).map (·.2)

/-- the root, the working directory, and the directories above it -/
def isTop (path : List String) : Bool := path == ["/"] || path.all (· == "..")

/-- something lies at the path or below it -/
def hasDirectory (t : FileTree) (path : List String) : Bool :=
  isTop path || t.directories.any path.isPrefixOf ||
    t.files.any fun f => path.isPrefixOf f.1 && f.1 != path

/-- the directory above a directory; the root is above itself -/
def above (path : List String) : List String :=
  if path = ["/"] then path else if isTop path then path ++ [".."] else path.dropLast

def placeAt (t : FileTree) (path : List String) : Place :=
  if (t.bytes? path).isSome then .file path
  else if t.hasDirectory path then .directory path
  else .missing path

/-- the longest name of one file, and of a whole path, in bytes -/
def maxName : Nat := 255

def maxPath : Nat := 4095

def enter (t : FileTree) (place : Place) (component : String) : Except FileError Place :=
  match place with
  | .missing _ => .error .notFound
  | .file _ => .error .notDirectory
  | .directory path =>
    if component = "." ∨ component = "" then .ok (.directory path)
    else if component = ".." then .ok (.directory (above path))
    else if maxName < component.utf8ByteSize then .error .nameTooLong
    else .ok (t.placeAt (path ++ [component]))

def walk (t : FileTree) : Place → List String → Except FileError Place
  | place, [] => .ok place
  | place, c :: cs => do t.walk (← t.enter place c) cs

/-- the directory where a path starts, and the components to walk; a slash at its end leaves an
empty one, which stands for the directory reached so far -/
structure Route where
  start : List String
  components : List String
deriving DecidableEq, Repr

namespace Route

/-- The whole path is looked at before any of it is walked. -/
def ofPath (path : String) : Except FileError Route :=
  let cs := path.toList
  if cs.contains '\x00' then .error .nulInName
  else if path = "" then .error .notFound
  else if maxPath < path.utf8ByteSize then .error .nameTooLong
  else
    .ok { start := if cs.head? = some '/' then ["/"] else []
          components := (cs.splitOn '/').map String.ofList }

/-- Slashes at the end ask for a directory: they and the name before them are cut off. -/
def holder? (r : Route) : Option Route :=
  if r.components.getLast? = some "" then
    let cs := (r.components.reverse.dropWhile (· == "")).drop 1
    some { r with components := cs.reverse ++ [""] }
  else none

end Route

def follow (t : FileTree) (r : Route) : Except FileError Place :=
  t.walk (.directory r.start) r.components

def find (t : FileTree) (path : String) : Except FileError Place := do
  t.follow (← Route.ofPath path)

def read (t : FileTree) : ReadBytes := fun path => do
  match ← t.find path with
  | .file p => pure ((t.bytes? p).getD [])
  | .directory _ => throw .isDirectory
  | .missing _ => throw .notFound

/-- the file made, or its bytes replaced -/
def put (t : FileTree) (path : List String) (bytes : List UInt8) : FileTree :=
  { t with files := (path, bytes) :: t.files.filter (·.1 != path) }

/-- Where the path asks for a directory, nothing can be written, whether it is there or not; but the
directory that holds it has to be. -/
def write (t : FileTree) (path : String) (bytes : List UInt8) : Except FileError FileTree := do
  let r ← Route.ofPath path
  match r.holder? with
  | some h =>
    let _ ← t.follow h
    throw .isDirectory
  | none =>
    match ← t.follow r with
    | .file p | .missing p => pure (t.put p bytes)
    | .directory _ => throw .isDirectory

end FileTree

end Triage
