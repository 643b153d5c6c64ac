import Triage.Build.Path
import Triage.Text.WordChars

/-!
# Names of compilers

A compiler is called by the name of a driver, which may stand behind the words of a target and
before a version: `w-...-w-driver` or `w-...-w-driver-version`.

* `Compiler.ofName? n`       the driver in a name; no driver is a version, so there is at most one
                             way to read a name;
* `Drivers.replacementFor`   the configured driver of the same language; a driver of the other
                             family and an unknown program stay as they are.
-/

namespace Triage

inductive Compiler where
  /-- a C driver to replace -/
  | c
  /-- a C++ driver to replace -/
  | cxx
  /-- a driver that can stay -/
  | clang
deriving DecidableEq, Repr

namespace Compiler

def ofDriver? (d : String) : Option Compiler :=
  if d = "gcc" ∨ d = "cc" then some .c
  else if d = "g++" ∨ d = "c++" then some .cxx
  else if d = "clang" ∨ d = "clang++" then some .clang
  else none

/-- a word of a target: word characters and points -/
def isTargetWord (w : List Char) : Bool := w != [] && w.all fun c => Text.isWordChar c || c == '.'

/-- digits and points -/
def isVersion (w : List Char) : Bool := w != [] && w.all fun c => Text.isDigitChar c || c == '.'

/-- a driver behind the words of a target, the last word first -/
def ofReversed? : List (List Char) → Option Compiler
  | [] => none
  | d :: target => if target.all isTargetWord then ofDriver? (String.ofList d) else none

def ofPieces? : List (List Char) → Option Compiler
  | [] => none
  | last :: before =>
    (ofReversed? (last :: before)).or (if isVersion last then ofReversed? before else none)

def ofName? (name : String) : Option Compiler := ofPieces? (name.toList.splitOn '-').reverse

end Compiler

/-- the drivers to use -/
structure Drivers where
  c : String := "clang"
  cxx : String := "clang++"
deriving DecidableEq, Repr

def Drivers.replacementFor (d : Drivers) (program : String) : String :=
  match Compiler.ofName? (Path.baseName program) with
  | some .c => d.c
  | some .cxx => d.cxx
  | some .clang | none => program

end Triage
