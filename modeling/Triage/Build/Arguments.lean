import Triage.Build.Compiler

/-!
# The arguments of a compiler call, for another compiler

* `Arguments.takesValue`   flags that swallow the next argument, whatever it is;
* `Arguments.isDropped`    flags that write dependencies, and flags of one compiler family only;
* `Arguments.keep`         drops those flags and what they swallow (`keep_cons_of_takesValue`, …);
* `Arguments.retarget`     drops the launchers at the front, replaces the compiler and keeps the
                           rest.
-/

namespace Triage.Arguments

/-- programs that start the compiler proper -/
def launchers : List String := ["ccache", "distcc", "sccache"]

def isLauncher (arg : String) : Bool := launchers.contains (Path.baseName arg)

def takesValue (arg : String) : Bool := ["-MF", "-MT", "-MQ", "--param"].contains arg

def startsWith (front arg : String) : Bool := front.toList.isPrefixOf arg.toList

def dependencyFlags : List String := ["-MD", "-MMD", "-MP", "-MG"]

/-- fronts of dependency flags that carry their value; alone they swallow the next argument -/
def dependencyFronts : List String := ["-MF", "-MT", "-MQ"]

/-- fronts of dependency flags that the compiler hands on -/
def handedOnFronts : List String := ["-Wp,-MD,", "-Wp,-MMD,"]

/-- the front, and something behind it -/
def startsWithMore (front arg : String) : Bool :=
  front.utf8ByteSize < arg.utf8ByteSize && startsWith front arg

def isDependency (arg : String) : Bool :=
  dependencyFlags.contains arg || dependencyFronts.any (startsWithMore · arg) ||
    handedOnFronts.any (startsWith · arg)

def foreignFlags : List String :=
  ["-fconserve-stack", "-fno-var-tracking-assignments", "-fmerge-constants", "-fno-ipa-sra",
   "-fno-delete-null-pointer-checks", "-fno-allow-store-data-races", "-fno-reorder-blocks",
   "-fstack-usage", "-mno-fp-ret-in-387", "-mskip-rax-setup", "-mindirect-branch-register",
   "-Wno-maybe-uninitialized", "-Wno-unused-but-set-variable", "-Wno-format-truncation",
   "-Wno-stringop-overflow", "-Wno-packed-not-aligned"]

def foreignFronts : List String :=
  ["-fno-tree-", "-ftree-", "-fipa-", "-fvar-tracking", "-fsched-", "-falign-jumps=",
   "-falign-loops=", "-falign-labels=", "-mpreferred-stack-boundary=", "-mindirect-branch=",
   "-mfunction-return=", "-mrecord-mcount", "--param="]

/-- a flag that the new compiler does not know -/
def isForeign (arg : String) : Bool :=
  foreignFlags.contains arg || foreignFronts.any (startsWith · arg)

def isDropped (arg : String) : Bool := isDependency arg || isForeign arg

def keep : List String → List String
  | [] => []
  | [a] => if takesValue a || isDropped a then [] else [a]
  | a :: b :: rest =>
    if takesValue a then keep rest
    else if isDropped a then keep (b :: rest)
    else a :: keep (b :: rest)

theorem keep_nil : keep [] = [] := rfl

theorem keep_cons_of_takesValue {a : String} (h : takesValue a = true) (rest : List String) :
    keep (a :: rest) = keep (rest.drop 1) := by
  cases rest <;> simp [keep, h]

theorem keep_cons_of_isDropped {a : String} (hv : takesValue a = false) (h : isDropped a = true)
    (rest : List String) : keep (a :: rest) = keep rest := by
  cases rest <;> simp [keep, hv, h]

theorem keep_cons {a : String} (hv : takesValue a = false) (h : isDropped a = false)
    (rest : List String) : keep (a :: rest) = a :: keep rest := by
  cases rest <;> simp [keep, hv, h]

def retarget (d : Drivers) (argv : List String) : List String :=
  match argv.dropWhile isLauncher with
  | [] => []
  | compiler :: rest => d.replacementFor compiler :: keep rest

end Triage.Arguments
