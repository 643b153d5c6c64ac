import Triage.Command.Run
import Triage.Proofs.CompilerNames
import Triage.Proofs.Histories
import Triage.Proofs.Retargeting

/-!
# A driver for C++ beside the driver for C

When only the driver for C is configured, the one for C++ is derived from its path.

* `DriverPath`              a directory, if there is one, and the suffix of a driver;
* `DriverPath.beside`       where the derived driver lies: a directory with an empty name, which is
                            that of a path directly under the root, is taken for no directory;
* `Config.cxxBinaryFor_named`   the derived driver has the suffix of the other one;
* `Config.drivers_of_path`  the two drivers that are configured;
* `Arguments.retarget_derived`   what compiler calls become, and that both drivers lie in one
                            directory exactly when the first is not directly under the root.
-/

namespace Triage

/-- both sides of the last place, if it is known -/
theorem Text.cutLast?_append {c : Char} {b : List Char} (h : c ∉ b) (a : List Char) :
    cutLast? c (a ++ c :: b) = some (a, b) := by
  have hreverse : (a ++ c :: b).reverse = b.reverse ++ c :: a.reverse := by
    rw [List.reverse_append, List.reverse_cons, List.append_assoc]
    rfl
  have hcut : cut? [c] (a ++ c :: b).reverse = some (b.reverse, a.reverse) := by
    rw [hreverse, cut?_append (mt List.mem_reverse.1 h)]
  rw [cutLast?, hcut]
  show some (a.reverse.reverse, b.reverse.reverse) = _
  rw [List.reverse_reverse, List.reverse_reverse]

theorem Text.cutLast?_of_notMem {c : Char} {s : List Char} (h : c ∉ s) : cutLast? c s = none :=
  Option.eq_none_iff_forall_ne_some.2 fun _ hc => h (mem_of_cutLast? hc)

/-! ## paths of drivers -/

/-- where a driver lies, and what stands behind its name there -/
structure DriverPath where
  /-- without the last slash; a bare name has none -/
  dir : Option String
  suffix : String
  slash_notMem : '/' ∉ suffix.toList

namespace DriverPath

/-- the driver of a name at the path -/
def named (p : DriverPath) (driver : String) : String :=
  match p.dir with
  | none => driver ++ p.suffix
  | some dir => dir ++ "/" ++ driver ++ p.suffix

/-- The slash of a path directly under the root is lost. -/
def beside (p : DriverPath) : DriverPath := if p.dir = some "" then { p with dir := none } else p

/-- the name of a driver with the suffix -/
def file (p : DriverPath) (driver : String) : List Char := driver.toList ++ p.suffix.toList

theorem toList_named_of_none {p : DriverPath} (h : p.dir = none) (driver : String) :
    (p.named driver).toList = p.file driver := by
  rw [named, h]
  exact String.toList_append

theorem toList_named_of_some {p : DriverPath} {dir : String} (h : p.dir = some dir)
    (driver : String) : (p.named driver).toList = dir.toList ++ '/' :: p.file driver := by
  rw [named, h]
  show (dir ++ "/" ++ driver ++ p.suffix).toList = _
  rw [String.toList_append, String.toList_append, String.toList_append, List.append_assoc,
    List.append_assoc]
  rfl

/-- both drivers lie in the same directory, unless the slash is lost -/
theorem named_beside_eq_iff (p : DriverPath) (driver : String) :
    p.beside.named driver = p.named driver ↔ p.dir ≠ some "" := by
  unfold beside
  by_cases h : p.dir = some ""
  · rw [if_pos h]
    refine iff_of_false (fun e => ?_) (not_not_intro h)
    have hchars := congrArg String.toList e
    rw [toList_named_of_none rfl, toList_named_of_some h] at hchars
    exact absurd (congrArg List.length hchars).symm (Nat.succ_ne_self _)
  · rw [if_neg h]
    exact iff_of_true rfl h

theorem slash_notMem_file (p : DriverPath) {driver : String} (h : '/' ∉ driver.toList) :
    '/' ∉ p.file driver := by
  rw [file, List.mem_append, not_or]
  exact ⟨h, p.slash_notMem⟩

end DriverPath

/-! ## the configured drivers -/

namespace Config

/-- the name of the driver changes, the suffix stays -/
theorem cxxName_file (p : DriverPath) : cxxName (p.file "clang") = p.file "clang++" := by
  rw [cxxName, DriverPath.file, Text.after?_append]
  rfl

theorem cxxBinaryFor_named (p : DriverPath) :
    cxxBinaryFor (p.named "clang") = p.beside.named "clang++" := by
  have hslash : '/' ∉ p.file "clang" := p.slash_notMem_file (by decide)
  rw [← String.toList_inj, DriverPath.beside, cxxBinaryFor]
  cases hdir : p.dir with
  | none =>
    rw [if_neg nofun, p.toList_named_of_none hdir, p.toList_named_of_none hdir,
      Text.cutLast?_of_notMem hslash]
    exact String.toList_ofList.trans (cxxName_file p)
  | some dir =>
    rw [p.toList_named_of_some hdir, Text.cutLast?_append hslash]
    by_cases hroot : dir = ""
    · rw [hroot, if_pos rfl, DriverPath.toList_named_of_none rfl]
      exact String.toList_ofList.trans (cxxName_file p)
    · obtain ⟨c, cs, hchars⟩ := List.exists_cons_of_ne_nil fun e : dir.toList = [] =>
        hroot (String.toList_inj.1 e)
      rw [if_neg (mt Option.some.inj hroot), p.toList_named_of_some hdir, hchars, ← cxxName_file]
      exact String.toList_ofList

/-- a driver has a name, so that its path is not blank -/
theorem unlessBlank_named (p : DriverPath) :
    unlessBlank (p.named "clang") = some (p.named "clang") := by
  have hfilled : Text.isBlankText (p.named "clang") = false := by
    rw [Text.isBlankText, List.all_eq_false]
    refine ⟨'c', ?_, by decide⟩
    cases hdir : p.dir with
    | none =>
      rw [p.toList_named_of_none hdir]
      exact List.mem_cons_self
    | some dir =>
      rw [p.toList_named_of_some hdir]
      exact List.mem_append_right _ (List.mem_cons_of_mem _ List.mem_cons_self)
  rw [unlessBlank, hfilled]
  rfl

variable {var : String → Option String} {p : DriverPath}

theorem drivers_of_path (hc : var "BUGVIEW_CLANG_BINARY" = some (p.named "clang"))
    (hcxx : var "BUGVIEW_CLANGXX_BINARY" = none) :
    (ofVariables var).drivers = ⟨p.named "clang", p.beside.named "clang++"⟩ := by
  show (⟨Option.getD _ _, Option.getD _ _⟩ : Drivers) = _
  rw [hc, hcxx, Option.bind_some, unlessBlank_named, Option.bind_none, Option.map_some,
    cxxBinaryFor_named]
  rfl

end Config

/-! ## calls of compilers -/

namespace Arguments

open Compiler (Spelling)

variable {d : Drivers} {s : Spelling} {program : String}

/-- no launcher is named like a compiler -/
theorem isLauncher_of_spelling (h : s.name = Path.baseName program) :
    isLauncher program = false := by
  have hunknown : ∀ l ∈ launchers, Compiler.ofName? l = none := by decide +kernel
  rw [isLauncher, ← h, ← Bool.not_eq_true, List.contains_iff_mem]
  intro hmem
  have hknown := Compiler.isSome_ofName?.2 ⟨s, rfl⟩
  rw [hunknown _ hmem] at hknown
  cases hknown

theorem retarget_of_spelling (d : Drivers) (h : s.name = Path.baseName program)
    {front : List String} (hfront : ∀ a ∈ front, isLauncher a = true) (rest : List String) :
    retarget d (front ++ program :: rest) = d.replacementFor program :: keep rest :=
  retarget_behind d hfront (isLauncher_of_spelling h) rest

/-- In every call of one of some drivers, behind launchers or not, the driver is replaced by what
stands at a path. -/
def Replaces (d : Drivers) (drivers : List String) (path : String) : Prop :=
  ∀ (s : Spelling) (program : String), s.name = Path.baseName program → s.driver ∈ drivers →
    ∀ front rest : List String, (∀ a ∈ front, isLauncher a = true) →
      retarget d (front ++ program :: rest) = path :: keep rest

theorem replaces_c (d : Drivers) : Replaces d ["gcc", "cc"] d.c := by
  intro s program h hdriver front rest hfront
  have hother : s.driver ∉ ["g++", "c++"] := by
    revert hdriver
    generalize s.driver = driver
    revert driver
    decide
  rw [retarget_of_spelling d h hfront, d.replacementFor_of_spelling h, if_neg hother,
    if_pos hdriver]

theorem replaces_cxx (d : Drivers) : Replaces d ["g++", "c++"] d.cxx := by
  intro s program h hdriver front rest hfront
  rw [retarget_of_spelling d h hfront, d.replacementFor_of_spelling h, if_pos hdriver]

theorem cxx_mem_drivers : "g++" ∈ Compiler.drivers := by decide

/-- the driver of C++ by its bare name -/
def plainCxx : Spelling where
  target := []
  driver := "g++"
  version := none
  isTargetWord_target := nofun
  known := cxx_mem_drivers
  isVersion_version := nofun

theorem baseName_plainCxx : plainCxx.name = Path.baseName "g++" := by decide +kernel

/-- there is one path that the drivers of C++ are replaced by -/
theorem replaces_cxx_iff {d : Drivers} {path : String} :
    Replaces d ["g++", "c++"] path ↔ d.cxx = path := by
  constructor
  · intro h
    have hpath := h plainCxx "g++" baseName_plainCxx (by decide) [] [] (List.forall_mem_nil _)
    have hcxx := replaces_cxx d plainCxx "g++" baseName_plainCxx (by decide) [] []
      (List.forall_mem_nil _)
    exact List.head_eq_of_cons_eq (hcxx.symm.trans hpath)
  · rintro rfl
    exact replaces_cxx d

/-- When the driver for C++ is not configured, every driver of C in a compiler call is replaced by
the configured one, and every driver of C++ by one with the same suffix. It lies in the same
directory exactly when the configured one is not directly under the root. -/
theorem retarget_derived {env file : Variables} {p : DriverPath}
    (hc : Config.lookup env file "BUGVIEW_CLANG_BINARY" = some (p.named "clang"))
    (hcxx : Config.lookup env file "BUGVIEW_CLANGXX_BINARY" = none) :
    let d := (Config.ofVariables (Config.lookup env file)).drivers
    Replaces d ["gcc", "cc"] (p.named "clang") ∧
    Replaces d ["g++", "c++"] (p.beside.named "clang++") ∧
    (Replaces d ["g++", "c++"] (p.named "clang++") ↔ p.dir ≠ some "") := by
  intro d
  have hd : d = ⟨p.named "clang", p.beside.named "clang++"⟩ := Config.drivers_of_path hc hcxx
  rw [hd]
  refine ⟨replaces_c _, replaces_cxx _, ?_⟩
  rw [replaces_cxx_iff]
  exact p.named_beside_eq_iff "clang++"

/-- an environment that configures the driver of C only -/
def onlyC (path : String) : String → Option String :=
  Config.lookup [("BUGVIEW_CLANG_BINARY", path)] []

theorem onlyC_clangxx (path : String) : onlyC path "BUGVIEW_CLANGXX_BINARY" = none := rfl

/-- a driver in a directory, with a version -/
def versionedDriver : DriverPath := ⟨some "/opt/llvm", "-17", by decide +kernel⟩

theorem retarget_derived_versionedDriver :
    onlyC "/opt/llvm/clang-17" "BUGVIEW_CLANG_BINARY" = some (versionedDriver.named "clang") ∧
    onlyC "/opt/llvm/clang-17" "BUGVIEW_CLANGXX_BINARY" = none ∧
    retarget (Config.ofVariables (onlyC "/opt/llvm/clang-17")).drivers
      ["ccache", "/usr/bin/g++", "-MD", "-c", "a.cpp"] =
        ["/opt/llvm/clang++-17", "-c", "a.cpp"] := by
  have hc : onlyC "/opt/llvm/clang-17" "BUGVIEW_CLANG_BINARY" =
      some (versionedDriver.named "clang") := by decide +kernel
  have hname : plainCxx.name = Path.baseName "/usr/bin/g++" := by decide +kernel
  obtain ⟨-, -, hbeside⟩ := retarget_derived hc (onlyC_clangxx _)
  refine ⟨hc, onlyC_clangxx _, ?_⟩
  refine (hbeside.2 (by decide +kernel) plainCxx "/usr/bin/g++" hname (by decide) ["ccache"]
    ["-MD", "-c", "a.cpp"] (by decide +kernel)).trans ?_
  decide +kernel

/-- directly under the root, where the derived driver loses its slash -/
def rootDriver : DriverPath := ⟨some "", "-17", by decide +kernel⟩

theorem driver_under_root :
    onlyC "/clang-17" "BUGVIEW_CLANG_BINARY" = some (rootDriver.named "clang") ∧
    onlyC "/clang-17" "BUGVIEW_CLANGXX_BINARY" = none ∧
    rootDriver.named "clang++" = "/clang++-17" ∧
    retarget (Config.ofVariables (onlyC "/clang-17")).drivers ["g++", "-c", "a.cpp"] =
      ["clang++-17", "-c", "a.cpp"] ∧
    ¬ Replaces (Config.ofVariables (onlyC "/clang-17")).drivers ["g++", "c++"]
      (rootDriver.named "clang++") := by
  refine ⟨by decide +kernel, by decide +kernel, by decide +kernel, by decide +kernel, fun h => ?_⟩
  have hcall := h plainCxx "g++" baseName_plainCxx (by decide) [] [] (List.forall_mem_nil _)
  revert hcall
  decide +kernel

end Arguments
end Triage
