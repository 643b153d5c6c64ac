import Triage.Build.Compiler
import Triage.Proofs.Regexes

/-!
# The grammar of compiler names

`Compiler.regex` is what the names of compilers match, with the driver in its group. Its front is a
repetition that may itself take the name of a driver, so what ends up in the group looks like a
matter of which way is tried first. It is not, because a name can be read in one way only.

* `Spelling.name_injective`   a name determines the target, the driver and the version;
* `Compiler.reads_regex`      the texts that match are the names that are spelled;
* `Spelling.ofName?_name`     the compiler in a name is that of its driver;
* `Compiler.isSome_ofName?`   and no other names are known;
* `Drivers.replacementFor_by_name`   what a program is replaced by, for all names.
-/

namespace Triage

namespace Compiler

/-- the programs that are known -/
def drivers : List String := ["gcc", "cc", "g++", "c++", "clang", "clang++"]

def isTargetChar (c : Char) : Bool := Text.isWordChar c || c == '.'

def isVersionChar (c : Char) : Bool := Text.isDigitChar c || c == '.'

/-- words of a target, each with the hyphen behind it -/
def targetRegex : Text.Regex :=
  .optional <| .seq (.plus (.one isTargetChar)) <|
    .seq (.many (.seq (.word ['-']) (.plus (.one isTargetChar)))) (.word ['-'])

/-- a version with the hyphen before it -/
def versionRegex : Text.Regex :=
  .optional <| .seq (.word ['-']) (.plus (.one isVersionChar))

/-- `^(?:[\w.]+(?:-[\w.]+)*-)?(gcc|cc|g\+\+|c\+\+|clang|clang\+\+)(?:-[\d.]+)?$` -/
def regex : Text.Regex :=
  .seq targetRegex (.seq (.group (.oneOf (drivers.map String.toList))) versionRegex)

/-- one way to read the name of a compiler -/
@[ext]
structure Spelling where
  target : List (List Char)
  driver : String
  version : Option (List Char)
  isTargetWord_target : ∀ w ∈ target, isTargetWord w = true
  known : driver ∈ drivers
  isVersion_version : ∀ v ∈ version, isVersion v = true

theorem isTargetWord_iff {w : List Char} :
    isTargetWord w = true ↔ w ≠ [] ∧ w.all isTargetChar = true := by
  rw [isTargetWord, Bool.and_eq_true, bne_iff_ne]
  rfl

theorem isVersion_iff {v : List Char} :
    isVersion v = true ↔ v ≠ [] ∧ v.all isVersionChar = true := by
  rw [isVersion, Bool.and_eq_true, bne_iff_ne]
  rfl

theorem isSome_ofDriver? {d : String} : (ofDriver? d).isSome = true ↔ d ∈ drivers := by
  grind [ofDriver?, drivers]

theorem not_isVersion_of_mem_drivers : ∀ d ∈ drivers, isVersion d.toList = false := by
  decide +kernel

theorem hyphen_notMem_of_mem_drivers : ∀ d ∈ drivers, '-' ∉ d.toList := by decide +kernel

theorem hyphen_notMem_of_isTargetWord {w : List Char} (h : isTargetWord w = true) : '-' ∉ w :=
  fun hw => by
    have := List.all_eq_true.1 (isTargetWord_iff.1 h).2 '-' hw
    exact absurd this (by decide +kernel)

theorem hyphen_notMem_of_isVersion {v : List Char} (h : isVersion v = true) : '-' ∉ v :=
  fun hv => by
    have := List.all_eq_true.1 (isVersion_iff.1 h).2 '-' hv
    exact absurd this (by decide +kernel)

namespace Spelling

/-- what stands between the hyphens -/
def pieces (s : Spelling) : List (List Char) := s.target ++ s.driver.toList :: s.version.toList

def name (s : Spelling) : String := String.ofList (['-'].intercalate s.pieces)

theorem hyphen_notMem (s : Spelling) : ∀ piece ∈ s.pieces, '-' ∉ piece := by
  intro piece h
  rcases List.mem_append.1 h with h | h
  · exact hyphen_notMem_of_isTargetWord (s.isTargetWord_target piece h)
  · rcases List.mem_cons.1 h with rfl | h
    · exact hyphen_notMem_of_mem_drivers s.driver s.known
    · exact hyphen_notMem_of_isVersion (s.isVersion_version piece (Option.mem_toList.1 h))

theorem splitOn_name (s : Spelling) : s.name.toList.splitOn '-' = s.pieces := by
  rw [name, String.toList_ofList]
  exact List.splitOn_intercalate '-' s.hyphen_notMem
    (List.append_ne_nil_of_right_ne_nil _ (List.cons_ne_nil _ _))

theorem reverse_pieces (s : Spelling) :
    s.pieces.reverse = s.version.toList ++ s.driver.toList :: s.target.reverse := by
  rw [pieces, List.reverse_append, List.reverse_cons, List.append_assoc]
  cases s.version <;> rfl

theorem driver_ne_version (s t : Spelling) : t.version ≠ some s.driver.toList := fun h => by
  have := t.isVersion_version _ h
  rw [not_isVersion_of_mem_drivers s.driver s.known] at this
  cases this

/-- no driver is a version, so the last piece tells whether there is one -/
theorem eq_of_pieces_eq {s t : Spelling} (h : s.pieces = t.pieces) : s = t := by
  have hreverse : s.version.toList ++ s.driver.toList :: s.target.reverse =
      t.version.toList ++ t.driver.toList :: t.target.reverse := by
    rw [← s.reverse_pieces, h, t.reverse_pieces]
  cases hs : s.version with
  | none =>
    cases ht : t.version with
    | none =>
      rw [hs, ht] at hreverse
      obtain ⟨hdriver, htarget⟩ := List.cons.inj hreverse
      exact Spelling.ext (List.reverse_inj.1 htarget) (String.toList_inj.1 hdriver)
        (hs.trans ht.symm)
    | some v =>
      rw [hs, ht] at hreverse
      exact absurd (by rw [ht, ← (List.cons.inj hreverse).1]) (s.driver_ne_version t)
  | some v =>
    cases ht : t.version with
    | none =>
      rw [hs, ht] at hreverse
      exact absurd (by rw [hs, (List.cons.inj hreverse).1]) (t.driver_ne_version s)
    | some v' =>
      rw [hs, ht] at hreverse
      obtain ⟨hversion, hrest⟩ := List.cons.inj hreverse
      obtain ⟨hdriver, htarget⟩ := List.cons.inj hrest
      exact Spelling.ext (List.reverse_inj.1 htarget) (String.toList_inj.1 hdriver)
        (by rw [hs, ht, hversion])

theorem name_injective : Function.Injective name := fun s t h =>
  eq_of_pieces_eq (by rw [← s.splitOn_name, h, t.splitOn_name])

/-- a version names no driver, so the piece before it is asked -/
theorem ofName?_name (s : Spelling) : ofName? s.name = ofDriver? s.driver := by
  have hreversed : ofReversed? (s.driver.toList :: s.target.reverse) = ofDriver? s.driver := by
    rw [ofReversed?, List.all_reverse, if_pos (List.all_eq_true.2 s.isTargetWord_target),
      String.ofList_toList]
  obtain ⟨k, hk⟩ := Option.isSome_iff_exists.1 (isSome_ofDriver?.2 s.known)
  rw [ofName?, splitOn_name, reverse_pieces]
  cases hv : s.version with
  | none =>
    rw [Option.toList_none, List.nil_append, ofPieces?, hreversed, hk]
    rfl
  | some v =>
    have hno : ofReversed? (v :: s.driver.toList :: s.target.reverse) = none := by
      rw [ofReversed?]
      split
      · rw [← Option.not_isSome_iff_eq_none, isSome_ofDriver?]
        intro hd
        have := not_isVersion_of_mem_drivers _ hd
        rw [String.toList_ofList, s.isVersion_version v hv] at this
        cases this
      · rfl
    rw [Option.toList_some, List.singleton_append, ofPieces?, hno, Option.none_or,
      if_pos (s.isVersion_version v hv), hreversed]

end Spelling

theorem exists_of_ofReversed? {pieces : List (List Char)} {k : Compiler}
    (h : ofReversed? pieces = some k) : ∃ (target : List (List Char)) (driver : String),
      pieces.reverse = target ++ [driver.toList] ∧ driver ∈ drivers ∧
        ∀ w ∈ target, isTargetWord w = true := by
  cases pieces with
  | nil => cases h
  | cons d target =>
    rw [ofReversed?] at h
    split at h
    · next htarget =>
      refine ⟨target.reverse, String.ofList d, ?_, isSome_ofDriver?.1 (by rw [h]; rfl), ?_⟩
      · rw [List.reverse_cons, String.toList_ofList]
      · exact List.all_eq_true.1 (List.all_reverse.trans htarget)
    · cases h

theorem exists_spelling {name : String} {k : Compiler} (h : ofName? name = some k) :
    ∃ s : Spelling, s.name = name := by
  have hname : ∀ s : Spelling, s.pieces = name.toList.splitOn '-' → s.name = name := fun s hs => by
    rw [Spelling.name, hs, List.intercalate_splitOn, String.ofList_toList]
  rw [ofName?] at h
  cases hpieces : (name.toList.splitOn '-').reverse with
  | nil =>
    rw [hpieces] at h
    cases h
  | cons last before =>
    have hsplit : name.toList.splitOn '-' = (last :: before).reverse := by
      rw [← hpieces, List.reverse_reverse]
    rw [hpieces, ofPieces?, Option.or_eq_some_iff] at h
    rcases h with h | ⟨-, h⟩
    · obtain ⟨target, driver, hreverse, hknown, htarget⟩ := exists_of_ofReversed? h
      exact ⟨⟨target, driver, none, htarget, hknown, nofun⟩,
        hname _ (hreverse.symm.trans hsplit.symm)⟩
    · split at h
      · next hversion =>
        obtain ⟨target, driver, hreverse, hknown, htarget⟩ := exists_of_ofReversed? h
        refine ⟨⟨target, driver, some last, htarget, hknown, ?_⟩, hname _ ?_⟩
        · exact fun v hv => Option.some.inj hv ▸ hversion
        · rw [hsplit, List.reverse_cons, hreverse, List.append_assoc]
          rfl
      · cases h

theorem isSome_ofName? {name : String} :
    (ofName? name).isSome = true ↔ ∃ s : Spelling, s.name = name := by
  constructor
  · intro h
    obtain ⟨k, hk⟩ := Option.isSome_iff_exists.1 h
    exact exists_spelling hk
  · rintro ⟨s, rfl⟩
    rw [s.ofName?_name, isSome_ofDriver?]
    exact s.known

/-! ## the preferred match -/

section
variable {s : List Char} {g : Option (List Char)}

theorem reads_hyphen {p : Char → Bool} :
    (Text.Regex.seq (.word ['-']) (.plus (.one p))).Reads s g ↔
      (∃ w, (w ≠ [] ∧ w.all p = true) ∧ s = '-' :: w) ∧ g = none := by
  simp only [Text.Regex.reads_seq, Text.Regex.reads_word, Text.Regex.reads_plus_one]
  constructor
  · rintro ⟨_, w, _, _, ⟨rfl, rfl⟩, ⟨hw, rfl⟩, rfl, rfl⟩
    exact ⟨⟨w, hw, rfl⟩, rfl⟩
  · rintro ⟨⟨w, hw, rfl⟩, rfl⟩
    exact ⟨['-'], w, none, none, ⟨rfl, rfl⟩, ⟨hw, rfl⟩, rfl, rfl⟩

theorem reads_versionRegex :
    versionRegex.Reads s g ↔
      (∃ version : Option (List Char), (∀ v ∈ version, isVersion v = true) ∧
        s = version.toList.flatMap ('-' :: ·)) ∧ g = none := by
  simp only [versionRegex, Text.Regex.reads_optional, reads_hyphen, ← isVersion_iff,
    ← or_and_right]
  refine and_congr_left fun _ => ⟨?_, ?_⟩
  · rintro (⟨v, hv, rfl⟩ | rfl)
    · exact ⟨some v, fun _ h => Option.some.inj h ▸ hv, (List.append_nil _).symm⟩
    · exact ⟨none, nofun, rfl⟩
  · rintro ⟨_ | v, hversion, rfl⟩
    · exact .inr rfl
    · exact .inl ⟨v, hversion v rfl, List.append_nil _⟩

/-- a hyphen before every word but the first and one at the end, or one behind every word -/
theorem flatMap_hyphen (w : List Char) (ws : List (List Char)) :
    w ++ (ws.flatMap ('-' :: ·) ++ ['-']) = (w :: ws).flatMap (· ++ ['-']) := by
  induction ws generalizing w with
  | nil => simp
  | cons w' ws ih =>
    rw [List.flatMap_cons, List.flatMap_cons, ← ih w']
    simp only [List.append_assoc, List.cons_append, List.nil_append]

theorem reads_targetRegex :
    targetRegex.Reads s g ↔
      (∃ target : List (List Char), (∀ w ∈ target, isTargetWord w = true) ∧
        s = target.flatMap (· ++ ['-'])) ∧ g = none := by
  have hmore : ∀ (s : List Char) (g : Option (List Char)),
      (Text.Regex.many (.seq (.word ['-']) (.plus (.one isTargetChar)))).Reads s g ↔
        (∃ ws : List (List Char), (∀ w ∈ ws, isTargetWord w = true) ∧
          s = ws.flatMap ('-' :: ·)) ∧ g = none := fun s g => by
    rw [Text.Regex.reads_many (fun _ _ => reads_hyphen) (List.cons_ne_nil '-')]
    simp only [← isTargetWord_iff]
  simp only [targetRegex, Text.Regex.reads_optional, Text.Regex.reads_seq, hmore,
    Text.Regex.reads_word, Text.Regex.reads_plus_one, ← isTargetWord_iff]
  constructor
  · rintro (⟨w, _, _, _, ⟨hw, rfl⟩, ⟨_, _, _, _, ⟨⟨ws, hws, rfl⟩, rfl⟩, ⟨rfl, rfl⟩, rfl, rfl⟩, rfl,
      rfl⟩ | ⟨rfl, rfl⟩)
    · exact ⟨⟨w :: ws, List.forall_mem_cons.2 ⟨hw, hws⟩, flatMap_hyphen w ws⟩, rfl⟩
    · exact ⟨⟨[], nofun, rfl⟩, rfl⟩
  · rintro ⟨⟨_ | ⟨w, ws⟩, htarget, rfl⟩, rfl⟩
    · exact .inr ⟨rfl, rfl⟩
    · obtain ⟨hw, hws⟩ := List.forall_mem_cons.1 htarget
      exact .inl ⟨w, _, none, none, ⟨hw, rfl⟩,
        ⟨_, ['-'], none, none, ⟨⟨ws, hws, rfl⟩, rfl⟩, ⟨rfl, rfl⟩, rfl, rfl⟩,
        (flatMap_hyphen w ws).symm, rfl⟩

theorem Spelling.toList_name (s : Spelling) :
    s.name.toList = s.target.flatMap (· ++ ['-']) ++
      (s.driver.toList ++ s.version.toList.flatMap ('-' :: ·)) := by
  rw [name, String.toList_ofList, pieces]
  induction s.target with
  | nil => cases s.version <;> simp [List.intercalate_cons_cons]
  | cons w target ih =>
    rw [List.cons_append, List.intercalate_cons_of_ne_nil (by simp), ih, List.flatMap_cons]
    simp only [List.append_assoc]

/-- the texts that match are the names that are spelled, with the driver in the group -/
theorem reads_regex :
    regex.Reads s g ↔ ∃ sp : Spelling, sp.name.toList = s ∧ g = some sp.driver.toList := by
  simp only [regex, Text.Regex.reads_seq, Text.Regex.reads_group, Text.Regex.reads_oneOf,
    reads_targetRegex, reads_versionRegex, List.mem_map]
  constructor
  · rintro ⟨_, _, _, _, ⟨⟨target, htarget, rfl⟩, rfl⟩, ⟨_, _, _, _,
      ⟨⟨_, ⟨driver, hknown, rfl⟩, rfl⟩, rfl⟩, ⟨⟨version, hversion, rfl⟩, rfl⟩, rfl, rfl⟩, rfl, rfl⟩
    exact ⟨⟨target, driver, version, htarget, hknown, hversion⟩, Spelling.toList_name _, rfl⟩
  · rintro ⟨⟨target, driver, version, htarget, hknown, hversion⟩, rfl, rfl⟩
    exact ⟨_, _, none, _, ⟨⟨target, htarget, rfl⟩, rfl⟩, ⟨_, _, _, none,
      ⟨⟨none, ⟨driver, hknown, rfl⟩, rfl⟩, rfl⟩, ⟨⟨version, hversion, rfl⟩, rfl⟩, rfl, rfl⟩,
      Spelling.toList_name _, rfl⟩

end

theorem capture?_regex {name driver : String} :
    regex.capture? name = some driver ↔ ∃ s : Spelling, s.name = name ∧ s.driver = driver := by
  rw [Text.Regex.capture?_iff fun g g' h h' => ?unique, reads_regex]
  case unique =>
    obtain ⟨s, hs, rfl⟩ := reads_regex.1 h
    obtain ⟨t, ht, rfl⟩ := reads_regex.1 h'
    rw [Spelling.name_injective (String.toList_inj.1 (hs.trans ht.symm))]
  simp only [String.toList_inj, Option.some.injEq, @eq_comm _ driver]

end Compiler

namespace Drivers
open Compiler (Spelling)

variable {program : String}

theorem replacementFor_of_spelling (d : Drivers) {s : Spelling}
    (h : s.name = Path.baseName program) :
    d.replacementFor program =
      if s.driver ∈ ["g++", "c++"] then d.cxx
      else if s.driver ∈ ["gcc", "cc"] then d.c
      else program := by
  have hknown := s.known
  rw [replacementFor, ← h, s.ofName?_name]
  generalize s.driver = driver at hknown ⊢
  revert driver
  simp [Compiler.drivers, Compiler.ofDriver?]

/-- The names that are known are those that are spelled as the name of a compiler. They can be read
in one way, which is what the preferred match finds, and the driver there says what the program is
replaced by: no target and no version makes a C driver of a C++ driver. -/
theorem replacementFor_by_name (d : Drivers) (program : String) :
    Function.Injective Spelling.name ∧
    (∀ driver, Compiler.regex.capture? (Path.baseName program) = some driver ↔
      ∃ s : Spelling, s.name = Path.baseName program ∧ s.driver = driver) ∧
    ((Compiler.ofName? (Path.baseName program)).isSome = true ↔
      ∃ s : Spelling, s.name = Path.baseName program) ∧
    (∀ s : Spelling, s.name = Path.baseName program →
      d.replacementFor program =
        if s.driver ∈ ["g++", "c++"] then d.cxx
        else if s.driver ∈ ["gcc", "cc"] then d.c
        else program) ∧
    (∀ s : Spelling, s.name = Path.baseName program →
      (s.driver ∈ ["g++", "c++", "clang++"] → d.replacementFor program ∈ [d.cxx, program]) ∧
      (s.driver ∈ ["gcc", "cc", "clang"] → d.replacementFor program ∈ [d.c, program])) ∧
    ((∀ s : Spelling, s.name ≠ Path.baseName program) → d.replacementFor program = program) := by
  refine ⟨Spelling.name_injective, fun _ => Compiler.capture?_regex, Compiler.isSome_ofName?,
    fun s hs => d.replacementFor_of_spelling hs, fun s hs => ?_, fun h => ?_⟩
  · rw [d.replacementFor_of_spelling hs]
    generalize s.driver = driver
    constructor <;> revert driver <;> simp
  · have hunknown : Compiler.ofName? (Path.baseName program) = none := by
      rw [← Option.not_isSome_iff_eq_none, Compiler.isSome_ofName?]
      exact fun ⟨s, hs⟩ => h s hs
    rw [replacementFor, hunknown]

/-- words of the target that are drivers of C themselves -/
def crossCompiler : Spelling where
  target := ["gcc".toList, "cc".toList]
  driver := "g++"
  version := some "11.2".toList
  isTargetWord_target := by decide +kernel
  known := by decide
  isVersion_version := by decide +kernel

theorem replacementFor_by_name_crossCompiler :
    crossCompiler.name = Path.baseName "/opt/bin/gcc-cc-g++-11.2" ∧
      Compiler.regex.capture? (Path.baseName "/opt/bin/gcc-cc-g++-11.2") = some "g++" ∧
      Drivers.replacementFor ⟨"clang-17", "clang++-17"⟩ "/opt/bin/gcc-cc-g++-11.2" =
        "clang++-17" := by
  have hname : crossCompiler.name = Path.baseName "/opt/bin/gcc-cc-g++-11.2" := by decide +kernel
  obtain ⟨-, hcapture, -, hreplacement, -⟩ :=
    replacementFor_by_name ⟨"clang-17", "clang++-17"⟩ "/opt/bin/gcc-cc-g++-11.2"
  exact ⟨hname, (hcapture "g++").2 ⟨crossCompiler, hname, rfl⟩, hreplacement crossCompiler hname⟩

end Drivers

end Triage
