import Mathlib.Data.List.Nodup
import Mathlib.Data.List.TakeWhile
import Triage.Command.Run
import Triage.Proofs.Columns
import Triage.Proofs.Encoding
import Triage.Proofs.Representatives
import Triage.Proofs.Trees

/-!
# What retargeting writes, a check accepts

* `Arguments.retarget_behind`  launchers at the front fall away, and the first other argument is the
                               compiler;
* `BuildStep.Replayable e`     an entry that lists its arguments and names its file;
* `replayable_retargeted`      the entries of a retargeted database are replayable, and no two have
                               the same action (`nodup_actions`);
* `inspect_toJson`             a check takes a replayable entry as it is;
* `mem_findings`               so all it can find is a blank or relative directory, or other
                               arguments for the same file;
* `retargeted_accepted`        a check of the written database reads it back, and fails exactly when
                               a directory is blank.
-/

namespace Triage

open Json (Value)

/-! ## the arguments of a compile action -/

namespace Arguments

/-- arguments are launchers only, or have a first that is none -/
theorem launchers_or (argv : List String) : (∀ a ∈ argv, isLauncher a = true) ∨
    ∃ front compiler rest, argv = front ++ compiler :: rest ∧
      (∀ a ∈ front, isLauncher a = true) ∧ isLauncher compiler = false := by
  induction argv with
  | nil => exact .inl nofun
  | cons a rest ih =>
    cases ha : isLauncher a with
    | false => exact .inr ⟨[], a, rest, rfl, List.forall_mem_nil _, ha⟩
    | true =>
      rcases ih with hall | ⟨front, compiler, rest, rfl, hfront, hcompiler⟩
      · exact .inl (List.forall_mem_cons.2 ⟨ha, hall⟩)
      · exact .inr ⟨a :: front, compiler, rest, rfl, List.forall_mem_cons.2 ⟨ha, hfront⟩, hcompiler⟩

theorem retarget_of_launchers (d : Drivers) {argv : List String}
    (h : ∀ a ∈ argv, isLauncher a = true) : retarget d argv = [] := by
  rw [retarget, List.dropWhile_eq_nil_iff.2 h]

theorem retarget_behind (d : Drivers) {front : List String} {compiler : String}
    (hfront : ∀ a ∈ front, isLauncher a = true) (hcompiler : isLauncher compiler = false)
    (rest : List String) :
    retarget d (front ++ compiler :: rest) = d.replacementFor compiler :: keep rest := by
  rw [retarget, List.dropWhile_append_of_pos hfront,
    List.dropWhile_cons_of_neg (Bool.eq_false_iff.1 hcompiler)]

theorem isLauncher_of_compileFlag {a : String} (h : compileFlags.contains a = true) :
    isLauncher a = false := by
  have hall : ∀ a ∈ compileFlags, isLauncher a = false := by decide +kernel
  exact hall a (List.contains_iff_mem.1 h)

/-- a compile flag is no launcher, so there is a compiler -/
theorem retarget_ne_nil (d : Drivers) {argv : List String}
    (h : argv.any compileFlags.contains = true) : retarget d argv ≠ [] := by
  obtain ⟨a, ha, hflag⟩ := List.any_eq_true.1 h
  rcases launchers_or argv with hall | ⟨front, compiler, rest, rfl, hfront, hcompiler⟩
  · have hl := hall a ha
    rw [isLauncher_of_compileFlag hflag] at hl
    cases hl
  · rw [retarget_behind d hfront hcompiler]
    exact List.cons_ne_nil _ _

end Arguments

/-! ## the file of a compile action -/

theorem Text.mem_intercalate {α : Type} {sep : List α} {pieces : List (List α)} {piece : List α}
    (hp : piece ∈ pieces) {c : α} (hc : c ∈ piece) : c ∈ sep.intercalate pieces := by
  induction pieces with
  | nil => cases hp
  | cons p ps ih =>
    cases ps with
    | nil =>
      rw [List.intercalate_singleton, ← List.mem_singleton.1 hp]
      exact hc
    | cons q ps =>
      rw [List.intercalate_cons_cons, List.mem_append, List.mem_append]
      rcases List.mem_cons.1 hp with rfl | hp
      · exact .inl (.inl hc)
      · exact .inr (ih hp)

theorem Path.mem_of_mem_fileNameChars? {p name : List Char} (h : fileNameChars? p = some name)
    {c : Char} (hc : c ∈ name) : c ∈ p := by
  unfold fileNameChars? at h
  split at h
  · cases h
  · next piece _ hpieces =>
    have hpiece : piece = name := by
      split at h
      · cases h
      · exact Option.some.inj h
    have hmem : piece ∈ p.splitOn '/' := by
      rw [← List.mem_reverse]
      refine (List.dropWhile_suffix isIdle).subset ?_
      rw [hpieces]
      exact List.mem_cons_self
    have hjoin : ['/'].intercalate (p.splitOn '/') = p := List.intercalate_splitOn '/'
    rw [← hjoin]
    exact Text.mem_intercalate hmem (hpiece ▸ hc)

theorem Text.mem_of_cutLast? {c : Char} {s a b : List Char} (h : cutLast? c s = some (a, b)) :
    c ∈ s := by
  obtain ⟨⟨x, y⟩, hcut, -⟩ := Option.map_eq_some_iff.1 h
  have happend := append_of_cut? hcut
  rw [← List.mem_reverse, happend]
  simp

/-- a source file has a point in its name -/
theorem isBlankText_of_isSourceFile {file : String} (h : isSourceFile file = true) :
    Text.isBlankText file = false := by
  have hdot : '.' ∈ file.toList := by
    unfold isSourceFile at h
    cases he : Path.extension? file with
    | none => rw [he] at h; cases h
    | some ext =>
      obtain ⟨name, hname, hcut⟩ := Option.bind_eq_some_iff.1 he
      refine Path.mem_of_mem_fileNameChars? hname ?_
      cases hc : Text.cutLast? '.' name with
      | none => rw [hc] at hcut; cases hcut
      | some ab => exact Text.mem_of_cutLast? hc
  rw [Text.isBlankText, List.all_eq_false]
  exact ⟨'.', hdot, by decide⟩

/-! ## retargeting, entry by entry -/

namespace BuildStep

/-- arguments are listed, with no command beside them, and the file has a name -/
structure Replayable (e : BuildStep) : Prop where
  listed : ∃ a as, e.arguments = some (a :: as)
  noCommand : e.command = none
  named : Text.isBlankText e.file = false

/-- the arguments of the entry, expanded -/
def Expands (read : ReadBytes) (e : BuildStep) (argv : List String) : Prop :=
  ∃ i args, e.argv i = .ok args ∧ Response.expand read e.directory args = .ok argv

end BuildStep

namespace Drivers

variable {d : Drivers} {read : ReadBytes}

/-- an entry on its own: its arguments, expanded, which may not be empty -/
theorem prepare_eq_ok {index : Nat} {e : BuildStep} {p : Option BuildStep} :
    d.prepare read index e = .ok p ↔
      ∃ args argv, e.argv index = .ok args ∧ Response.expand read e.directory args = .ok argv ∧
        argv ≠ [] ∧ p = if compiles argv e.file then some (d.retargetStep e argv) else none := by
  unfold prepare
  cases hargs : e.argv index with
  | error fault => exact ⟨nofun, nofun⟩
  | ok args =>
    cases hexp : Response.expand read e.directory args with
    | error fault =>
      refine ⟨fun h => ?_, fun ⟨_, _, h1, h2, _⟩ => ?_⟩
      · simp only [bind, Except.bind, hexp] at h
        cases h
      · cases h1
        rw [hexp] at h2
        cases h2
    | ok argv =>
      simp only [bind, Except.bind, hexp]
      constructor
      · intro h
        by_cases hnil : argv = []
        · rw [if_pos hnil] at h
          cases h
        · rw [if_neg hnil] at h
          refine ⟨args, argv, rfl, hexp, hnil, ?_⟩
          split at h <;> next hc => cases h; simp only [hc, if_true, if_false, Bool.false_eq_true]
      · rintro ⟨_, _, h1, h2, hnil, rfl⟩
        cases h1
        cases hexp.symm.trans h2
        rw [if_neg hnil]
        split <;> rfl

theorem prepareFrom_cons_eq_ok {index : Nat} {e : BuildStep} {es : List BuildStep}
    {ps : List (Option BuildStep)} :
    d.prepareFrom read index (e :: es) = .ok ps ↔
      ∃ p rest, d.prepare read index e = .ok p ∧ d.prepareFrom read (index + 1) es = .ok rest ∧
        ps = p :: rest := by
  rw [prepareFrom]
  cases d.prepare read index e with
  | error fault => simp [bind, Except.bind]
  | ok p =>
    cases d.prepareFrom read (index + 1) es with
    | error fault => simp [bind, Except.bind]
    | ok rest => simp [bind, Except.bind, eq_comm]

theorem mem_prepareFrom {es : List BuildStep} :
    ∀ {index : Nat} {ps : List (Option BuildStep)}, d.prepareFrom read index es = .ok ps →
      ∀ p ∈ ps, ∃ i, ∃ e ∈ es, d.prepare read i e = .ok p := by
  induction es with
  | nil =>
    intro index ps h p hp
    cases h
    cases hp
  | cons e es ih =>
    intro index ps h p hp
    obtain ⟨q, rest, hq, hrest, rfl⟩ := prepareFrom_cons_eq_ok.1 h
    rcases List.mem_cons.1 hp with rfl | hp
    · exact ⟨index, e, List.mem_cons_self, hq⟩
    · obtain ⟨i, f, hf, hi⟩ := ih hrest p hp
      exact ⟨i, f, List.mem_cons_of_mem _ hf, hi⟩

theorem retarget_eq_ok {es : List BuildStep} {r : Retargeted} (h : d.retarget read es = .ok r) :
    ∃ ps, d.prepareFrom read 0 es = .ok ps ∧
      r.entries = firstOfEach BuildStep.action (ps.filterMap id) := by
  unfold retarget at h
  cases hps : d.prepareFrom read 0 es with
  | error fault => rw [hps] at h; cases h
  | ok ps =>
    rw [hps] at h
    cases h
    exact ⟨ps, rfl, rfl⟩

section
variable {es : List BuildStep} {r : Retargeted} (h : d.retarget read es = .ok r)
include h

/-- every entry is one of those given, with the arguments of a compile action retargeted -/
theorem mem_retargeted {e : BuildStep} (he : e ∈ r.entries) :
    ∃ given ∈ es, ∃ argv, given.Expands read argv ∧ compiles argv given.file = true ∧
      e = d.retargetStep given argv := by
  obtain ⟨ps, hps, hr⟩ := retarget_eq_ok h
  rw [hr] at he
  obtain ⟨p, hp, hid⟩ := List.mem_filterMap.1 ((firstOfEach_sublist _ _).subset he)
  obtain ⟨i, given, hgiven, hprep⟩ := mem_prepareFrom hps p hp
  obtain ⟨args, argv, hargs, hexp, -, hpe⟩ := prepare_eq_ok.1 hprep
  refine ⟨given, hgiven, argv, ⟨i, args, hargs, hexp⟩, ?_⟩
  rw [id, hpe] at hid
  split at hid
  · next hc => exact ⟨hc, (Option.some.inj hid).symm⟩
  · cases hid

theorem replayable_retargeted {e : BuildStep} (he : e ∈ r.entries) : e.Replayable := by
  obtain ⟨given, -, argv, -, hc, rfl⟩ := mem_retargeted h he
  rw [compiles, Bool.and_eq_true] at hc
  refine ⟨?_, rfl, isBlankText_of_isSourceFile hc.2⟩
  cases hargs : Arguments.retarget d argv with
  | nil => exact absurd hargs (Arguments.retarget_ne_nil d hc.1)
  | cons a as => exact ⟨a, as, congrArg some hargs⟩

theorem nodup_actions : (r.entries.map BuildStep.action).Nodup := by
  obtain ⟨ps, -, hr⟩ := retarget_eq_ok h
  rw [hr]
  exact nodup_keys_firstOfEach _ _

end

end Drivers

/-! ## checking replayable entries -/

namespace Inspection

/-- what a check takes a replayable entry for, if its directory has a name -/
def completeStep (e : BuildStep) : CompleteEntry := ⟨e.file, e.directory, e.arguments.getD []⟩

theorem texts?_eq_mapM (vs : List Value) : texts? vs = vs.mapM Value.text? := by
  induction vs with
  | nil => rfl
  | cons v vs ih =>
    cases v with
    | text s =>
      rw [texts?, ih, List.mapM_cons]
      cases vs.mapM Value.text? <;> rfl
    | _ => rfl

theorem texts?_map (ss : List String) : texts? (ss.map .text) = some ss := by
  have htext : ∀ s, (Value.text s).text? = some s := fun _ => rfl
  rw [texts?_eq_mapM, Json.mapM_map_of_forall htext]

theorem inspect_toJson {e : BuildStep} (he : e.Replayable) :
    inspect e.toJson =
      if Text.isBlankText e.directory then ([.missingDirectory], none)
      else (directoryProblems (some e.directory), some (completeStep e)) := by
  obtain ⟨⟨a, as, hlist⟩, hcmd, hnamed⟩ := he
  have hfile : e.toJson.get? "file" = some (.text e.file) := rfl
  have hdir : e.toJson.get? "directory" = some (.text e.directory) := rfl
  have hargs : e.toJson.get? "arguments" = some (Value.texts (a :: as)) := by
    rw [BuildStep.toJson, hlist, hcmd]
    rfl
  have hcommand : e.toJson.get? "command" = none := by
    rw [BuildStep.toJson, hlist, hcmd]
    cases e.output <;> rfl
  have hargv : argv (some (Value.texts (a :: as))) none = .ok (a :: as) := by
    have hlisted : listed? (Value.texts (a :: as)) = some (a :: as) := texts?_map (a :: as)
    rw [argv, hlisted]
  have hrecord : e.toJson.isRecord = true := rfl
  unfold inspect
  rw [if_pos hrecord, hfile, hdir, hargs, hcommand, hargv]
  simp only [filledText?, hnamed, if_false, Bool.false_eq_true]
  by_cases hblank : Text.isBlankText e.directory = true
  · simp only [hblank, if_true]
    rfl
  · simp only [hblank, if_false, Bool.false_eq_true, completeStep, hlist, Option.getD_some,
      problemOf, Option.isNone_some, List.nil_append, List.append_nil]

/-- all that a check can find about a replayable entry that differs from those before it -/
def IsMinor (e : BuildStep) (p : Problem) : Prop :=
  (p = .missingDirectory ∧ Text.isBlankText e.directory = true) ∨
    (p = .relativeDirectory e.directory ∧ Path.isAbsolute e.directory = false) ∨
      ∃ first, p = .conflictingArguments e.source first

theorem compare_of_new {seen : Seen} {e : CompleteEntry} (h : ∀ s ∈ seen, s.2 ≠ e) :
    ∀ p ∈ compare seen e, ∃ first, p = .conflictingArguments e.source first := by
  have hnone : seen.find? (·.2 == e) = none := List.find?_eq_none.2 fun s hs => by
    simpa using h s hs
  intro p hp
  rw [compare, hnone] at hp
  dsimp only at hp
  split at hp
  · split at hp
    · cases hp
    · exact ⟨_, List.mem_singleton.1 hp⟩
  · cases hp

theorem mem_remember {seen : Seen} {index : Nat} {e : CompleteEntry} {s : Nat × CompleteEntry}
    (h : s ∈ remember seen index e) : s ∈ seen ∨ s = (index, e) := by
  unfold remember at h
  split at h
  · exact .inl h
  · exact (List.mem_append.1 h).imp id List.mem_singleton.1

theorem completeStep_ne {e f : BuildStep} (he : e.Replayable) (hf : f.Replayable)
    (h : e.action ≠ f.action) : completeStep e ≠ completeStep f := by
  obtain ⟨a, as, ha⟩ := he.listed
  obtain ⟨b, bs, hb⟩ := hf.listed
  intro heq
  simp only [completeStep, CompleteEntry.mk.injEq, ha, hb, Option.getD_some] at heq
  exact h (by rw [BuildStep.action, BuildStep.action, heq.1, heq.2.1, ha, hb, heq.2.2])

/-- the first of some entries is looked at beside those before it, then the others are -/
theorem entries_toJson_cons {e : BuildStep} (he : e.Replayable) (index : Nat) (seen : Seen)
    (es : List BuildStep) :
    entries index seen ((e :: es).map BuildStep.toJson) =
      if Text.isBlankText e.directory then
        ⟨some index, .missingDirectory⟩ :: entries (index + 1) seen (es.map BuildStep.toJson)
      else
        (directoryProblems (some e.directory) ++ compare seen (completeStep e)).map
            (⟨some index, ·⟩) ++
          entries (index + 1) (remember seen index (completeStep e)) (es.map BuildStep.toJson) := by
  rw [List.map_cons, entries, inspect_toJson he]
  by_cases hblank : Text.isBlankText e.directory = true
  · rw [if_pos hblank, if_pos hblank]
    rfl
  · rw [if_neg hblank, if_neg hblank]

theorem isMinor_of_entries {es : List BuildStep} :
    ∀ {index : Nat} {seen : Seen}, (∀ e ∈ es, e.Replayable) → (es.map BuildStep.action).Nodup →
      (∀ s ∈ seen, ∀ e ∈ es, s.2 ≠ completeStep e) →
      ∀ f ∈ entries index seen (es.map BuildStep.toJson), ∃ i e, es[i]? = some e ∧
        f.index = some (index + i) ∧ IsMinor e f.problem := by
  induction es with
  | nil => intro index seen _ _ _ f hf; cases hf
  | cons e es ih =>
    intro index seen hrep hnodup hseen f hf
    have he := hrep e List.mem_cons_self
    have hrest : ∀ e ∈ es, e.Replayable := fun e he => hrep e (List.mem_cons_of_mem _ he)
    rw [List.map_cons, List.nodup_cons] at hnodup
    -- a finding about a later entry is found by what comes after this one
    have hlater : ∀ seen', (∀ s ∈ seen', ∀ e ∈ es, s.2 ≠ completeStep e) →
        f ∈ entries (index + 1) seen' (es.map BuildStep.toJson) →
        ∃ i g, (e :: es)[i]? = some g ∧ f.index = some (index + i) ∧ IsMinor g f.problem := by
      intro seen' hseen' hf'
      obtain ⟨i, g, hg, hi, hm⟩ := ih hrest hnodup.2 hseen' f hf'
      exact ⟨i + 1, g, hg, by rw [hi, Nat.succ_add_eq_add_succ], hm⟩
    have hkept : ∀ s ∈ seen, ∀ e ∈ es, s.2 ≠ completeStep e := fun s hs g hg =>
      hseen s hs g (List.mem_cons_of_mem _ hg)
    rw [entries_toJson_cons he] at hf
    split at hf
    · next hblank =>
      rcases List.mem_cons.1 hf with rfl | hf
      · exact ⟨0, e, rfl, rfl, .inl ⟨rfl, hblank⟩⟩
      · exact hlater seen hkept hf
    · rcases List.mem_append.1 hf with hf | hf
      · obtain ⟨p, hp, rfl⟩ := List.mem_map.1 hf
        refine ⟨0, e, rfl, rfl, .inr ?_⟩
        rcases List.mem_append.1 hp with hp | hp
        · rw [directoryProblems] at hp
          split at hp
          · cases hp
          · next habs => exact .inl ⟨List.mem_singleton.1 hp, by simpa using habs⟩
        · exact .inr (compare_of_new (fun s hs => hseen s hs e List.mem_cons_self) p hp)
      · refine hlater _ (fun s hs g hg => ?_) hf
        rcases mem_remember hs with hs | rfl
        · exact hkept s hs g hg
        · refine completeStep_ne he (hrest g hg) fun heq => hnodup.1 ?_
          rw [heq]
          exact List.mem_map.2 ⟨g, hg, rfl⟩

theorem missingDirectory_mem_entries {es : List BuildStep} :
    ∀ (index : Nat) (seen : Seen), (∀ e ∈ es, e.Replayable) → ∀ (i : Nat) {e : BuildStep},
      es[i]? = some e → Text.isBlankText e.directory = true →
      ⟨some (index + i), .missingDirectory⟩ ∈ entries index seen (es.map BuildStep.toJson) := by
  induction es with
  | nil => intro index seen _ i e hi; cases hi
  | cons g es ih =>
    intro index seen hrep i e hi hblank
    rw [entries_toJson_cons (hrep g List.mem_cons_self)]
    cases i with
    | zero =>
      cases hi
      rw [if_pos hblank]
      exact List.mem_cons_self
    | succ i =>
      have hrep' : ∀ e ∈ es, e.Replayable := fun e he => hrep e (List.mem_cons_of_mem _ he)
      have hindex : index + (i + 1) = index + 1 + i := by omega
      rw [hindex]
      split
      · exact List.mem_cons_of_mem _ (ih _ seen hrep' i hi hblank)
      · exact List.mem_append_right _ (ih _ _ hrep' i hi hblank)

end Inspection

/-! ## the written database -/

namespace Json.Value

theorem keys_optional {α : Type} (key : String) (f : α → Value) (o : Option α) :
    ((optional key f o).map (·.1)).Sublist [key] := by
  cases o with
  | none => exact List.nil_sublist _
  | some a => exact List.Sublist.refl _

theorem forall_optional {α : Type} {key : String} {f : α → Value} {o : Option α}
    {P : Value → Prop} (h : ∀ a, P (f a)) : ∀ e ∈ optional key f o, P e.2 := by
  intro e he
  cases o with
  | none => cases he
  | some a =>
    rw [List.mem_singleton.1 he]
    exact h a

theorem plain_texts (d : Nat) (ss : List String) : Plain (d + 1) (texts ss) := by
  refine .list fun v hv => ?_
  obtain ⟨s, -, rfl⟩ := List.mem_map.1 hv
  exact .text d s

end Json.Value

namespace BuildStep

theorem plain_toJson (d : Nat) (e : BuildStep) : e.toJson.Plain (d + 2) := by
  refine .record ?_ fun field hf => ?_
  · have hnodup : ["directory", "file", "arguments", "command", "output"].Nodup := by decide
    refine hnodup.sublist ?_
    simp only [List.map_append]
    exact (((List.Sublist.refl _).append (Value.keys_optional _ _ _)).append
      (Value.keys_optional _ _ _)).append (Value.keys_optional _ _ _)
  · simp only [List.mem_append] at hf
    rcases hf with ((hf | hf) | hf) | hf
    · simp only [List.mem_cons, List.not_mem_nil, or_false] at hf
      rcases hf with rfl | rfl
      · exact .text _ _
      · exact .text _ _
    · exact Value.forall_optional (fun ss => Value.plain_texts d ss) field hf
    · exact Value.forall_optional (fun s => .text _ s) field hf
    · exact Value.forall_optional (fun s => .text _ s) field hf

theorem plain_listJson (es : List BuildStep) : (listJson es).Plain Json.Term.maxDepth := by
  refine .list (d := 126) fun v hv => ?_
  obtain ⟨e, -, rfl⟩ := List.mem_map.1 hv
  exact e.plain_toJson 124

end BuildStep

/-- a check of a written database reads it back, also with a line feed at the end -/
theorem Verdict.ofText?_pretty (es : List BuildStep) (spaces : String)
    (hs : ∀ c ∈ spaces.toList, Json.isSpace c = true) :
    ofText? ((BuildStep.listJson es).pretty ++ spaces) =
      some (ofValue (BuildStep.listJson es)) := by
  rw [ofText?, Value.parse?_pretty (BuildStep.plain_listJson es) spaces hs, Option.map_some]

/-! ## the commands -/

theorem textOf_encode (text : String) : textOf (Text.Utf8.encode text.toList) = .ok text := by
  have hid : ∀ c : Char, id (some c) = some c := fun _ => rfl
  rw [textOf, Text.Utf8.decode?, Text.Utf8.decode_encode, Json.mapM_map_of_forall hid]
  simp only [String.ofList_toList]

/-- a text piped in is read as it is -/
theorem World.input_stdin (w : World) (text : String) :
    { w with stdin := Text.Utf8.encode text.toList }.input none = .ok text := by
  rw [input]
  dsimp only
  rw [textOf_encode]
  rfl

/-- what a command writes, to a file or to the standard output -/
def Outcome.written (o : Outcome) : String :=
  match o.file with
  | some (_, text) => text
  | none => o.stdout

theorem Outcome.written_ofText (output : Option String) (text : String) :
    (ofText output text).written = text ++ "\n" := by
  cases output <;> rfl

namespace Command

theorem clangify_eq_ok {w : World} {s : Streams} {o : Outcome} :
    (clangify s).perform w = .ok o ↔
      ∃ raw es r, w.input s.input = .ok raw ∧ BuildStep.parseAll? raw = some es ∧
        w.config.drivers.retarget w.read es = .ok r ∧
          o = .ofText s.output (BuildStep.listJson r.entries).pretty := by
  rw [perform, runClangify]
  constructor
  · intro h
    cases hraw : w.input s.input with
    | error e => rw [hraw] at h; cases h
    | ok raw =>
      simp only [hraw, bind, Except.bind] at h
      split at h
      · cases h
      · next es hes =>
        cases hr : w.config.drivers.retarget w.read es with
        | error fault => simp only [hr, Except.mapError] at h; cases h
        | ok r =>
          simp only [hr, Except.mapError] at h
          cases h
          exact ⟨raw, es, r, rfl, hes, hr, rfl⟩
  · rintro ⟨raw, es, r, hraw, hes, hr, rfl⟩
    rw [hraw]
    simp only [bind, Except.bind, hes, hr, Except.mapError]
    rfl

theorem check_eq_ok {w : World} {s : Streams} {raw : String} {v : Verdict}
    (hraw : w.input s.input = .ok raw) (hv : Verdict.ofText? raw = some v) :
    ∃ o, (check s).perform w = .ok o ∧ o.code = if v.hasErrors then 1 else 0 := by
  rw [perform, runCheck, hraw]
  simp only [bind, Except.bind, hv]
  exact ⟨_, rfl, rfl⟩

end Command

/-! ## retargeted databases pass -/

theorem Verdict.hasErrors_eq_false_iff (v : Verdict) :
    v.hasErrors = false ↔ ∀ f ∈ v.findings, f.problem.isWarning = true := by
  simp [hasErrors, errors]

open Inspection in
theorem Drivers.findings_retargeted {d : Drivers} {read : ReadBytes} {es : List BuildStep}
    {r : Retargeted} (h : d.retarget read es = .ok r) :
    ∀ f ∈ findings (BuildStep.listJson r.entries), ∃ i e, f.index = some i ∧
      r.entries[i]? = some e ∧ IsMinor e f.problem := by
  intro f hf
  obtain ⟨i, e, he, hi, hm⟩ := isMinor_of_entries (fun e he => replayable_retargeted h he)
    (nodup_actions h) (fun s hs => by cases hs) f hf
  exact ⟨i, e, by rw [hi, Nat.zero_add], he, hm⟩

open Inspection in
theorem Drivers.hasErrors_retargeted {d : Drivers} {read : ReadBytes} {es : List BuildStep}
    {r : Retargeted} (h : d.retarget read es = .ok r) :
    (Verdict.ofValue (BuildStep.listJson r.entries)).hasErrors = false ↔
      ∀ e ∈ r.entries, Text.isBlankText e.directory = false := by
  rw [Verdict.hasErrors_eq_false_iff]
  constructor
  · intro hall e he
    by_contra hblank
    obtain ⟨i, hi⟩ := List.mem_iff_getElem?.1 he
    have hmem := missingDirectory_mem_entries 0 [] (fun e he => replayable_retargeted h he) i hi
      (by simpa using hblank)
    cases hall _ hmem
  · intro hall f hf
    obtain ⟨i, e, -, he, hm⟩ := findings_retargeted h f hf
    rcases hm with ⟨-, hblank⟩ | ⟨hp, -⟩ | ⟨first, hp⟩
    · rw [hall e (List.mem_of_getElem? he)] at hblank
      cases hblank
    · rw [hp]; rfl
    · rw [hp]; rfl

theorem retargeted_accepted :
    (∀ (d : Drivers) (read : ReadBytes) (es : List BuildStep) (r : Retargeted),
      d.retarget read es = .ok r →
        ∃ v, Verdict.ofText? (BuildStep.listJson r.entries).pretty = some v ∧
          v = Verdict.ofValue (BuildStep.listJson r.entries) ∧ v.entries = r.entries.length ∧
          (∀ f ∈ v.findings, ∃ i e, f.index = some i ∧ r.entries[i]? = some e ∧
            Inspection.IsMinor e f.problem) ∧
          (v.hasErrors = false ↔ ∀ e ∈ r.entries, Text.isBlankText e.directory = false)) ∧
    ∀ (w w' : World) (s s' : Streams) (o : Outcome), (Command.clangify s).perform w = .ok o →
      w'.input s'.input = .ok o.written →
        ∃ raw es r, w.input s.input = .ok raw ∧ BuildStep.parseAll? raw = some es ∧
          w.config.drivers.retarget w.read es = .ok r ∧
          ∃ o', (Command.check s').perform w' = .ok o' ∧
            (o'.code = 0 ↔ ∀ e ∈ r.entries, Text.isBlankText e.directory = false) := by
  constructor
  · intro d read es r h
    have hread := Verdict.ofText?_pretty r.entries "" (fun c hc => by cases hc)
    rw [String.append_empty] at hread
    refine ⟨_, hread, rfl, ?_, Drivers.findings_retargeted h, Drivers.hasErrors_retargeted h⟩
    exact List.length_map _
  · intro w w' s s' o ho hin
    obtain ⟨raw, es, r, hraw, hes, hr, rfl⟩ := Command.clangify_eq_ok.1 ho
    refine ⟨raw, es, r, hraw, hes, hr, ?_⟩
    have hspace : ∀ c ∈ "\n".toList, Json.isSpace c = true := by simp [Json.isSpace]
    have hread := Verdict.ofText?_pretty r.entries "\n" hspace
    rw [Outcome.written_ofText] at hin
    obtain ⟨o', ho', hcode⟩ := Command.check_eq_ok hin hread
    refine ⟨o', ho', ?_⟩
    rw [← Drivers.hasErrors_retargeted hr, hcode]
    cases (Verdict.ofValue (BuildStep.listJson r.entries)).hasErrors <;> simp

/-- a launcher before a cross compiler, and the same action again -/
def kernelDatabase : String :=
  "[\x7b\"directory\":\"/k\",\"file\":\"a.c\",\"command\":\"ccache arm-gcc -MD -c a.c\"\x7d," ++
    "\x7b\"directory\":\"/k\",\"file\":\"a.c\",\"arguments\":[\"gcc\",\"-c\",\"a.c\"]\x7d]"

def kernelSteps : List BuildStep :=
  [⟨"/k", "a.c", none, some "ccache arm-gcc -MD -c a.c", none⟩,
   ⟨"/k", "a.c", some ["gcc", "-c", "a.c"], none, none⟩]

def kernelWorld : World where
  read _ := .error .notFound
  stdin := Text.Utf8.encode kernelDatabase.toList

def nameless : BuildStep := ⟨" ", "crc.cc", some ["distcc", "c++", "-E", "crc.cc"], none, none⟩

theorem retargeted_accepted_kernelDatabase :
    (∃ r v, (⟨"clang", "clang++"⟩ : Drivers).retarget kernelWorld.read [nameless] = .ok r ∧
      Verdict.ofText? (BuildStep.listJson r.entries).pretty = some v ∧ v.hasErrors = true) ∧
    ∃ o o', (Command.clangify {}).perform kernelWorld = .ok o ∧
      (Command.check {}).perform
        { kernelWorld with stdin := Text.Utf8.encode o.written.toList } = .ok o' ∧ o'.code = 0 := by
  constructor
  · have hr : (⟨"clang", "clang++"⟩ : Drivers).retarget kernelWorld.read [nameless] =
        .ok ⟨[⟨" ", "crc.cc", some ["clang++", "-E", "crc.cc"], none, none⟩], 0, 0⟩ := by
      decide +kernel
    obtain ⟨v, hv, -, -, -, herr⟩ := retargeted_accepted.1 _ _ _ _ hr
    refine ⟨_, v, hr, hv, ?_⟩
    rw [← Bool.not_eq_false, herr]
    decide +kernel
  · have hin : kernelWorld.input none = .ok kernelDatabase := World.input_stdin kernelWorld _
    have hes : BuildStep.parseAll? kernelDatabase = some kernelSteps := by decide +kernel
    have hr : kernelWorld.config.drivers.retarget kernelWorld.read kernelSteps =
        .ok ⟨[⟨"/k", "a.c", some ["clang", "-c", "a.c"], none, none⟩], 0, 1⟩ := by decide +kernel
    have ho := (Command.clangify_eq_ok (s := {})).2 ⟨_, _, _, hin, hes, hr, rfl⟩
    obtain ⟨raw, es, r, hraw, hes', hr', o', ho', hcode⟩ :=
      retargeted_accepted.2 kernelWorld _ {} {} _ ho (World.input_stdin kernelWorld _)
    refine ⟨_, o', ho, ho', hcode.2 ?_⟩
    cases Except.ok.inj (hraw.symm.trans hin)
    cases hes.symm.trans hes'
    cases hr.symm.trans hr'
    decide +kernel

end Triage
