import Triage.Proofs.Checked

/-!
# A second pass over a retargeted database

* `Arguments.own`             the arguments that are no value of the flag before them; retargeting
                              keeps those of them that are not dropped (`keep_eq_filter_own`);
* `Arguments.Settled d args`  a compiler that stays, behind no launcher and before nothing that is
                              dropped: so are all retargeted arguments (`settled_retarget`), and
                              retargeting leaves them alone (`Settled.retarget_eq`);
* `Response.plain_expand`     no expanded argument names a response file;
* `retarget_retargeted`       a second pass fails nowhere, finds no duplicate and keeps the entries
                              that are compile actions still;
* `second_pass_iff`           these are all entries exactly when each compile action has a compile
                              flag that no other flag takes for its value.
-/

namespace Triage

/-! ## arguments -/

namespace Arguments

/-- neither dropped nor a flag that takes a value -/
def isKept (a : String) : Bool := !takesValue a && !isDropped a

/-- the arguments that are no value of the flag before them -/
def own : List String → List String
  | [] => []
  | [a] => [a]
  | a :: b :: rest => if takesValue a then a :: own rest else a :: own (b :: rest)

theorem keep_eq_filter_own (args : List String) : keep args = (own args).filter isKept := by
  fun_induction keep args with
  | case1 => rfl
  | case2 a h =>
    have hk : isKept a = false := by rw [isKept, ← Bool.not_or, h]; rfl
    rw [own, List.filter_cons_of_neg (by simp [hk])]
    rfl
  | case3 a h =>
    have hk : isKept a = true := by rw [isKept, ← Bool.not_or, Bool.eq_false_iff.2 h]; rfl
    rw [own, List.filter_cons_of_pos hk]
    rfl
  | case4 a b rest hv ih => rw [own, if_pos hv, ih, List.filter_cons_of_neg (by simp [isKept, hv])]
  | case5 a b rest hv hd ih =>
    rw [own, if_neg hv, ih, List.filter_cons_of_neg (by simp [isKept, hd])]
  | case6 a b rest hv hd ih =>
    rw [own, if_neg hv, ih, List.filter_cons_of_pos (by simp [isKept, hv, hd])]

theorem keep_sublist (args : List String) : (keep args).Sublist args := by
  fun_induction keep args with
  | case1 => exact .refl _
  | case2 a h => exact List.nil_sublist _
  | case3 a h => exact .refl _
  | case4 a b rest hv ih => exact (ih.cons b).cons a
  | case5 a b rest hv hd ih => exact ih.cons a
  | case6 a b rest hv hd ih => exact ih.cons_cons a

/-- arguments of which none is dropped are kept as they are -/
theorem keep_of_isKept {args : List String} (h : ∀ a ∈ args, isKept a = true) :
    keep args = args := by
  induction args with
  | nil => rfl
  | cons a rest ih =>
    obtain ⟨ha, hrest⟩ := List.forall_mem_cons.1 h
    simp only [isKept, Bool.and_eq_true, Bool.not_eq_true'] at ha
    rw [keep_cons ha.1 ha.2, ih hrest]

theorem isKept_of_compileFlag {a : String} (h : compileFlags.contains a = true) :
    isKept a = true := by
  have hall : ∀ a ∈ compileFlags, isKept a = true := by decide +kernel
  exact hall a (List.contains_iff_mem.1 h)

/-- dropping arguments drops no compile flag but those that are values of other flags -/
theorem any_compileFlag_keep (args : List String) :
    (keep args).any compileFlags.contains = (own args).any compileFlags.contains := by
  rw [keep_eq_filter_own, List.any_filter]
  refine congrArg (List.any _) (funext fun a => ?_)
  cases h : compileFlags.contains a with
  | true => rw [isKept_of_compileFlag h]; rfl
  | false => exact Bool.and_false _

end Arguments

/-- drivers that are no launchers, flags or response files, and that a replacement leaves alone -/
structure Drivers.Stable (d : Drivers) : Prop where
  noLauncher : ∀ driver ∈ [d.c, d.cxx], Arguments.isLauncher driver = false
  noFlag : ∀ driver ∈ [d.c, d.cxx], compileFlags.contains driver = false
  noName : ∀ driver ∈ [d.c, d.cxx], Response.name? driver = none
  stays : ∀ driver ∈ [d.c, d.cxx], d.replacementFor driver = driver

theorem Drivers.stable_default : ({} : Drivers).Stable := by
  constructor <;> decide +kernel

namespace Drivers

/-- a program is replaced by a driver or stays -/
theorem replacementFor_cases (d : Drivers) (program : String) :
    d.replacementFor program ∈ [d.c, d.cxx] ∨ d.replacementFor program = program := by
  unfold replacementFor
  split
  · exact .inl (List.mem_cons_self)
  · exact .inl (List.mem_cons_of_mem _ (List.mem_singleton_self _))
  · exact .inr rfl
  · exact .inr rfl

theorem replacementFor_compileFlag (d : Drivers) {a : String}
    (h : compileFlags.contains a = true) : d.replacementFor a = a := by
  have hall : ∀ a ∈ compileFlags, Compiler.ofName? (Path.baseName a) = none := by decide +kernel
  rw [replacementFor, hall a (List.contains_iff_mem.1 h)]

theorem Stable.replacementFor_replacementFor {d : Drivers} (h : d.Stable) (program : String) :
    d.replacementFor (d.replacementFor program) = d.replacementFor program := by
  rcases d.replacementFor_cases program with hm | he
  · exact h.stays _ hm
  · rw [he, he]

/-- a driver takes the place of no flag -/
theorem Stable.compileFlag_replacementFor {d : Drivers} (h : d.Stable) (program : String) :
    compileFlags.contains (d.replacementFor program) = compileFlags.contains program := by
  rcases d.replacementFor_cases program with hm | he
  · cases hf : compileFlags.contains program with
    | true => rw [d.replacementFor_compileFlag hf, hf]
    | false => exact h.noFlag _ hm
  · rw [he]

end Drivers

namespace Arguments

variable {d : Drivers}

/-- a compiler that stays, behind no launcher and before nothing that is dropped -/
inductive Settled (d : Drivers) : List String → Prop where
  | intro {compiler : String} {rest : List String} (noLauncher : isLauncher compiler = false)
    (stays : d.replacementFor compiler = compiler) (kept : ∀ a ∈ rest, isKept a = true) :
    Settled d (compiler :: rest)

theorem Settled.retarget_eq {args : List String} (h : Settled d args) : retarget d args = args := by
  cases h with
  | @intro compiler rest hl hs hk =>
    have hbehind : retarget d (compiler :: rest) = d.replacementFor compiler :: keep rest :=
      retarget_behind d (List.forall_mem_nil _) hl rest
    rw [hbehind, hs, keep_of_isKept hk]

theorem settled_retarget (hd : d.Stable) {argv : List String} (h : retarget d argv ≠ []) :
    Settled d (retarget d argv) := by
  rcases launchers_or argv with hall | ⟨front, compiler, rest, rfl, hfront, hcompiler⟩
  · exact absurd (retarget_of_launchers d hall) h
  · rw [retarget_behind d hfront hcompiler]
    refine .intro ?_ (hd.replacementFor_replacementFor compiler) fun a ha => ?_
    · rcases d.replacementFor_cases compiler with hm | he
      · exact hd.noLauncher _ hm
      · rw [he, hcompiler]
    · rw [keep_eq_filter_own] at ha
      exact (List.mem_filter.1 ha).2

/-- the compiler or an argument behind it is a compile flag, and no value of another flag -/
def asksToCompile (argv : List String) : Bool :=
  match argv.dropWhile isLauncher with
  | [] => false
  | compiler :: rest => compileFlags.contains compiler || (own rest).any compileFlags.contains

theorem any_compileFlag_retarget (hd : d.Stable) (argv : List String) :
    (retarget d argv).any compileFlags.contains = asksToCompile argv := by
  unfold retarget asksToCompile
  cases argv.dropWhile isLauncher with
  | nil => rfl
  | cons compiler rest =>
    show ((_ :: keep rest).any _) = _
    rw [List.any_cons, any_compileFlag_keep, hd.compileFlag_replacementFor]

end Arguments

/-! ## response files -/

namespace Response

theorem exists_of_bind_eq_ok {ε α β : Type} {x : Except ε α} {f : α → Except ε β} {b : β}
    (h : x >>= f = .ok b) : ∃ a, x = .ok a ∧ f a = .ok b := by
  cases x with
  | error e => cases h
  | ok a => exact ⟨a, rfl, h⟩

/-- no argument names a response file -/
def Plain (args : List String) : Prop := ∀ a ∈ args, name? a = none

theorem replace_cons_of_plain {f : String → Except BuildFault (List String)} {a : String}
    (h : name? a = none) (as out : List String) :
    replace f (a :: as) = .ok out ↔ ∃ rest, replace f as = .ok rest ∧ out = a :: rest := by
  rw [replace, h]
  constructor
  · intro h
    obtain ⟨rest, hrest, h⟩ := exists_of_bind_eq_ok h
    cases h
    exact ⟨rest, hrest, rfl⟩
  · rintro ⟨rest, hrest, rfl⟩
    rw [hrest]
    rfl

theorem replace_cons_of_named {f : String → Except BuildFault (List String)} {a name : String}
    (h : name? a = some name) (as out : List String) :
    replace f (a :: as) = .ok out ↔
      ∃ ws rest, f name = .ok ws ∧ replace f as = .ok rest ∧ out = ws ++ rest := by
  rw [replace, h]
  constructor
  · intro h
    obtain ⟨ws, hws, h⟩ := exists_of_bind_eq_ok h
    obtain ⟨rest, hrest, h⟩ := exists_of_bind_eq_ok h
    cases h
    exact ⟨ws, rest, hws, hrest, rfl⟩
  · rintro ⟨ws, rest, hws, hrest, rfl⟩
    simp only [hws, hrest]
    rfl

theorem plain_replace {f : String → Except BuildFault (List String)}
    (hf : ∀ path words, f path = .ok words → Plain words) {args : List String} :
    ∀ {out : List String}, replace f args = .ok out → Plain out := by
  induction args with
  | nil =>
    intro out h
    cases h
    exact fun a ha => nomatch ha
  | cons a as ih =>
    intro out h
    cases hname : name? a with
    | none =>
      obtain ⟨rest, hrest, rfl⟩ := (replace_cons_of_plain hname as out).1 h
      exact List.forall_mem_cons.2 ⟨hname, ih hrest⟩
    | some path =>
      obtain ⟨words, rest, hwords, hrest, rfl⟩ := (replace_cons_of_named hname as out).1 h
      exact List.forall_mem_append.2 ⟨hf path words hwords, ih hrest⟩

theorem plain_expandWithin {read : ReadBytes} {dir : String} (levels : Nat) :
    ∀ {args out : List String}, expandWithin read dir levels args = .ok out → Plain out := by
  induction levels with
  | zero =>
    refine plain_replace fun path words h => ?_
    cases h
  | succ levels ih =>
    refine plain_replace fun path words h => ?_
    obtain ⟨inner, -, hw⟩ := exists_of_bind_eq_ok h
    exact ih hw

/-- no expanded argument names a response file -/
theorem plain_expand {read : ReadBytes} {dir : String} {args out : List String}
    (h : expand read dir args = .ok out) : Plain out := plain_expandWithin maxDepth h

end Response

/-- a replacement names no response file where there was none -/
theorem Arguments.plain_retarget {d : Drivers} (hd : d.Stable) {argv : List String}
    (h : Response.Plain argv) : Response.Plain (retarget d argv) := by
  rcases launchers_or argv with hall | ⟨front, compiler, rest, rfl, hfront, hcompiler⟩
  · rw [retarget_of_launchers d hall]
    exact List.forall_mem_nil _
  · obtain ⟨hc, hrest⟩ := List.forall_mem_cons.1 (List.forall_mem_append.1 h).2
    rw [retarget_behind d hfront hcompiler]
    refine List.forall_mem_cons.2 ⟨?_, fun a ha => hrest a ((keep_sublist rest).subset ha)⟩
    rcases d.replacementFor_cases compiler with hm | he
    · exact hd.noName _ hm
    · rw [he]
      exact hc

/-! ## entries -/

namespace BuildStep

variable {read : ReadBytes} {e : BuildStep}

/-- the entry lists the arguments of a compile action -/
def isAction (e : BuildStep) : Bool := compiles (e.arguments.getD []) e.file

/-- listed arguments that retargeting leaves alone, with no response file among them -/
inductive Settled (d : Drivers) : BuildStep → Prop where
  | intro (directory file : String) {args : List String} (output : Option String)
    (settled : Arguments.Settled d args) (plain : Response.Plain args) :
    Settled d ⟨directory, file, some args, none, output⟩

theorem argv_congr {i : Nat} {args : List String} (h : e.argv i = .ok args) (j : Nat) :
    e.argv j = .ok args := by
  unfold argv at h ⊢
  split at h
  · exact h
  · cases h
  · split at h
    · exact h
    · cases h

theorem Expands.unique {as bs : List String} (ha : e.Expands read as) (hb : e.Expands read bs) :
    as = bs := by
  obtain ⟨i, args, hargs, hexp⟩ := ha
  obtain ⟨j, args', hargs', hexp'⟩ := hb
  cases (argv_congr hargs j).symm.trans hargs'
  exact Except.ok.inj (hexp.symm.trans hexp')

end BuildStep

namespace Drivers

variable {d : Drivers} {read : ReadBytes} {es : List BuildStep} {r : Retargeted}

theorem isAction_retargetStep (hd : d.Stable) (e : BuildStep) (argv : List String) :
    (d.retargetStep e argv).isAction = (Arguments.asksToCompile argv && isSourceFile e.file) := by
  rw [← Arguments.any_compileFlag_retarget hd]
  rfl

/-! ## the second pass -/

theorem settled_retargeted (hd : d.Stable) (h : d.retarget read es = .ok r) :
    ∀ e ∈ r.entries, e.Settled d := by
  intro e he
  obtain ⟨given, -, argv, ⟨-, args, -, hexp⟩, hc, rfl⟩ := mem_retargeted h he
  rw [compiles, Bool.and_eq_true] at hc
  exact .intro _ _ _ (Arguments.settled_retarget hd (Arguments.retarget_ne_nil d hc.1))
    (Arguments.plain_retarget hd (Response.plain_expand hexp))

theorem prepare_settled {e : BuildStep} (he : e.Settled d) (i : Nat) :
    d.prepare read i e = .ok (Option.guard BuildStep.isAction e) := by
  cases he with
  | @intro directory file args output hs hp =>
    have hexp : Response.expand read directory args = .ok args :=
      Response.replace_of_names hp _
    have hne : args ≠ [] := by
      cases hs
      exact List.cons_ne_nil _ _
    refine prepare_eq_ok.2 ⟨args, args, rfl, hexp, hne, ?_⟩
    rw [retargetStep, hs.retarget_eq]
    rfl

theorem prepareFrom_settled (hes : ∀ e ∈ es, e.Settled d) :
    ∀ i, d.prepareFrom read i es = .ok (es.map (Option.guard BuildStep.isAction)) := by
  induction es with
  | nil => exact fun _ => rfl
  | cons e es ih =>
    obtain ⟨he, hes⟩ := List.forall_mem_cons.1 hes
    exact fun i => prepareFrom_cons_eq_ok.2 ⟨_, _, prepare_settled he i, ih hes (i + 1), rfl⟩

theorem retarget_settled (hes : ∀ e ∈ es, e.Settled d)
    (hnodup : (es.map BuildStep.action).Nodup) :
    d.retarget read es =
      .ok ⟨es.filter BuildStep.isAction, es.countP (!BuildStep.isAction ·), 0⟩ := by
  have hactions : (es.map (Option.guard BuildStep.isAction)).filterMap id =
      es.filter BuildStep.isAction := by
    rw [List.filterMap_map, Function.id_comp, List.filterMap_eq_filter]
  have hkept : firstOfEach BuildStep.action (es.filter BuildStep.isAction) =
      es.filter BuildStep.isAction :=
    firstOfEach_eq_self _ (hnodup.sublist (List.filter_sublist.map _))
  have hcount := es.length_eq_countP_add_countP BuildStep.isAction
  rw [retarget, prepareFrom_settled hes]
  show Except.ok _ = _
  rw [hactions, hkept, List.length_map, ← List.countP_eq_length_filter, Nat.sub_self]
  congr 2
  simp only [Bool.not_eq_true, Bool.decide_eq_false] at hcount
  omega

/-- a second pass fails nowhere and keeps what is a compile action still -/
theorem retarget_retargeted (hd : d.Stable) (h : d.retarget read es = .ok r) (read' : ReadBytes) :
    d.retarget read' r.entries =
      .ok ⟨r.entries.filter BuildStep.isAction, r.entries.countP (!BuildStep.isAction ·), 0⟩ :=
  retarget_settled (settled_retargeted hd h) (nodup_actions h)

theorem exists_prepared {es : List BuildStep} :
    ∀ {index : Nat} {ps : List (Option BuildStep)}, d.prepareFrom read index es = .ok ps →
      ∀ e ∈ es, ∃ i, ∃ p ∈ ps, d.prepare read i e = .ok p := by
  induction es with
  | nil =>
    intro index ps h e he
    cases he
  | cons e es ih =>
    intro index ps h f hf
    obtain ⟨q, rest, hq, hrest, rfl⟩ := prepareFrom_cons_eq_ok.1 h
    rcases List.mem_cons.1 hf with rfl | hf
    · exact ⟨index, q, List.mem_cons_self, hq⟩
    · obtain ⟨i, p, hp, hi⟩ := ih hrest f hf
      exact ⟨i, p, List.mem_cons_of_mem _ hp, hi⟩

/-- for every compile action there is an entry that does the same -/
theorem action_mem_retargeted (h : d.retarget read es = .ok r) {e : BuildStep} (he : e ∈ es)
    {argv : List String} (hexp : e.Expands read argv) (hc : compiles argv e.file = true) :
    (d.retargetStep e argv).action ∈ r.entries.map BuildStep.action := by
  obtain ⟨ps, hps, hr⟩ := retarget_eq_ok h
  obtain ⟨i, p, hp, hprep⟩ := exists_prepared hps e he
  obtain ⟨args, argv', hargs, hexp', -, rfl⟩ := prepare_eq_ok.1 hprep
  cases BuildStep.Expands.unique ⟨i, args, hargs, hexp'⟩ hexp
  rw [if_pos hc] at hp
  rw [hr, mem_keys_firstOfEach]
  exact List.mem_map_of_mem (List.mem_filterMap.2 ⟨_, hp, rfl⟩)

/-- every entry is a compile action still exactly when each compile action has a flag of its own -/
theorem forall_isAction_iff (hd : d.Stable) (h : d.retarget read es = .ok r) :
    (∀ e ∈ r.entries, e.isAction = true) ↔ ∀ e ∈ es, ∀ argv, e.Expands read argv →
      compiles argv e.file = true → Arguments.asksToCompile argv = true := by
  constructor
  · intro hall e he argv hexp hc
    obtain ⟨f, hf, hact⟩ := List.mem_map.1 (action_mem_retargeted h he hexp hc)
    have hfile : f.file = e.file := congrArg (·.2.1) hact
    have hargs : f.arguments = some (Arguments.retarget d argv) := congrArg (·.2.2) hact
    have hf' := hall f hf
    rw [BuildStep.isAction, hargs, hfile, Option.getD_some, compiles, Bool.and_eq_true,
      Arguments.any_compileFlag_retarget hd] at hf'
    exact hf'.1
  · intro hall e he
    obtain ⟨given, hgiven, argv, hexp, hc, rfl⟩ := mem_retargeted h he
    have hsource : isSourceFile given.file = true := ((Bool.and_eq_true _ _).mp hc).2
    rw [isAction_retargetStep hd, hall given hgiven argv hexp hc, hsource]
    rfl

end Drivers

theorem second_pass_iff {read : ReadBytes} {es : List BuildStep} {r : Retargeted}
    (h : ({} : Drivers).retarget read es = .ok r) (read' : ReadBytes) :
    ({} : Drivers).retarget read' r.entries =
        .ok ⟨r.entries.filter BuildStep.isAction, r.entries.countP (!BuildStep.isAction ·), 0⟩ ∧
      ((∀ e ∈ r.entries, e.isAction = true) ↔ ∀ e ∈ es, ∀ argv, e.Expands read argv →
        compiles argv e.file = true → Arguments.asksToCompile argv = true) ∧
      (({} : Drivers).retarget read' r.entries = .ok ⟨r.entries, 0, 0⟩ ↔
        ∀ e ∈ r.entries, e.isAction = true) := by
  have hagain := Drivers.retarget_retargeted Drivers.stable_default h read'
  refine ⟨hagain, Drivers.forall_isAction_iff Drivers.stable_default h, ?_⟩
  rw [hagain, Except.ok.injEq, Retargeted.mk.injEq, List.filter_eq_self, List.countP_eq_zero]
  simp

/-- a launcher, flags with values, and a response file that holds the compile flag -/
def nestedSteps : List BuildStep :=
  [⟨"/b", "a.c", none, some "ccache gcc -MF a.d -MQ -c @flags a.c", none⟩,
   ⟨"/b", "a.o", none, some "gcc a.o -o app", none⟩]

def flagsOnly : ReadBytes := fun path =>
  if path = "/b/flags" then .ok (Text.Utf8.encode "--param x -c".toList) else .error .notFound

theorem second_pass_iff_nestedSteps :
    ∃ r, ({} : Drivers).retarget flagsOnly nestedSteps = .ok r ∧
      r.entries = [⟨"/b", "a.c", some ["clang", "-c", "a.c"], none, none⟩] ∧
      ({} : Drivers).retarget (fun _ => .error .notFound) r.entries = .ok ⟨r.entries, 0, 0⟩ := by
  have hr : ({} : Drivers).retarget flagsOnly nestedSteps =
      .ok ⟨[⟨"/b", "a.c", some ["clang", "-c", "a.c"], none, none⟩], 1, 0⟩ := by decide +kernel
  exact ⟨_, hr, rfl, (second_pass_iff hr _).2.2.2 (by decide +kernel)⟩

/-- its only compile flag is the value of another flag -/
def swallowedFlag : List BuildStep := [⟨"/b", "a.c", none, some "gcc -MF -c a.c", none⟩]

theorem second_pass_drops_swallowedFlag :
    ({} : Drivers).retarget (fun _ => .error .notFound) swallowedFlag =
        .ok ⟨[⟨"/b", "a.c", some ["clang", "a.c"], none, none⟩], 0, 0⟩ ∧
      ({} : Drivers).retarget (fun _ => .error .notFound)
        [⟨"/b", "a.c", some ["clang", "a.c"], none, none⟩] = .ok ⟨[], 1, 0⟩ := by
  decide +kernel

end Triage
