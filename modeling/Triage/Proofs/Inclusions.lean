import Triage.Proofs.SecondPass

/-!
# What response files stand for

An argument that names a file stands for the words of the file, so arguments with the files below
them are a forest.

* `Response.Forest`          arguments in order, each file with the forest of its words; `leaves` are
                             the plain arguments from left to right, `depth` is how many files stand
                             one inside the other;
* `Forest.Grown`             the words are those that the files hold; there is at most one such
                             forest for given arguments (`Grown.unique`);
* `expandWithin_eq_ok`       arguments expand to the leaves of their forest, if it is not too deep;
* `Response.Chain`           files named one in the other; in a forest such a chain is no longer than
                             its depth and meets no file twice (`Grown.along`);
* `exists_forest`            files that can all be read, in chains that are all short, make a forest;
* `expandWithin_eq_error`    an expansion that fails does so at the end of a chain;
* `expansion_of_files`       so arguments expand exactly when every file within reach can be read
                             and no chain is longer than eight files.
-/

namespace Triage.Response

theorem name?_eq_some_iff {arg name : String} :
    name? arg = some name ↔ name ≠ "" ∧ arg = "@" ++ name := by
  have hat : ∀ cs : List Char, String.ofList ('@' :: cs) = "@" ++ String.ofList cs := fun cs =>
    String.toList_inj.1 (by simp)
  unfold name?
  split
  · next c cs harg =>
    have hfull : arg = "@" ++ String.ofList (c :: cs) := by
      rw [← hat, ← harg, String.ofList_toList]
    rw [Option.some.injEq]
    constructor
    · rintro rfl
      refine ⟨fun h => ?_, hfull⟩
      have := congrArg String.toList h
      simp at this
    · rintro ⟨-, h⟩
      have := congrArg String.toList (hfull.symm.trans h)
      simpa [← String.toList_inj] using this
  · next hne =>
    refine ⟨nofun, fun ⟨hname, harg⟩ => ?_⟩
    cases hcs : name.toList with
    | nil => exact absurd (String.toList_inj.1 (by simpa using hcs)) hname
    | cons c cs => exact absurd (by rw [harg, String.toList_append, hcs]; rfl) (hne c cs)

/-! ## the words of a file -/

/-- the file can be read, and its text splits into these words -/
def Holds (read : ReadBytes) (path : String) (ws : List String) : Prop :=
  ∃ text, loadText read path = .ok text ∧ Shell.split text = some ws

theorem words_eq_ok {read : ReadBytes} {path : String} {ws : List String} :
    words read path = .ok ws ↔ Holds read path ws := by
  unfold words Holds
  cases loadText read path with
  | error e => exact ⟨nofun, fun ⟨_, h, _⟩ => nomatch h⟩
  | ok text =>
    dsimp only
    cases hsplit : Shell.split text with
    | none =>
      refine ⟨nofun, fun ⟨_, h, hs⟩ => ?_⟩
      cases h
      exact nomatch hsplit.symm.trans hs
    | some us =>
      constructor
      · intro h
        cases h
        exact ⟨text, rfl, hsplit⟩
      · rintro ⟨_, h, hs⟩
        cases h
        exact congrArg Except.ok (Option.some.inj (hsplit.symm.trans hs))

theorem Holds.unique {read : ReadBytes} {path : String} {us ws : List String}
    (hu : Holds read path us) (hw : Holds read path ws) : us = ws :=
  Except.ok.inj ((words_eq_ok.2 hu).symm.trans (words_eq_ok.2 hw))

/-! ## forests of arguments -/

/-- arguments in order, each response file among them with what its words stand for -/
inductive Forest where
  | nil
  | leaf (arg : String) (rest : Forest)
  | file (name : String) (words rest : Forest)
deriving DecidableEq, Repr

namespace Forest

/-- the arguments as they are given -/
def roots : Forest → List String
  | nil => []
  | leaf arg rest => arg :: rest.roots
  | file name _ rest => ("@" ++ name) :: rest.roots

/-- the plain arguments, from left to right -/
def leaves : Forest → List String
  | nil => []
  | leaf arg rest => arg :: rest.leaves
  | file _ words rest => words.leaves ++ rest.leaves

/-- how many files stand one inside the other -/
def depth : Forest → Nat
  | nil => 0
  | leaf _ rest => rest.depth
  | file _ words rest => max (words.depth + 1) rest.depth

/-- every leaf is a plain argument, and below every file stands what it holds -/
inductive Grown (read : ReadBytes) (dir : String) : Forest → Prop
  | nil : Grown read dir nil
  | leaf {arg : String} {rest : Forest} (plain : name? arg = none) (hrest : Grown read dir rest) :
      Grown read dir (leaf arg rest)
  | file {name : String} {words rest : Forest} (named : name ≠ "")
      (holds : Holds read (Path.join dir name) words.roots) (hwords : Grown read dir words)
      (hrest : Grown read dir rest) : Grown read dir (file name words rest)

end Forest

variable {read : ReadBytes} {dir : String}

theorem name?_at {name : String} (named : name ≠ "") : name? ("@" ++ name) = some name :=
  name?_eq_some_iff.2 ⟨named, rfl⟩

theorem at_injective {name name' : String} (h : "@" ++ name = "@" ++ name') : name = name' := by
  have := congrArg String.toList h
  simpa [String.toList_inj] using this

namespace Forest

theorem Grown.unique {t u : Forest} (ht : t.Grown read dir) (hu : u.Grown read dir)
    (h : t.roots = u.roots) : t = u := by
  induction ht generalizing u with
  | nil =>
    cases hu with
    | nil => rfl
    | leaf => cases h
    | file => cases h
  | @leaf arg rest plain _ ih =>
    cases hu with
    | nil => cases h
    | leaf _ hrest =>
      obtain ⟨rfl, hroots⟩ := List.cons.inj h
      rw [ih hrest hroots]
    | file named =>
      have harg := (List.cons.inj h).1
      rw [harg, name?_at named] at plain
      cases plain
  | @file name words rest named holds _ _ ihwords ihrest =>
    cases hu with
    | nil => cases h
    | leaf plain =>
      have harg := (List.cons.inj h).1
      rw [← harg, name?_at named] at plain
      cases plain
    | file _ holds' hwords' hrest' =>
      obtain ⟨hname, hroots⟩ := List.cons.inj h
      cases at_injective hname
      rw [ihwords hwords' (holds.unique holds'), ihrest hrest' hroots]

end Forest

/-! ## expansion is reading off the leaves -/

/-- if files stand for the leaves of forests, so do arguments -/
theorem replace_eq_ok {f : String → Except BuildFault (List String)} {levels : Nat}
    (hf : ∀ name ws, f name = .ok ws ↔ ∃ t : Forest, Holds read (Path.join dir name) t.roots ∧
      t.Grown read dir ∧ t.depth < levels ∧ t.leaves = ws) {args out : List String} :
    replace f args = .ok out ↔
      ∃ t : Forest, t.roots = args ∧ t.Grown read dir ∧ t.depth ≤ levels ∧ t.leaves = out := by
  constructor
  · intro h
    induction args generalizing out with
    | nil =>
      cases h
      exact ⟨.nil, rfl, .nil, Nat.zero_le _, rfl⟩
    | cons a as ih =>
      cases hname : name? a with
      | none =>
        obtain ⟨rest, hrest, rfl⟩ := (replace_cons_of_plain hname as out).1 h
        obtain ⟨t, rfl, hgrown, hdepth, rfl⟩ := ih hrest
        exact ⟨.leaf a t, rfl, .leaf hname hgrown, hdepth, rfl⟩
      | some name =>
        obtain ⟨ws, rest, hws, hrest, rfl⟩ := (replace_cons_of_named hname as out).1 h
        obtain ⟨t, rfl, hgrown, hdepth, rfl⟩ := ih hrest
        obtain ⟨words, holds, hwords, hbelow, rfl⟩ := (hf name ws).1 hws
        obtain ⟨named, rfl⟩ := name?_eq_some_iff.1 hname
        exact ⟨.file name words t, rfl, .file named holds hwords hgrown,
          max_le hbelow hdepth, rfl⟩
  · rintro ⟨t, rfl, hgrown, hdepth, rfl⟩
    induction hgrown with
    | nil => rfl
    | @leaf arg rest plain _ ih =>
      exact (replace_cons_of_plain plain _ _).2 ⟨_, ih hdepth, rfl⟩
    | @file name words rest named holds hwords _ _ ih =>
      obtain ⟨hbelow, hrest⟩ := max_le_iff.1 hdepth
      exact (replace_cons_of_named (name?_at named) _ _).2
        ⟨_, _, (hf name _).2 ⟨words, holds, hwords, hbelow, rfl⟩, ih hrest, rfl⟩

theorem expandWithin_eq_ok {levels : Nat} {args out : List String} :
    expandWithin read dir levels args = .ok out ↔
      ∃ t : Forest, t.roots = args ∧ t.Grown read dir ∧ t.depth ≤ levels ∧ t.leaves = out := by
  induction levels generalizing args out with
  | zero =>
    refine replace_eq_ok fun name ws => ⟨fun h => ?_, fun ⟨t, _, _, h, _⟩ => ?_⟩
    · cases h
    · exact absurd h (Nat.not_lt_zero t.depth)
  | succ levels ih =>
    refine replace_eq_ok fun name ws => ?_
    constructor
    · intro h
      obtain ⟨inner, hinner, h⟩ := exists_of_bind_eq_ok h
      obtain ⟨t, rfl, hgrown, hdepth, hleaves⟩ := ih.1 h
      exact ⟨t, words_eq_ok.1 hinner, hgrown, Nat.lt_succ_of_le hdepth, hleaves⟩
    · rintro ⟨t, holds, hgrown, hdepth, hleaves⟩
      rw [words_eq_ok.2 holds]
      exact ih.2 ⟨t, rfl, hgrown, Nat.le_of_lt_succ hdepth, hleaves⟩

/-! ## chains of files -/

/-- one of the arguments names the file -/
def Names (dir : String) (args : List String) (path : String) : Prop :=
  ∃ name, name ≠ "" ∧ "@" ++ name ∈ args ∧ path = Path.join dir name

/-- Files of which the arguments name the first, and each the next; the last need not be there. -/
inductive Chain (read : ReadBytes) (dir : String) : List String → List String → Prop
  | last {args : List String} {path : String} (names : Names dir args path) :
      Chain read dir args [path]
  | more {args ws chain : List String} {path : String} (names : Names dir args path)
      (holds : Holds read path ws) (rest : Chain read dir ws chain) :
      Chain read dir args (path :: chain)

theorem Names.cons {args : List String} {path : String} (h : Names dir args path) (a : String) :
    Names dir (a :: args) path := by
  obtain ⟨name, named, hmem, rfl⟩ := h
  exact ⟨name, named, List.mem_cons_of_mem a hmem, rfl⟩

namespace Forest

/-- below every file that is named stands a forest that is less deep -/
theorem Grown.under {t : Forest} (ht : t.Grown read dir) {path : String}
    (h : Names dir t.roots path) :
    ∃ u : Forest, Holds read path u.roots ∧ u.Grown read dir ∧ u.depth < t.depth := by
  obtain ⟨name, named, hmem, rfl⟩ := h
  induction ht with
  | nil => cases hmem
  | @leaf arg rest plain _ ih =>
    rcases List.mem_cons.1 hmem with rfl | hmem
    · rw [name?_at named] at plain
      cases plain
    · exact ih hmem
  | @file name' words rest _ holds hwords _ _ ih =>
    rcases List.mem_cons.1 hmem with hat | hmem
    · cases at_injective hat
      exact ⟨words, holds, hwords, Nat.lt_of_succ_le (le_max_left _ _)⟩
    · obtain ⟨u, hu, hgrown, hlt⟩ := ih hmem
      exact ⟨u, hu, hgrown, lt_max_of_lt_right hlt⟩

/-- A chain goes down in the forest: every file on it holds what stands below it, and no file is met
twice. -/
theorem Grown.along {t : Forest} (ht : t.Grown read dir) {chain : List String}
    (h : Chain read dir t.roots chain) :
    (∀ path ∈ chain, ∃ u : Forest, Holds read path u.roots ∧ u.Grown read dir ∧
      u.depth < t.depth) ∧ chain.length ≤ t.depth ∧ chain.Nodup := by
  generalize hargs : t.roots = args at h
  induction h generalizing t with
  | @last args path names =>
    subst hargs
    obtain ⟨u, hu, hgrown, hlt⟩ := ht.under names
    exact ⟨List.forall_mem_singleton.2 ⟨u, hu, hgrown, hlt⟩, Nat.one_le_of_lt hlt,
      List.nodup_singleton path⟩
  | @more args ws chain path names holds _ ih =>
    subst hargs
    obtain ⟨u, hu, hgrown, hlt⟩ := ht.under names
    obtain ⟨hbelow, hlength, hnodup⟩ := ih hgrown (hu.unique holds)
    refine ⟨List.forall_mem_cons.2 ⟨⟨u, hu, hgrown, hlt⟩, fun p hp => ?_⟩, ?_, ?_⟩
    · obtain ⟨v, hv, hv', hdepth⟩ := hbelow p hp
      exact ⟨v, hv, hv', hdepth.trans hlt⟩
    · exact (Nat.succ_le_succ hlength).trans hlt
    · -- the forest below a second place of the file would be the one that it stands in
      refine List.nodup_cons.2 ⟨fun hp => ?_, hnodup⟩
      obtain ⟨v, hv, hv', hdepth⟩ := hbelow path hp
      cases hv'.unique hgrown (hv.unique hu)
      exact hdepth.false

end Forest

/-- arguments whose files all have forests have a forest -/
theorem exists_forest_of_files {levels : Nat} {args : List String}
    (h : ∀ path, Names dir args path →
      ∃ t : Forest, Holds read path t.roots ∧ t.Grown read dir ∧ t.depth < levels) :
    ∃ t : Forest, t.roots = args ∧ t.Grown read dir ∧ t.depth ≤ levels := by
  induction args with
  | nil => exact ⟨.nil, rfl, .nil, Nat.zero_le _⟩
  | cons a as ih =>
    obtain ⟨rest, rfl, hrest, hdepth⟩ := ih fun path hp => h path (hp.cons a)
    cases hname : name? a with
    | none => exact ⟨.leaf a rest, rfl, .leaf hname hrest, hdepth⟩
    | some name =>
      obtain ⟨named, rfl⟩ := name?_eq_some_iff.1 hname
      obtain ⟨t, holds, hgrown, hlt⟩ := h _ ⟨name, named, List.mem_cons_self, rfl⟩
      exact ⟨.file name t rest, rfl, .file named holds hgrown hrest, max_le hlt hdepth⟩

theorem exists_forest {levels : Nat} {args : List String}
    (h : ∀ chain, Chain read dir args chain →
      chain.length ≤ levels ∧ ∀ path ∈ chain, ∃ ws, Holds read path ws) :
    ∃ t : Forest, t.roots = args ∧ t.Grown read dir ∧ t.depth ≤ levels := by
  induction levels generalizing args with
  | zero =>
    refine exists_forest_of_files fun path hp => ?_
    exact absurd (h [path] (.last hp)).1 (by simp)
  | succ levels ih =>
    refine exists_forest_of_files fun path hp => ?_
    obtain ⟨ws, hws⟩ := (h [path] (.last hp)).2 path List.mem_cons_self
    have hshort : ∀ chain, Chain read dir ws chain →
        chain.length ≤ levels ∧ ∀ p ∈ chain, ∃ ws, Holds read p ws := fun chain hc =>
      have hlong := h (path :: chain) (.more hp hws hc)
      ⟨Nat.le_of_succ_le_succ hlong.1, fun p hp => hlong.2 p (List.mem_cons_of_mem path hp)⟩
    obtain ⟨t, rfl, hgrown, hdepth⟩ := ih hshort
    exact ⟨t, hws, hgrown, Nat.lt_succ_of_le hdepth⟩

/-! ## expansions that fail -/

/-- why an expansion through so many levels stops at a file that so many others stand around -/
inductive Stops (read : ReadBytes) (levels around : Nat) (path : String) : BuildFault → Prop
  | tooDeep (h : around = levels) : Stops read levels around path (.responseDepth path maxDepth)
  | unreadable {e : FileError} (h : around < levels) (unread : loadText read path = .error e) :
      Stops read levels around path (.responseFile path (.unreadable e))
  | unbalanced {text : String} (h : around < levels) (loaded : loadText read path = .ok text)
      (open_ : Shell.split text = none) :
      Stops read levels around path (.responseFile path .unbalancedQuotes)

theorem words_eq_error {path : String} {fault : BuildFault} (h : words read path = .error fault)
    (levels : Nat) : Stops read (levels + 1) 0 path fault := by
  unfold words at h
  split at h
  · next e he =>
    cases h
    exact .unreadable (Nat.succ_pos levels) he
  · next text ht =>
    split at h
    · next hs =>
      cases h
      exact .unbalanced (Nat.succ_pos levels) ht hs
    · cases h

theorem Stops.deeper {levels around : Nat} {path : String} {fault : BuildFault}
    (h : Stops read levels around path fault) : Stops read (levels + 1) (around + 1) path fault := by
  cases h with
  | tooDeep h => exact .tooDeep (congrArg Nat.succ h)
  | unreadable h he => exact .unreadable (Nat.succ_lt_succ h) he
  | unbalanced h ht hs => exact .unbalanced (Nat.succ_lt_succ h) ht hs

/-- a replacement fails only where that of a file does -/
theorem exists_of_replace_eq_error {f : String → Except BuildFault (List String)}
    {args : List String} {fault : BuildFault} (h : replace f args = .error fault) :
    ∃ name, name ≠ "" ∧ "@" ++ name ∈ args ∧ f name = .error fault := by
  induction args with
  | nil => cases h
  | cons a as ih =>
    have later : replace f as = .error fault →
        ∃ name, name ≠ "" ∧ "@" ++ name ∈ a :: as ∧ f name = .error fault := fun h =>
      have ⟨name, named, hmem, hf⟩ := ih h
      ⟨name, named, List.mem_cons_of_mem a hmem, hf⟩
    rw [replace] at h
    split at h
    · cases hrest : replace f as with
      | error e => rw [hrest] at h; cases h; exact later hrest
      | ok rest => rw [hrest] at h; cases h
    · next name hname =>
      obtain ⟨named, rfl⟩ := name?_eq_some_iff.1 hname
      cases hf : f name with
      | error e => rw [hf] at h; cases h; exact ⟨name, named, List.mem_cons_self, hf⟩
      | ok ws =>
        rw [hf] at h
        cases hrest : replace f as with
        | error e => rw [hrest] at h; cases h; exact later hrest
        | ok rest => rw [hrest] at h; cases h

theorem expandWithin_eq_error {levels : Nat} {args : List String} {fault : BuildFault}
    (h : expandWithin read dir levels args = .error fault) :
    ∃ around path, Chain read dir args (around ++ [path]) ∧
      Stops read levels around.length path fault := by
  induction levels generalizing args with
  | zero =>
    obtain ⟨name, named, hmem, hf⟩ := exists_of_replace_eq_error h
    cases hf
    exact ⟨[], _, .last ⟨name, named, hmem, rfl⟩, .tooDeep rfl⟩
  | succ levels ih =>
    obtain ⟨name, named, hmem, hf⟩ := exists_of_replace_eq_error h
    have hnames : Names dir args (Path.join dir name) := ⟨name, named, hmem, rfl⟩
    cases hws : words read (Path.join dir name) with
    | error e =>
      rw [hws] at hf
      cases hf
      exact ⟨[], _, .last hnames, words_eq_error hws levels⟩
    | ok ws =>
      rw [hws] at hf
      obtain ⟨around, path, hchain, hstops⟩ := ih hf
      exact ⟨_ :: around, path, .more hnames (words_eq_ok.1 hws) hchain, hstops.deeper⟩

/-! ## what expansion does -/

theorem exists_expand_iff {args : List String} : (∃ out, expand read dir args = .ok out) ↔
    ∀ chain, Chain read dir args chain →
      chain.length ≤ 8 ∧ ∀ path ∈ chain, ∃ ws, Holds read path ws := by
  constructor
  · rintro ⟨out, h⟩ chain hchain
    obtain ⟨t, rfl, hgrown, hdepth, -⟩ := expandWithin_eq_ok.1 h
    obtain ⟨hbelow, hlength, -⟩ := hgrown.along hchain
    refine ⟨hlength.trans hdepth, fun path hp => ?_⟩
    obtain ⟨u, hu, -⟩ := hbelow path hp
    exact ⟨_, hu⟩
  · intro h
    obtain ⟨t, hroots, hgrown, hdepth⟩ := exists_forest h
    exact ⟨_, expandWithin_eq_ok.2 ⟨t, hroots, hgrown, hdepth, rfl⟩⟩

/-- a file that is met again on the way down stops the expansion -/
theorem exists_error_of_cycle {args chain : List String} (h : Chain read dir args chain)
    (hcycle : ¬ chain.Nodup) : ∃ fault, expand read dir args = .error fault := by
  cases hexp : expand read dir args with
  | error fault => exact ⟨fault, rfl⟩
  | ok out =>
    obtain ⟨t, rfl, hgrown, -⟩ := expandWithin_eq_ok.1 hexp
    exact absurd (hgrown.along h).2.2 hcycle

theorem expand_append {as bs xs ys : List String} (ha : expand read dir as = .ok xs)
    (hb : expand read dir bs = .ok ys) : expand read dir (as ++ bs) = .ok (xs ++ ys) := by
  unfold expand at ha hb ⊢
  rw [maxDepth, expandWithin] at ha hb ⊢
  rw [replace_append, ha, hb]
  rfl

theorem at_notMem_of_plain {out : List String} (h : Plain out) {name : String} (named : name ≠ "") :
    "@" ++ name ∉ out := fun hmem => by
  have hplain := h _ hmem
  rw [name?_at named] at hplain
  cases hplain

/-- Arguments expand to the leaves of their forest, of which there is one at most. They expand exactly
when every chain of files is short and each of its files holds words, so never through a cycle; what
fails does so at the end of a chain. What comes out names no file, and arguments may be expanded in
parts. -/
theorem expansion_of_files (read : ReadBytes) (dir : String) (args : List String) :
    (∀ out, expand read dir args = .ok out ↔
      ∃ t : Forest, t.roots = args ∧ t.Grown read dir ∧ t.depth ≤ 8 ∧ t.leaves = out) ∧
    (∀ t u : Forest, t.Grown read dir → u.Grown read dir → t.roots = u.roots → t = u) ∧
    ((∃ out, expand read dir args = .ok out) ↔ ∀ chain, Chain read dir args chain →
      chain.length ≤ 8 ∧ ∀ path ∈ chain, ∃ ws, Holds read path ws) ∧
    (∀ chain, Chain read dir args chain → ¬ chain.Nodup →
      ∃ fault, expand read dir args = .error fault) ∧
    (∀ fault, expand read dir args = .error fault → ∃ around path,
      Chain read dir args (around ++ [path]) ∧ Stops read 8 around.length path fault) ∧
    (∀ out, expand read dir args = .ok out →
      (∀ name, name ≠ "" → "@" ++ name ∉ out) ∧ expand read dir out = .ok out) ∧
    ∀ more xs ys, expand read dir args = .ok xs → expand read dir more = .ok ys →
      expand read dir (args ++ more) = .ok (xs ++ ys) := by
  refine ⟨fun out => expandWithin_eq_ok, fun t u ht hu => ht.unique hu, exists_expand_iff,
    fun chain => exists_error_of_cycle, fun fault => expandWithin_eq_error, fun out h => ?_,
    fun more xs ys => expand_append⟩
  have hplain : Plain out := plain_expand h
  exact ⟨fun name named => at_notMem_of_plain hplain named, replace_of_names hplain _⟩

/-- a file included twice, with another inside, and one that includes itself -/
def nestedFiles : ReadBytes := fun path =>
  if path = "/b/outer" then .ok (Text.Utf8.encode "@inner -c @/b/inner".toList)
  else if path = "/b/inner" then .ok (Text.Utf8.encode "-I 'a dir' @".toList)
  else if path = "/b/loop" then .ok (Text.Utf8.encode "@inner @loop".toList)
  else .error .notFound

theorem expansion_of_files_nestedFiles :
    expand nestedFiles "/b" (["gcc", "@outer"] ++ ["@inner"]) =
        .ok (["gcc", "-I", "a dir", "@", "-c", "-I", "a dir", "@"] ++ ["-I", "a dir", "@"]) ∧
      expand nestedFiles "/b" ["-I", "a dir", "@"] = .ok ["-I", "a dir", "@"] ∧
      (∃ fault, expand nestedFiles "/b" ["-v", "@loop"] = .error fault) ∧
      ∀ chain, Chain nestedFiles "/b" ["gcc", "@outer"] chain → chain.length ≤ 8 := by
  have houter : expand nestedFiles "/b" ["gcc", "@outer"] =
      .ok ["gcc", "-I", "a dir", "@", "-c", "-I", "a dir", "@"] := by decide +kernel
  have hinner : expand nestedFiles "/b" ["@inner"] = .ok ["-I", "a dir", "@"] := by
    decide +kernel
  have hloop : Holds nestedFiles "/b/loop" ["@inner", "@loop"] :=
    ⟨"@inner @loop", by decide +kernel, by decide +kernel⟩
  have hnames : ∀ a, Names "/b" [a, "@loop"] "/b/loop" := fun a =>
    ⟨"loop", by decide +kernel, List.mem_cons_of_mem a List.mem_cons_self, by decide +kernel⟩
  have hcycle : Chain nestedFiles "/b" ["-v", "@loop"] ["/b/loop", "/b/loop"] :=
    .more (hnames "-v") hloop (.last (hnames "@inner"))
  obtain ⟨-, -, hshort, -, -, -, happend⟩ := expansion_of_files nestedFiles "/b" ["gcc", "@outer"]
  obtain ⟨-, -, -, -, -, hagain, -⟩ := expansion_of_files nestedFiles "/b" ["@inner"]
  obtain ⟨-, -, -, hloops, -, -, -⟩ := expansion_of_files nestedFiles "/b" ["-v", "@loop"]
  exact ⟨happend _ _ _ houter hinner, (hagain _ hinner).2, hloops _ hcycle (by decide +kernel),
    fun chain hchain => (hshort.1 ⟨_, houter⟩ chain hchain).1⟩

end Triage.Response
