import Triage.Proofs.Retargeting

/-!
# What a check lets through

* `Complete item c`         a check takes an item for the complete entry `c`, as it does with every
                            item that has no error (`exists_complete`);
* `isRegular t`             no field of an entry stands twice, and its output, if any, is a text;
* `ofJson_of_complete`      such a record is read as a check sees it, and no other record is read
                            (`isRegular_of_ofJson`);
* `exists_retarget`         entries with arguments, none of which names a file, are retargeted;
* `checked_accepted_iff`    so a database without errors is read and retargeted exactly when its
                            records are regular.
-/

namespace Triage

open Json

/-! ## entries without errors -/

namespace Inspection

theorem isWarning_of_argv_eq_error {arguments command : Option Value} {p : Problem}
    (h : argv arguments command = .error p) : p.isWarning = false := by
  unfold argv at h
  split at h
  · cases h; rfl
  · cases h; rfl
  · split at h
    · cases h
    · cases h; rfl
  · split at h
    · cases h
    · cases h; rfl

theorem filledText?_eq_some {v : Option Value} {s : String} (h : filledText? v = some s) :
    v = some (.text s) := by
  unfold filledText? at h
  split at h
  · split at h
    · cases h
    · cases h; rfl
  · cases h

theorem listed?_eq_some {v : Value} {args : List String} (h : listed? v = some args) :
    args ≠ [] ∧ ∃ vs, v = .list vs ∧ vs.mapM Value.text? = some args := by
  unfold listed? at h
  split at h
  · next v vs =>
    rw [texts?_eq_mapM] at h
    refine ⟨?_, v :: vs, rfl, h⟩
    rintro rfl
    cases mapM_eq_some.1 h
  · cases h

theorem commandWords?_eq_some {v : Value} {args : List String} (h : commandWords? v = some args) :
    args ≠ [] ∧ ∃ s, v = .text s ∧ Shell.split s = some args := by
  unfold commandWords? at h
  split at h
  · next s =>
    obtain ⟨hs, hne⟩ := Option.filter_eq_some_iff.1 h
    exact ⟨of_decide_eq_true hne, s, rfl, hs⟩
  · cases h

/-- arguments come from one place, and there is at least one -/
theorem argv_eq_ok {arguments command : Option Value} {args : List String}
    (h : argv arguments command = .ok args) :
    args ≠ [] ∧
      ((∃ vs, arguments = some (.list vs) ∧ command = none ∧
          vs.mapM Value.text? = some args) ∨
        ∃ s, arguments = none ∧ command = some (.text s) ∧ Shell.split s = some args) := by
  unfold argv at h
  split at h
  · cases h
  · cases h
  · split at h
    · next hlisted =>
      cases h
      obtain ⟨hne, vs, rfl, hvs⟩ := listed?_eq_some hlisted
      exact ⟨hne, .inl ⟨vs, rfl, rfl, hvs⟩⟩
    · cases h
  · split at h
    · next hwords =>
      cases h
      obtain ⟨hne, s, rfl, hs⟩ := commandWords?_eq_some hwords
      exact ⟨hne, .inr ⟨s, rfl, rfl, hs⟩⟩
    · cases h

structure Complete (item : Value) (c : CompleteEntry) : Prop where
  record : item.isRecord = true
  found : (inspect item).2 = some c
  file : item.get? "file" = some (.text c.file)
  directory : item.get? "directory" = some (.text c.directory)
  argv : argv (item.get? "arguments") (item.get? "command") = .ok c.argv

theorem exists_complete {item : Value} (h : ∀ p ∈ (inspect item).1, p.isWarning = true) :
    ∃ c, Complete item c := by
  have herror : ∀ p, p.isWarning = false → p ∉ (inspect item).1 := fun p hp hmem => by
    rw [h p hmem] at hp
    cases hp
  cases hrec : item.isRecord with
  | false =>
    refine absurd ?_ (herror .notAnObject rfl)
    simp [inspect, hrec]
  | true =>
    cases hfile : filledText? (item.get? "file") with
    | none =>
      refine absurd ?_ (herror .missingFile rfl)
      simp [inspect, hrec, hfile]
    | some file =>
      cases hdir : filledText? (item.get? "directory") with
      | none =>
        refine absurd ?_ (herror .missingDirectory rfl)
        simp [inspect, hrec, hfile, hdir, directoryProblems]
      | some directory =>
        cases hargv : Inspection.argv (item.get? "arguments") (item.get? "command") with
        | error p =>
          refine absurd ?_ (herror p (isWarning_of_argv_eq_error hargv))
          simp [inspect, hrec, hfile, hdir, hargv, problemOf]
        | ok args =>
          exact ⟨⟨file, directory, args⟩, hrec, by simp [inspect, hrec, hfile, hdir, hargv],
            filledText?_eq_some hfile, filledText?_eq_some hdir, hargv⟩

theorem problems_of_entries {items : List Value} : ∀ {index : Nat} {seen : Seen},
    (∀ f ∈ entries index seen items, f.problem.isWarning = true) →
      ∀ item ∈ items, ∀ p ∈ (inspect item).1, p.isWarning = true := by
  induction items with
  | nil => intro index seen _ item hitem; cases hitem
  | cons item items ih =>
    intro index seen h
    rw [entries] at h
    rw [List.forall_mem_cons]
    refine ⟨fun p hp => ?_, ih fun f hf => h f (List.mem_append_right _ hf)⟩
    exact h ⟨some index, p⟩ (List.mem_append_left _
      (List.mem_map_of_mem (List.mem_append_left _ hp)))

/-- the arguments of the entries that a check of a text takes for complete -/
def argumentLists (raw : String) : List (List String) :=
  match Value.parse? raw with
  | some (.list items) => items.filterMap fun item => (inspect item).2.map (·.argv)
  | _ => []

/-- a check of the text finds no error, and no argument names a file to read -/
structure Passes (raw : String) : Prop where
  noError : ∃ v, Verdict.ofText? raw = some v ∧ v.errors = 0
  noFile : ∀ args ∈ argumentLists raw, ∀ a ∈ args, ∀ c cs, a.toList ≠ '@' :: c :: cs

end Inspection

/-! ## reading entries -/

namespace BuildStep

/-- null or a text -/
def isOptionalText : Term → Bool
  | .null | .text _ => true
  | _ => false

def fieldNames : List String := ["directory", "file", "arguments", "command", "output"]

/-- a record that gives no field of an entry twice, and no output but a text or null -/
def isRegular : Term → Bool
  | .record fields =>
    fieldNames.all (fun name => (fieldsNamed name fields).any (·.length ≤ 1)) &&
      (fieldsNamed "output" fields).all (·.all isOptionalText)
  | _ => false

variable {fields : List (List Piece × Term)}

theorem isRegular_record :
    isRegular (.record fields) = true ↔
      (∀ name ∈ fieldNames, ∃ ts, fieldsNamed name fields = some ts ∧ ts.length ≤ 1) ∧
        ∀ ts, fieldsNamed "output" fields = some ts → ∀ t ∈ ts, isOptionalText t = true := by
  simp [isRegular, Option.any_eq_true, Option.all_eq_true]

theorem columns_eq_some {directory file arguments command output : Option Term} :
    columns fieldNames (.record fields) = some [directory, file, arguments, command, output] ↔
      columnOf fields "directory" = some directory ∧ columnOf fields "file" = some file ∧
        columnOf fields "arguments" = some arguments ∧ columnOf fields "command" = some command ∧
          columnOf fields "output" = some output := by
  rw [columns, columnsOf_eq_mapM, mapM_eq_some]
  simp [fieldNames, List.forall₂_cons]

theorem orElse_readOption {α : Type} {r : Reader α} {t : Term} {a : α} (hnull : t ≠ .null)
    (h : r t = some a) : orElse (readOption r) none (some t) = some (some a) := by
  cases t with
  | null => exact absurd rfl hnull
  | _ => exact congrArg (Option.map some) h

theorem isOptionalText_of_readOption {t : Term} {o : Option String}
    (h : readOption readText t = some o) : isOptionalText t = true := by
  cases t with
  | null => rfl
  | text ps => rfl
  | _ => cases h

theorem isRegular_of_ofJson {e : BuildStep} (h : ofJson (.record fields) = some e) :
    isRegular (.record fields) = true := by
  unfold ofJson at h
  split at h
  · next directory file arguments command output hcols =>
    obtain ⟨-, -, -, -, hcolumn⟩ := columns_eq_some.1 hcols
    simp only [bind, Option.bind_eq_some_iff] at h
    obtain ⟨-, -, -, -, -, -, -, -, o, ho, -⟩ := h
    rw [columns, columnsOf_eq_mapM] at hcols
    refine isRegular_record.2 ⟨fun name hname => ?_, fun ts hts t ht => ?_⟩
    · obtain ⟨c, hc⟩ := exists_mapM.1 ⟨_, hcols⟩ name hname
      obtain ⟨ts, hts, hlen, -⟩ := columnOf_eq_some.1 hc
      exact ⟨ts, hts, hlen⟩
    · obtain ⟨us, hus, hlen, hhead⟩ := columnOf_eq_some.1 hcolumn
      cases hts.symm.trans hus
      obtain ⟨u, rfl⟩ := List.length_eq_one_iff.1
        (Nat.le_antisymm hlen (List.length_pos_of_mem ht))
      cases List.mem_singleton.1 ht
      rw [← hhead] at ho
      exact isOptionalText_of_readOption ho
  · cases h

section
variable {d : Nat} {out : List (String × Value)} (h : Term.fieldsWithin d fields [] = some out)
include h

theorem need_readText {name s : String} {c : Option Term} (hc : columnOf fields name = some c)
    (hs : Table.get? name out = some (.text s)) : need readText c = some s := by
  obtain ⟨t, rfl, hm⟩ := column_of_get? h hc hs
  exact readText_of_means hm

/-- the arguments and the command are read as a check sees them -/
theorem exists_argumentColumns {arguments command : Option Term} {args : List String}
    (harguments : columnOf fields "arguments" = some arguments)
    (hcommand : columnOf fields "command" = some command)
    (hargv : Inspection.argv (Table.get? "arguments" out) (Table.get? "command" out) = .ok args) :
    ∃ listed line, orElse (readOption (readList readText)) none arguments = some listed ∧
      orElse (readOption readText) none command = some line ∧
        ∀ e : BuildStep, e.arguments = listed → e.command = line → ∀ i, e.argv i = .ok args := by
  obtain ⟨-, ⟨vs, hlist, hnone, hvs⟩ | ⟨s, hnone, htext, hsplit⟩⟩ := Inspection.argv_eq_ok hargv
  · cases column_of_missing h hcommand hnone
    obtain ⟨t, rfl, hm⟩ := column_of_get? h harguments hlist
    refine ⟨some args, none, ?_, rfl, fun e hlisted _ i => by rw [argv, hlisted]⟩
    cases hm with
    | list hts => exact orElse_readOption nofun ((readAll_readText hts).trans hvs)
  · cases column_of_missing h harguments hnone
    obtain ⟨t, rfl, hm⟩ := column_of_get? h hcommand htext
    refine ⟨none, some s, rfl, ?_, fun e hlisted hline i => ?_⟩
    · have hread := readText_of_means hm
      cases hm with
      | text _ hcs => exact orElse_readOption nofun hread
    · simp only [argv, hlisted, hline, hsplit]

theorem exists_output {output : Option Term} (hcolumn : columnOf fields "output" = some output)
    (hr : isRegular (.record fields) = true) :
    ∃ o, orElse (readOption readText) none output = some o := by
  obtain ⟨ts, hts, -, rfl⟩ := columnOf_eq_some.1 hcolumn
  rcases columnOf_meaning h hcolumn with ⟨hnone, -⟩ | ⟨t, v, ht, hm, -⟩
  · rw [hnone]
    exact ⟨none, rfl⟩
  · rw [ht]
    have hread := readText_of_means hm
    have hoptional := (isRegular_record.1 hr).2 ts hts t (List.mem_of_mem_head? ht)
    cases hm with
    | null => exact ⟨none, rfl⟩
    | text _ hcs => exact ⟨_, orElse_readOption nofun hread⟩
    | _ => cases hoptional

/-- a regular record is read as the entry that a check sees -/
theorem ofJson_of_complete {c : CompleteEntry} (hc : Inspection.Complete (.record out) c)
    (hr : isRegular (.record fields) = true) :
    ∃ e, ofJson (.record fields) = some e ∧ e.directory = c.directory ∧ e.file = c.file ∧
      ∀ i, e.argv i = .ok c.argv := by
  have hcolumn : ∀ name ∈ fieldNames, ∃ column, columnOf fields name = some column := by
    intro name hname
    obtain ⟨ts, hts, hlen⟩ := (isRegular_record.1 hr).1 name hname
    exact ⟨_, columnOf_eq_some.2 ⟨ts, hts, hlen, rfl⟩⟩
  obtain ⟨directory, hdirectory⟩ := hcolumn "directory" (by decide)
  obtain ⟨file, hfile⟩ := hcolumn "file" (by decide)
  obtain ⟨arguments, harguments⟩ := hcolumn "arguments" (by decide)
  obtain ⟨command, hcommand⟩ := hcolumn "command" (by decide)
  obtain ⟨output, houtput⟩ := hcolumn "output" (by decide)
  have hcols := columns_eq_some.2 ⟨hdirectory, hfile, harguments, hcommand, houtput⟩
  obtain ⟨listed, line, hlisted, hline, hargv⟩ :=
    exists_argumentColumns h harguments hcommand hc.argv
  obtain ⟨o, ho⟩ := exists_output h houtput hr
  refine ⟨⟨c.directory, c.file, listed, line, o⟩, ?_, rfl, rfl, hargv _ rfl rfl⟩
  rw [fieldNames] at hcols
  rw [ofJson, hcols]
  simp only [need_readText h hdirectory hc.directory, need_readText h hfile hc.file, hlisted, hline,
    ho, bind, Option.bind_some]

end

end BuildStep

/-! ## retargeting what was read -/

theorem Response.replace_of_names {args : List String} (h : ∀ a ∈ args, name? a = none)
    (f : String → Except BuildFault (List String)) : replace f args = .ok args := by
  induction args with
  | nil => rfl
  | cons a as ih =>
    rw [replace, h a List.mem_cons_self, ih fun b hb => h b (List.mem_cons_of_mem _ hb)]
    rfl

theorem Response.name?_eq_none_iff {a : String} :
    name? a = none ↔ ∀ c cs, a.toList ≠ '@' :: c :: cs := by
  unfold name?
  split
  · next c cs ha => exact ⟨nofun, fun h => absurd ha (h c cs)⟩
  · next hne => exact ⟨fun _ => hne, fun _ => rfl⟩

namespace Drivers

variable {d : Drivers} {read : ReadBytes}

/-- entries that can each be prepared can be retargeted together -/
theorem exists_retarget {es : List BuildStep}
    (h : ∀ e ∈ es, ∀ i, ∃ p, d.prepare read i e = .ok p) : ∃ r, d.retarget read es = .ok r := by
  have hall : ∀ index, ∃ ps, d.prepareFrom read index es = .ok ps := by
    induction es with
    | nil => exact fun index => ⟨[], rfl⟩
    | cons e es ih =>
      intro index
      obtain ⟨p, hp⟩ := h e List.mem_cons_self index
      obtain ⟨ps, hps⟩ := ih (fun e he => h e (List.mem_cons_of_mem _ he)) (index + 1)
      exact ⟨p :: ps, prepareFrom_cons_eq_ok.2 ⟨p, ps, hp, hps, rfl⟩⟩
  obtain ⟨ps, hps⟩ := hall 0
  rw [retarget, hps]
  exact ⟨_, rfl⟩

theorem exists_prepare {e : BuildStep} {i : Nat} {args : List String} (hargs : e.argv i = .ok args)
    (hne : args ≠ []) (hplain : ∀ a ∈ args, Response.name? a = none) :
    ∃ p, d.prepare read i e = .ok p :=
  ⟨_, prepare_eq_ok.2 ⟨args, args, hargs, Response.replace_of_names hplain _, hne, rfl⟩⟩

end Drivers

/-! ## databases without errors -/

/-- the terms of a database that passes are records, and complete entries to a check -/
theorem Inspection.Passes.exists_complete {raw : String} (h : Passes raw) :
    ∃ terms, Term.parse? raw = some (.list terms) ∧ ∀ t ∈ terms, ∃ fields out c,
      t = .record fields ∧ Term.fieldsWithin 125 fields [] = some out ∧
        Complete (.record out) c ∧ c.argv ∈ argumentLists raw := by
  obtain ⟨v, hv, hpass⟩ := h.noError
  obtain ⟨value, hvalue, rfl⟩ := Option.map_eq_some_iff.1 hv
  have hwarnings : ∀ f ∈ Inspection.findings value, f.problem.isWarning = true :=
    (Verdict.hasErrors_eq_false_iff (.ofValue value)).1 (by rw [Verdict.hasErrors, hpass]; rfl)
  obtain ⟨term, hterm, hmeaning⟩ := Option.bind_eq_some_iff.1 hvalue
  unfold Inspection.findings at hwarnings
  split at hwarnings
  · next items =>
    cases Term.means_of_valueWithin hmeaning with
    | @list _ terms _ hterms =>
    rw [Term.valuesWithin_eq_mapM] at hterms
    refine ⟨terms, hterm, fun t ht => ?_⟩
    obtain ⟨item, hitem, hm⟩ := image_of_mapM hterms ht
    obtain ⟨c, hc⟩ := Inspection.exists_complete
      (Inspection.problems_of_entries hwarnings item hitem)
    have hargs : c.argv ∈ Inspection.argumentLists raw := by
      rw [Inspection.argumentLists, hvalue]
      exact List.mem_filterMap.2 ⟨item, hitem, by rw [hc.found]; rfl⟩
    cases Term.means_of_valueWithin hm with
    | @record _ fields out hout => exact ⟨fields, out, c, rfl, hout, hc, hargs⟩
    | _ => cases hc.record
  · cases hwarnings _ (List.mem_singleton_self _)

theorem checked_accepted_iff {raw : String} (h : Inspection.Passes raw) :
    ∃ terms, Term.parse? raw = some (.list terms) ∧
      ((∃ es, BuildStep.parseAll? raw = some es ∧
          ∀ (d : Drivers) (read : ReadBytes), ∃ r, d.retarget read es = .ok r) ↔
        ∀ t ∈ terms, BuildStep.isRegular t = true) := by
  obtain ⟨terms, hterms, hcomplete⟩ := h.exists_complete
  have hread : BuildStep.parseAll? raw = terms.mapM BuildStep.ofJson := by
    rw [BuildStep.parseAll?, parseAs?, hterms, Option.bind_some, readList, readAll_eq_mapM]
  refine ⟨terms, hterms, ?_⟩
  rw [hread]
  constructor
  · rintro ⟨es, hes, -⟩ t ht
    obtain ⟨fields, -, -, rfl, -⟩ := hcomplete t ht
    obtain ⟨e, -, he⟩ := image_of_mapM hes ht
    exact BuildStep.isRegular_of_ofJson he
  · intro hregular
    have hentry : ∀ t ∈ terms, ∃ e, BuildStep.ofJson t = some e ∧
        ∃ args ∈ Inspection.argumentLists raw, args ≠ [] ∧ ∀ i, e.argv i = .ok args := by
      intro t ht
      obtain ⟨fields, out, c, rfl, hout, hc, hargs⟩ := hcomplete t ht
      obtain ⟨e, he, -, -, hargv⟩ := BuildStep.ofJson_of_complete hout hc (hregular _ ht)
      exact ⟨e, he, c.argv, hargs, (Inspection.argv_eq_ok hc.argv).1, hargv⟩
    obtain ⟨es, hes⟩ := exists_mapM.2 fun t ht => (hentry t ht).imp fun e he => he.1
    refine ⟨es, hes, fun d read => Drivers.exists_retarget fun e he i => ?_⟩
    obtain ⟨t, ht, hte⟩ := preimage_of_mapM hes he
    obtain ⟨e', he', args, hargs, hne, hargv⟩ := hentry t ht
    cases hte.symm.trans he'
    exact Drivers.exists_prepare (hargv i) hne fun a ha =>
      Response.name?_eq_none_iff.2 (h.noFile args hargs a ha)

theorem Inspection.passes_of_eval {raw : String}
    (herrors : (Verdict.ofText? raw).map Verdict.errors = some 0)
    (hnames : ∀ args ∈ argumentLists raw, ∀ a ∈ args, Response.name? a = none) : Passes raw :=
  ⟨Option.map_eq_some_iff.1 herrors, fun args hargs a ha =>
    Response.name?_eq_none_iff.1 (hnames args hargs a ha)⟩

/-- unknown fields may repeat and hold anything, an output may be null -/
def oddDatabase : String :=
  "[\x7b\"x\":[],\"directory\":\"b\",\"file\":\"a.c\",\"command\":\"cc -c a.c\",\"x\":5\x7d," ++
    "\x7b\"directory\":\"/b\",\"file\":\"a\",\"arguments\":[\"@\"],\"output\":null\x7d]"

theorem checked_accepted_iff_oddDatabase :
    Inspection.Passes oddDatabase ∧ ∃ es, BuildStep.parseAll? oddDatabase = some es ∧
      ∀ (d : Drivers) (read : ReadBytes), ∃ r, d.retarget read es = .ok r := by
  have hpasses : Inspection.Passes oddDatabase :=
    Inspection.passes_of_eval (by decide +kernel) (by decide +kernel)
  obtain ⟨terms, hterms, hiff⟩ := checked_accepted_iff hpasses
  have hregular : parseAs? (readList (some ∘ BuildStep.isRegular)) oddDatabase =
      some [true, true] := by decide +kernel
  rw [parseAs?, hterms, Option.bind_some, readList, readAll_eq_mapM] at hregular
  refine ⟨hpasses, hiff.2 fun t ht => ?_⟩
  obtain ⟨b, hb, hreg⟩ := image_of_mapM hregular ht
  rw [Option.some.inj hreg]
  simpa using hb

/-- an output that is no text -/
def numberedOutput : String :=
  "[\x7b\"directory\":\"/b\",\"file\":\"a.c\",\"command\":\"cc -c a.c\",\"output\":5\x7d]"

/-- a check takes the second name, a reader takes neither -/
def renamedFile : String :=
  "[\x7b\"directory\":\"/b\",\"file\":\"b.c\",\"file\":\"a.c\",\"command\":\"cc -c a.c\"\x7d]"

theorem checked_unreadable :
    (Inspection.Passes numberedOutput ∧ BuildStep.parseAll? numberedOutput = none) ∧
      Inspection.Passes renamedFile ∧ BuildStep.parseAll? renamedFile = none :=
  ⟨⟨Inspection.passes_of_eval (by decide +kernel) (by decide +kernel), by decide +kernel⟩,
    Inspection.passes_of_eval (by decide +kernel) (by decide +kernel), by decide +kernel⟩

end Triage
