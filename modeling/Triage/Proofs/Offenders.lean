import Triage.Proofs.Checked

/-!
# Duplicates and conflicts in a database

A check goes over the entries once and remembers the complete ones:

* `Describes item c`        the item is a record with a file, a directory and arguments from one
                            place (`inspect_eq_some_iff`);
* `FirstAt`, `FirstFor`     the first place of a complete entry, and of a source;
* `Recalls items seen`      what is remembered are the complete entries at their first places
                            (`recalls_remembered`, by one step for each item);
* `filter_findings`         the findings about one entry, from the entries before it;
* `first_offenders`         so each duplicate and each conflict is found once, against the first
                            entry that it repeats or contradicts.
-/

namespace Triage.Inspection

open Json (Value)

/-! ## complete entries -/

/-- the item has a file, a directory and arguments that come from one place -/
structure Describes (item : Value) (c : CompleteEntry) : Prop where
  record : item.isRecord = true
  file : item.get? "file" = some (.text c.file)
  filledFile : Text.isBlankText c.file = false
  directory : item.get? "directory" = some (.text c.directory)
  filledDirectory : Text.isBlankText c.directory = false
  filledArguments : c.argv ≠ []
  arguments :
    (item.get? "arguments" = some (Value.texts c.argv) ∧ item.get? "command" = none) ∨
      ∃ line, item.get? "arguments" = none ∧ item.get? "command" = some (.text line) ∧
        Shell.split line = some c.argv

theorem filledText?_eq_some_iff {v : Option Value} {s : String} :
    filledText? v = some s ↔ v = some (.text s) ∧ Text.isBlankText s = false := by
  constructor
  · intro h
    have hv := filledText?_eq_some h
    refine ⟨hv, ?_⟩
    rw [hv, filledText?] at h
    split at h
    · cases h
    · next hblank => exact Bool.eq_false_iff.2 hblank
  · rintro ⟨rfl, hs⟩
    rw [filledText?, hs]
    rfl

theorem map_text_of_mapM {vs : List Value} :
    ∀ {args : List String}, vs.mapM Value.text? = some args → vs = args.map .text := by
  induction vs with
  | nil => intro args h; cases h; rfl
  | cons v vs ih =>
    intro args h
    cases Json.mapM_eq_some.1 h with
    | @cons _ a _ as hv hvs =>
      rw [List.map_cons, ← ih (Json.mapM_eq_some.2 hvs)]
      cases v with
      | text s => cases hv; rfl
      | _ => cases hv

theorem argv_eq_ok_iff {arguments command : Option Value} {args : List String} :
    argv arguments command = .ok args ↔ args ≠ [] ∧
      ((arguments = some (Value.texts args) ∧ command = none) ∨
        ∃ line, arguments = none ∧ command = some (.text line) ∧ Shell.split line = some args) := by
  constructor
  · intro h
    obtain ⟨hne, ⟨vs, harguments, hcommand, hvs⟩ | hline⟩ := argv_eq_ok h
    · exact ⟨hne, .inl ⟨by rw [harguments, map_text_of_mapM hvs]; rfl, hcommand⟩⟩
    · exact ⟨hne, .inr hline⟩
  · rintro ⟨hne, ⟨rfl, rfl⟩ | ⟨line, rfl, rfl, hline⟩⟩
    · cases args with
      | nil => exact absurd rfl hne
      | cons a as =>
        have hlisted : listed? (Value.texts (a :: as)) = some (a :: as) := texts?_map (a :: as)
        rw [argv, hlisted]
    · have hwords : commandWords? (.text line) = some args := by
        rw [commandWords?, hline, Option.filter_some, if_pos (decide_eq_true hne)]
      rw [argv, hwords]

/-- nothing but the directory of a complete entry can be wrong by itself -/
theorem inspect_of_describes {item : Value} {c : CompleteEntry} (h : Describes item c) :
    inspect item = (directoryProblems (some c.directory), some c) := by
  have hfile := filledText?_eq_some_iff.2 ⟨h.file, h.filledFile⟩
  have hdirectory := filledText?_eq_some_iff.2 ⟨h.directory, h.filledDirectory⟩
  have hargs := argv_eq_ok_iff.2 ⟨h.filledArguments, h.arguments⟩
  simp only [inspect, h.record, if_true, hfile, hdirectory, hargs, problemOf, Option.isNone_some,
    Bool.false_eq_true, if_false, List.nil_append, List.append_nil]

theorem inspect_eq_some_iff {item : Value} {c : CompleteEntry} :
    (inspect item).2 = some c ↔ Describes item c := by
  constructor
  · intro h
    unfold inspect at h
    split at h
    · next hrec =>
      dsimp only at h
      split at h
      · next file directory args hfile hdirectory hargs =>
        cases h
        obtain ⟨hf, hfilled⟩ := filledText?_eq_some_iff.1 hfile
        obtain ⟨hd, hnamed⟩ := filledText?_eq_some_iff.1 hdirectory
        obtain ⟨hne, hplace⟩ := argv_eq_ok_iff.1 hargs
        exact ⟨hrec, hf, hfilled, hd, hnamed, hne, hplace⟩
      · cases h
    · cases h
  · intro h
    rw [inspect_of_describes h]

theorem inspect_eq_none_iff {item : Value} :
    (inspect item).2 = none ↔ ¬ ∃ c, Describes item c := by
  rw [Option.eq_none_iff_forall_ne_some, not_exists]
  exact forall_congr' fun c => not_congr inspect_eq_some_iff

theorem isWarning_of_directoryProblems {dir : String} :
    ∀ p ∈ directoryProblems (some dir), p.isWarning = true := by
  intro p hp
  rw [directoryProblems] at hp
  split at hp
  · cases hp
  · cases List.mem_singleton.1 hp
    rfl

theorem isWarning_of_compare {seen : Seen} {c : CompleteEntry} :
    ∀ p ∈ compare seen c, p.isWarning = true := by
  intro p hp
  unfold compare at hp
  split at hp
  · cases List.mem_singleton.1 hp
    rfl
  · split at hp
    · split at hp
      · cases hp
      · cases List.mem_singleton.1 hp
        rfl
    · cases hp

/-! ## places of complete entries -/

def CompleteAt (items : List Value) (i : Nat) (c : CompleteEntry) : Prop :=
  ∃ item, items[i]? = some item ∧ Describes item c

/-- the entry stands here and nowhere before -/
def FirstAt (items : List Value) (i : Nat) (c : CompleteEntry) : Prop :=
  CompleteAt items i c ∧ ∀ j < i, ¬ CompleteAt items j c

/-- the first complete entry that is compiled from a source -/
def FirstFor (items : List Value) (source : String) (i : Nat) (c : CompleteEntry) : Prop :=
  CompleteAt items i c ∧ c.source = source ∧
    ∀ j < i, ∀ d, CompleteAt items j d → d.source ≠ source

variable {items more : List Value} {item : Value} {i j : Nat} {c d : CompleteEntry}

theorem Describes.unique (hc : Describes item c) (hd : Describes item d) : c = d :=
  Option.some.inj ((inspect_eq_some_iff.2 hc).symm.trans (inspect_eq_some_iff.2 hd))

theorem CompleteAt.unique (hc : CompleteAt items i c) (hd : CompleteAt items i d) : c = d := by
  obtain ⟨item, hitem, hc⟩ := hc
  obtain ⟨item', hitem', hd⟩ := hd
  cases hitem.symm.trans hitem'
  exact hc.unique hd

theorem CompleteAt.lt (h : CompleteAt items i c) : i < items.length := by
  obtain ⟨item, hitem, -⟩ := h
  exact (List.getElem?_eq_some_iff.1 hitem).1

theorem completeAt_take : CompleteAt (items.take i) j c ↔ j < i ∧ CompleteAt items j c := by
  unfold CompleteAt
  rw [List.getElem?_take]
  split
  · next h => exact ⟨fun hc => ⟨h, hc⟩, fun hc => hc.2⟩
  · next h => exact ⟨nofun, fun hc => absurd hc.1 h⟩

theorem completeAt_snoc :
    CompleteAt (items ++ [item]) i c ↔
      CompleteAt items i c ∨ (i = items.length ∧ Describes item c) := by
  constructor
  · rintro ⟨found, hfound, hc⟩
    by_cases hi : i < items.length
    · rw [List.getElem?_append_left hi] at hfound
      exact .inl ⟨found, hfound, hc⟩
    · have hlen := (List.getElem?_eq_some_iff.1 hfound).1
      rw [List.length_append, List.length_singleton] at hlen
      have he : i = items.length := by omega
      subst he
      rw [List.getElem?_concat_length] at hfound
      cases hfound
      exact .inr ⟨rfl, hc⟩
  · rintro (h | ⟨rfl, hc⟩)
    · obtain ⟨found, hfound, hc⟩ := h
      have hi := (List.getElem?_eq_some_iff.1 hfound).1
      exact ⟨found, by rw [List.getElem?_append_left hi, hfound], hc⟩
    · exact ⟨item, List.getElem?_concat_length, hc⟩

theorem CompleteAt.exists_first (h : CompleteAt items i c) : ∃ j ≤ i, FirstAt items j c := by
  induction i using Nat.strong_induction_on with
  | _ i ih =>
    by_cases hfirst : ∃ j < i, CompleteAt items j c
    · obtain ⟨j, hji, hj⟩ := hfirst
      obtain ⟨k, hkj, hk⟩ := ih j hji hj
      exact ⟨k, Nat.le_trans hkj (Nat.le_of_lt hji), hk⟩
    · exact ⟨i, Nat.le_refl i, h, fun j hj hc => hfirst ⟨j, hj, hc⟩⟩

/-- a later item adds its own place, if its entry is new -/
theorem firstAt_snoc :
    FirstAt (items ++ [item]) i c ↔
      FirstAt items i c ∨
        (i = items.length ∧ Describes item c ∧ ∀ j, ¬ CompleteAt items j c) := by
  constructor
  · rintro ⟨hc, hfirst⟩
    have hbefore : ∀ j < i, ¬ CompleteAt items j c := fun j hj h =>
      hfirst j hj (completeAt_snoc.2 (.inl h))
    rcases completeAt_snoc.1 hc with hc | ⟨rfl, hd⟩
    · exact .inl ⟨hc, hbefore⟩
    · exact .inr ⟨rfl, hd, fun j h => hbefore j h.lt h⟩
  · rintro (⟨hc, hfirst⟩ | ⟨rfl, hc, hnew⟩)
    · refine ⟨completeAt_snoc.2 (.inl hc), fun j hj h => ?_⟩
      rcases completeAt_snoc.1 h with h | ⟨rfl, -⟩
      · exact hfirst j hj h
      · exact absurd hc.lt (Nat.lt_asymm hj)
    · refine ⟨completeAt_snoc.2 (.inr ⟨rfl, hc⟩), fun j hj h => ?_⟩
      rcases completeAt_snoc.1 h with h | ⟨he, -⟩
      · exact hnew j h
      · exact absurd he (Nat.ne_of_lt hj)

/-! ## what is remembered -/

/-- what is remembered behind one more item -/
def noted (seen : Seen) (index : Nat) : Option CompleteEntry → Seen
  | some e => remember seen index e
  | none => seen

/-- what is found about an item beside those before it -/
def beside (seen : Seen) : Option CompleteEntry → List Problem
  | some e => compare seen e
  | none => []

def rememberedFrom (index : Nat) (seen : Seen) : List Value → Seen
  | [] => seen
  | item :: items => rememberedFrom (index + 1) (noted seen index (inspect item).2) items

def remembered (items : List Value) : Seen := rememberedFrom 0 [] items

def problemsBehind (seen : Seen) (item : Value) : List Problem :=
  (inspect item).1 ++ beside seen (inspect item).2

theorem entries_cons (index : Nat) (seen : Seen) (item : Value) (items : List Value) :
    entries index seen (item :: items) =
      (problemsBehind seen item).map (⟨some index, ·⟩) ++
        entries (index + 1) (noted seen index (inspect item).2) items := by
  rw [entries, problemsBehind]
  obtain ⟨problems, complete⟩ := inspect item
  cases complete <;> rfl

theorem entries_append (items more : List Value) : ∀ (index : Nat) (seen : Seen),
    entries index seen (items ++ more) =
      entries index seen items ++
        entries (index + items.length) (rememberedFrom index seen items) more := by
  induction items with
  | nil => exact fun _ _ => rfl
  | cons item items ih =>
    intro index seen
    rw [List.cons_append, entries_cons, entries_cons, ih, List.append_assoc, List.length_cons,
      rememberedFrom, Nat.add_right_comm, Nat.add_assoc]

theorem rememberedFrom_append (items more : List Value) : ∀ (index : Nat) (seen : Seen),
    rememberedFrom index seen (items ++ more) =
      rememberedFrom (index + items.length) (rememberedFrom index seen items) more := by
  induction items with
  | nil => exact fun _ _ => rfl
  | cons item items ih =>
    intro index seen
    rw [List.cons_append, rememberedFrom, rememberedFrom, ih, List.length_cons,
      Nat.add_right_comm, Nat.add_assoc]

theorem remembered_snoc (items : List Value) (item : Value) :
    remembered (items ++ [item]) = noted (remembered items) items.length (inspect item).2 := by
  rw [remembered, rememberedFrom_append, Nat.zero_add]
  rfl

/-- the complete entries at their first places, in the order of the places -/
structure Recalls (items : List Value) (seen : Seen) : Prop where
  ordered : seen.Pairwise fun s t => s.1 < t.1
  mem_iff : ∀ s, s ∈ seen ↔ FirstAt items s.1 s.2

theorem Recalls.any_iff {seen : Seen} (h : Recalls items seen) (c : CompleteEntry) :
    seen.any (·.2 == c) = true ↔ ∃ i, CompleteAt items i c := by
  rw [List.any_eq_true]
  constructor
  · rintro ⟨⟨i, e⟩, hs, he⟩
    cases eq_of_beq he
    exact ⟨i, ((h.mem_iff _).1 hs).1⟩
  · rintro ⟨i, hc⟩
    obtain ⟨j, -, hj⟩ := hc.exists_first
    exact ⟨(j, c), (h.mem_iff _).2 hj, beq_self_eq_true c⟩

theorem Recalls.snoc {seen : Seen} (h : Recalls items seen) (item : Value) :
    Recalls (items ++ [item]) (noted seen items.length (inspect item).2) := by
  have hsame : (∀ c, Describes item c → ∃ j, CompleteAt items j c) →
      Recalls (items ++ [item]) seen := fun hold => by
    refine ⟨h.ordered, fun s => (h.mem_iff s).trans ?_⟩
    rw [firstAt_snoc]
    refine ⟨.inl, fun hs => hs.elim id ?_⟩
    rintro ⟨-, hd, hnew⟩
    obtain ⟨j, hj⟩ := hold _ hd
    exact absurd hj (hnew j)
  cases hitem : (inspect item).2 with
  | none => exact hsame fun c hc => absurd ⟨c, hc⟩ (inspect_eq_none_iff.1 hitem)
  | some c =>
    have hc : Describes item c := inspect_eq_some_iff.1 hitem
    rw [noted, remember]
    split
    · next hany => exact hsame fun d hd => hc.unique hd ▸ (h.any_iff c).1 hany
    · next hany =>
      have hnew : ∀ j, ¬ CompleteAt items j c := fun j hj => hany ((h.any_iff c).2 ⟨j, hj⟩)
      constructor
      · refine List.pairwise_append.2 ⟨h.ordered, List.pairwise_singleton _ _, fun s hs t ht => ?_⟩
        cases List.mem_singleton.1 ht
        exact ((h.mem_iff s).1 hs).1.lt
      · rintro ⟨i, d⟩
        rw [List.mem_append, List.mem_singleton, h.mem_iff, firstAt_snoc, Prod.mk.injEq]
        refine or_congr_right ⟨?_, ?_⟩
        · rintro ⟨rfl, rfl⟩
          exact ⟨rfl, hc, hnew⟩
        · rintro ⟨rfl, hd, -⟩
          exact ⟨rfl, hd.unique hc⟩

theorem recalls_remembered (items : List Value) : Recalls items (remembered items) := by
  induction items using List.reverseRecOn with
  | nil =>
    refine ⟨List.Pairwise.nil, fun s => ⟨nofun, fun h => ?_⟩⟩
    exact absurd h.1.lt (Nat.not_lt_zero _)
  | append_singleton items item ih =>
    rw [remembered_snoc]
    exact ih.snoc item

/-! ## looking up -/

/-- in a list ordered by places a search finds the first place -/
theorem find?_ordered {p : Nat × CompleteEntry → Bool} {s : Nat × CompleteEntry} {seen : Seen}
    (h : seen.Pairwise fun s t => s.1 < t.1) :
    seen.find? p = some s ↔ s ∈ seen ∧ p s = true ∧ ∀ t ∈ seen, p t = true → s.1 ≤ t.1 := by
  induction seen with
  | nil => exact ⟨nofun, fun hs => nomatch hs.1⟩
  | cons r seen ih =>
    obtain ⟨hr, hseen⟩ := List.pairwise_cons.1 h
    by_cases hp : p r = true
    · rw [List.find?_cons_of_pos hp, Option.some.injEq]
      constructor
      · rintro rfl
        refine ⟨List.mem_cons_self, hp, fun t ht _ => ?_⟩
        rcases List.mem_cons.1 ht with rfl | ht
        · exact Nat.le_refl _
        · exact Nat.le_of_lt (hr t ht)
      · rintro ⟨hs, -, hmin⟩
        rcases List.mem_cons.1 hs with rfl | hs
        · rfl
        · exact absurd (hmin r List.mem_cons_self hp) (Nat.not_le_of_lt (hr s hs))
    · rw [List.find?_cons_of_neg hp, ih hseen, List.mem_cons, List.forall_mem_cons]
      constructor
      · rintro ⟨hs, hps, hmin⟩
        exact ⟨.inr hs, hps, fun h => absurd h hp, hmin⟩
      · rintro ⟨rfl | hs, hps, -, hmin⟩
        · exact absurd hps hp
        · exact ⟨hs, hps, hmin⟩

section
variable {seen : Seen} (h : Recalls items seen)
include h

theorem Recalls.find?_entry :
    seen.find? (·.2 == c) = some (i, d) ↔ d = c ∧ FirstAt items i c := by
  rw [find?_ordered h.ordered, h.mem_iff, beq_iff_eq]
  constructor
  · rintro ⟨hd, rfl, -⟩
    exact ⟨rfl, hd⟩
  · rintro ⟨rfl, hd⟩
    refine ⟨hd, rfl, fun t ht he => ?_⟩
    cases eq_of_beq he
    exact Nat.le_of_not_lt fun hlt => hd.2 t.1 hlt ((h.mem_iff t).1 ht).1

theorem Recalls.find?_source {source : String} :
    seen.find? (·.2.source == source) = some (i, d) ↔ FirstFor items source i d := by
  rw [find?_ordered h.ordered, h.mem_iff, beq_iff_eq]
  constructor
  · rintro ⟨hd, hsource, hmin⟩
    refine ⟨hd.1, hsource, fun j hj e he hes => ?_⟩
    obtain ⟨k, hkj, hk⟩ := he.exists_first
    have hik := hmin (k, e) ((h.mem_iff _).2 hk) (beq_iff_eq.2 hes)
    exact absurd (Nat.lt_of_lt_of_le hj hik) (Nat.not_lt_of_le hkj)
  · rintro ⟨hd, hsource, hfirst⟩
    refine ⟨⟨hd, fun j hj he => hfirst j hj d he hsource⟩, hsource, fun t ht hts => ?_⟩
    exact Nat.le_of_not_lt fun hlt =>
      hfirst t.1 hlt t.2 ((h.mem_iff t).1 ht).1 (eq_of_beq hts)

theorem Recalls.mem_compare_duplicate {first : Nat} :
    .duplicateEntry first ∈ compare seen c ↔ FirstAt items first c := by
  unfold compare
  split
  · next other hfind =>
    obtain ⟨rfl, hother⟩ := h.find?_entry.1 hfind
    rw [List.mem_singleton, Problem.duplicateEntry.injEq]
    constructor
    · rintro rfl
      exact hother
    · intro hfirst
      have hsame := h.find?_entry.2 ⟨rfl, hfirst⟩
      exact (Prod.mk.inj (Option.some.inj (hsame.symm.trans hfind))).1
  · next hnone =>
    refine ⟨fun hmem => ?_, fun hfirst => ?_⟩
    · split at hmem
      · split at hmem
        · cases hmem
        · cases List.mem_singleton.1 hmem
      · cases hmem
    · cases hnone.symm.trans (h.find?_entry.2 ⟨rfl, hfirst⟩)

theorem Recalls.mem_compare_conflict {source : String} {first : Nat} :
    .conflictingArguments source first ∈ compare seen c ↔
      (∀ j, ¬ CompleteAt items j c) ∧ source = c.source ∧
        ∃ d, FirstFor items source first d ∧ d.argv ≠ c.argv := by
  have hnew : seen.find? (·.2 == c) = none ↔ ∀ j, ¬ CompleteAt items j c := by
    rw [← not_exists, ← h.any_iff c, List.find?_eq_none, List.any_eq_true, not_exists]
    exact forall_congr' fun s => not_and.symm
  unfold compare
  split
  · next first' other hfind =>
    refine ⟨fun hmem => ?_, fun hconf => ?_⟩
    · cases List.mem_singleton.1 hmem
    · cases hfind.symm.trans (hnew.2 hconf.1)
  · next hnone =>
    rw [← hnew]
    split
    · next first' d hfind =>
      have hd := h.find?_source.1 hfind
      split
      · next hargv =>
        refine ⟨nofun, ?_⟩
        rintro ⟨-, rfl, e, he, hne⟩
        cases hfind.symm.trans (h.find?_source.2 he)
        exact absurd hargv hne
      · next hargv =>
        rw [List.mem_singleton, Problem.conflictingArguments.injEq]
        constructor
        · rintro ⟨rfl, rfl⟩
          exact ⟨hnone, rfl, d, hd, hargv⟩
        · rintro ⟨-, rfl, e, he, -⟩
          cases hfind.symm.trans (h.find?_source.2 he)
          exact ⟨rfl, rfl⟩
    · next hfind =>
      refine ⟨nofun, ?_⟩
      rintro ⟨-, rfl, e, he, -⟩
      cases hfind.symm.trans (h.find?_source.2 he)

end

/-! ## the findings about one entry -/

theorem index_of_entries : ∀ {items : List Value} {index : Nat} {seen : Seen} {f : Finding},
    f ∈ entries index seen items → ∃ i < items.length, f.index = some (index + i) := by
  intro items
  induction items with
  | nil => intro index seen f h; cases h
  | cons item items ih =>
    intro index seen f h
    rw [entries_cons] at h
    rcases List.mem_append.1 h with h | h
    · obtain ⟨p, -, rfl⟩ := List.mem_map.1 h
      exact ⟨0, Nat.zero_lt_succ _, rfl⟩
    · obtain ⟨i, hi, hf⟩ := ih h
      exact ⟨i + 1, Nat.succ_lt_succ hi, by rw [hf, Nat.succ_add_eq_add_succ]⟩

theorem ordered_entries : ∀ (items : List Value) (index : Nat) (seen : Seen),
    (entries index seen items).Pairwise fun f g => ∀ i ∈ f.index, ∀ j ∈ g.index, i ≤ j := by
  intro items
  induction items with
  | nil => exact fun _ _ => List.Pairwise.nil
  | cons item items ih =>
    intro index seen
    rw [entries_cons]
    refine List.pairwise_append.2 ⟨?_, ih _ _, fun f hf g hg => ?_⟩
    · refine List.pairwise_map.2 (List.pairwise_of_forall fun p q i hi j hj => ?_)
      cases hi
      cases hj
      exact Nat.le_refl _
    · obtain ⟨p, -, rfl⟩ := List.mem_map.1 hf
      obtain ⟨k, -, hk⟩ := index_of_entries hg
      intro i hi j hj
      cases hi
      cases Option.some.inj (hk.symm.trans hj)
      omega

/-- the findings about one entry are those behind the items before it -/
theorem filter_findings (h : items[i]? = some item) :
    (findings (.list items)).filter (·.index == some i) =
      (problemsBehind (remembered (items.take i)) item).map (⟨some i, ·⟩) := by
  obtain ⟨hi, hitem⟩ := List.getElem?_eq_some_iff.1 h
  have hsplit : items = items.take i ++ item :: items.drop (i + 1) := by
    rw [← hitem, ← List.drop_eq_getElem_cons hi, List.take_append_drop]
  have hlen : (items.take i).length = i := by
    rw [List.length_take]
    omega
  have hbefore : (entries 0 [] (items.take i)).filter (·.index == some i) = [] := by
    refine List.filter_eq_nil_iff.2 fun f hf => ?_
    obtain ⟨k, hk, hindex⟩ := index_of_entries hf
    rw [hindex, beq_iff_eq, Option.some.injEq]
    omega
  have hbehind : ∀ seen, (entries (i + 1) seen (items.drop (i + 1))).filter
      (·.index == some i) = [] := fun seen => by
    refine List.filter_eq_nil_iff.2 fun f hf => ?_
    obtain ⟨k, hk, hindex⟩ := index_of_entries hf
    rw [hindex, beq_iff_eq, Option.some.injEq]
    omega
  have hhere : ∀ ps : List Problem, (ps.map fun p => (⟨some i, p⟩ : Finding)).filter
      (·.index == some i) = ps.map (⟨some i, ·⟩) := fun ps => by
    refine List.filter_eq_self.2 fun f hf => ?_
    obtain ⟨p, -, rfl⟩ := List.mem_map.1 hf
    exact beq_self_eq_true _
  conv => lhs; rw [hsplit]
  rw [findings, entries_append, hlen, Nat.zero_add, entries_cons, List.filter_append,
    List.filter_append, hbefore, hbehind, hhere, List.nil_append, List.append_nil]
  rfl

theorem mem_findings_iff {p : Problem} :
    ⟨some i, p⟩ ∈ findings (.list items) ↔
      ∃ item, items[i]? = some item ∧
        p ∈ problemsBehind (remembered (items.take i)) item := by
  have hfilter : ⟨some i, p⟩ ∈ findings (.list items) ↔
      ⟨some i, p⟩ ∈ (findings (.list items)).filter (·.index == some i) := by
    rw [List.mem_filter]
    exact ⟨fun h => ⟨h, beq_self_eq_true _⟩, fun h => h.1⟩
  have hmap : ∀ ps : List Problem,
      (⟨some i, p⟩ : Finding) ∈ ps.map (fun p => ⟨some i, p⟩) ↔ p ∈ ps := fun ps => by
    rw [List.mem_map]
    exact ⟨fun ⟨q, hq, he⟩ => (Finding.mk.inj he).2 ▸ hq, fun h => ⟨p, h, rfl⟩⟩
  constructor
  · intro h
    obtain ⟨k, hk, hindex⟩ := index_of_entries h
    rw [Nat.zero_add] at hindex
    cases hindex
    have hitem := List.getElem?_eq_getElem hk
    exact ⟨_, hitem, (hmap _).1 (filter_findings hitem ▸ hfilter.1 h)⟩
  · rintro ⟨item, hitem, hp⟩
    rw [hfilter, filter_findings hitem]
    exact (hmap _).2 hp

/-! ## the problems of one entry -/

/-- the codes of the problems that one column can have, each on its own -/
def fileCodes : List (List String) := [[], ["missing-file"]]

def directoryCodes : List (List String) := [[], ["missing-directory"], ["relative-directory"]]

def argumentCodes : List (List String) :=
  [[], ["ambiguous-command"], ["missing-command"], ["invalid-arguments"], ["unparseable-command"]]

def besideCodes : List (List String) := [[], ["duplicate-entry"], ["conflicting-arguments"]]

theorem codes_directoryProblems (directory : Option String) :
    (directoryProblems directory).map (·.code) ∈ directoryCodes := by
  unfold directoryProblems
  split
  · simp [Problem.code, directoryCodes]
  · split <;> simp [Problem.code, directoryCodes]

theorem codes_argv (arguments command : Option Value) :
    (problemOf (argv arguments command)).map (·.code) ∈ argumentCodes := by
  unfold argv
  split
  · simp [problemOf, Problem.code, argumentCodes]
  · simp [problemOf, Problem.code, argumentCodes]
  · split <;> simp [problemOf, Problem.code, argumentCodes]
  · split <;> simp [problemOf, Problem.code, argumentCodes]

theorem codes_beside (seen : Seen) (complete : Option CompleteEntry) :
    (beside seen complete).map (·.code) ∈ besideCodes := by
  cases complete with
  | none => simp [beside, besideCodes]
  | some c =>
    rw [beside, compare]
    split
    · simp [Problem.code, besideCodes]
    · split
      · split <;> simp [Problem.code, besideCodes]
      · simp [besideCodes]

theorem codes_inspect (item : Value) :
    (inspect item).1.map (·.code) = ["not-an-object"] ∨
      ∃ a ∈ fileCodes, ∃ b ∈ directoryCodes, ∃ c ∈ argumentCodes,
        (inspect item).1.map (·.code) = a ++ b ++ c := by
  cases hrec : item.isRecord with
  | false => exact .inl (by simp [inspect, hrec, Problem.code])
  | true =>
    have hproblems : (inspect item).1 =
        (if (filledText? (item.get? "file")).isNone then [.missingFile] else []) ++
          directoryProblems (filledText? (item.get? "directory")) ++
            problemOf (argv (item.get? "arguments") (item.get? "command")) := by
      rw [inspect, if_pos hrec]
      dsimp only
      split <;> rfl
    rw [hproblems, List.map_append, List.map_append]
    refine .inr ⟨_, ?_, _, codes_directoryProblems _, _, codes_argv _ _, rfl⟩
    split <;> simp [Problem.code, fileCodes]

/-- no kind of problem comes twice -/
theorem nodup_codes (seen : Seen) (item : Value) :
    ((problemsBehind seen item).map (·.code)).Nodup := by
  have hobject : ∀ d ∈ besideCodes, (["not-an-object"] ++ d).Nodup := by decide
  have hcolumns : ∀ a ∈ fileCodes, ∀ b ∈ directoryCodes, ∀ c ∈ argumentCodes, ∀ d ∈ besideCodes,
      (a ++ b ++ c ++ d).Nodup := by decide +kernel
  have hbeside := codes_beside seen (inspect item).2
  rw [problemsBehind, List.map_append]
  rcases codes_inspect item with h | ⟨a, ha, b, hb, c, hc, h⟩
  · rw [h]
    exact hobject _ hbeside
  · rw [h]
    exact hcolumns a ha b hb c hc _ hbeside

/-- what is found beside other entries is not found about an entry on its own -/
theorem notMem_inspect {p : Problem} (hp : [p.code] ∈ besideCodes) : p ∉ (inspect item).1 := by
  have hobject : ∀ d ∈ besideCodes, ∀ x ∈ d, x ∉ ["not-an-object"] := by decide
  have hcolumns : ∀ a ∈ fileCodes, ∀ b ∈ directoryCodes, ∀ c ∈ argumentCodes, ∀ d ∈ besideCodes,
      ∀ x ∈ d, x ∉ a ++ b ++ c := by decide +kernel
  intro hmem
  have hcode : p.code ∈ (inspect item).1.map (·.code) := List.mem_map_of_mem hmem
  rcases codes_inspect item with h | ⟨a, ha, b, hb, c, hc, h⟩
  · rw [h] at hcode
    exact hobject _ hp _ (List.mem_singleton_self _) hcode
  · rw [h] at hcode
    exact hcolumns a ha b hb c hc _ hp _ (List.mem_singleton_self _) hcode

theorem mem_problemsBehind_iff {seen : Seen} {p : Problem} (hp : [p.code] ∈ besideCodes) :
    p ∈ problemsBehind seen item ↔ ∃ c, Describes item c ∧ p ∈ compare seen c := by
  rw [problemsBehind, List.mem_append, or_iff_right (notMem_inspect hp)]
  cases hitem : (inspect item).2 with
  | none =>
    refine ⟨nofun, ?_⟩
    rintro ⟨c, hc, -⟩
    exact absurd ⟨c, hc⟩ (inspect_eq_none_iff.1 hitem)
  | some c =>
    have hc : Describes item c := inspect_eq_some_iff.1 hitem
    exact ⟨fun h => ⟨c, hc, h⟩, fun ⟨d, hd, h⟩ => hc.unique hd ▸ h⟩

theorem mem_duplicates_iff {first : Nat} :
    ⟨some i, .duplicateEntry first⟩ ∈ findings (.list items) ↔
      first < i ∧ ∃ c, CompleteAt items i c ∧ FirstAt items first c := by
  have hfirst : ∀ c, FirstAt (items.take i) first c ↔ first < i ∧ FirstAt items first c := by
    intro c
    rw [FirstAt, completeAt_take, FirstAt, and_assoc]
    refine and_congr_right fun hlt => and_congr_right fun _ => forall₂_congr fun j hj => ?_
    rw [completeAt_take, and_iff_right (Nat.lt_trans hj hlt)]
  rw [mem_findings_iff]
  constructor
  · rintro ⟨item, hitem, hp⟩
    obtain ⟨c, hc, hcompare⟩ := (mem_problemsBehind_iff (.tail _ (.head _))).1 hp
    obtain ⟨hlt, hat⟩ := (hfirst c).1
      ((recalls_remembered (items.take i)).mem_compare_duplicate.1 hcompare)
    exact ⟨hlt, c, ⟨item, hitem, hc⟩, hat⟩
  · rintro ⟨hlt, c, ⟨item, hitem, hc⟩, hat⟩
    refine ⟨item, hitem, (mem_problemsBehind_iff (.tail _ (.head _))).2 ⟨c, hc, ?_⟩⟩
    exact (recalls_remembered (items.take i)).mem_compare_duplicate.2 ((hfirst c).2 ⟨hlt, hat⟩)

theorem mem_conflicts_iff {source : String} {first : Nat} :
    ⟨some i, .conflictingArguments source first⟩ ∈ findings (.list items) ↔
      ∃ c d, FirstAt items i c ∧ c.source = source ∧ FirstFor items source first d ∧
        d.argv ≠ c.argv := by
  have hnew : ∀ c, (∀ j, ¬ CompleteAt (items.take i) j c) ↔ ∀ j < i, ¬ CompleteAt items j c :=
    fun c => forall_congr' fun j => by rw [completeAt_take, not_and]
  have hfirst : ∀ d, FirstFor (items.take i) source first d ↔
      first < i ∧ FirstFor items source first d := by
    intro d
    rw [FirstFor, completeAt_take, FirstFor, and_assoc]
    refine and_congr_right fun hlt => and_congr_right fun _ => and_congr_right fun _ =>
      forall₂_congr fun j hj => forall_congr' fun e => ?_
    rw [completeAt_take, and_iff_right (Nat.lt_trans hj hlt)]
  rw [mem_findings_iff]
  constructor
  · rintro ⟨item, hitem, hp⟩
    obtain ⟨c, hc, hcompare⟩ := (mem_problemsBehind_iff (.tail _ (.tail _ (.head _)))).1 hp
    obtain ⟨hfresh, rfl, d, hd, hne⟩ :=
      (recalls_remembered (items.take i)).mem_compare_conflict.1 hcompare
    exact ⟨c, d, ⟨⟨item, hitem, hc⟩, (hnew c).1 hfresh⟩, rfl, ((hfirst d).1 hd).2, hne⟩
  · rintro ⟨c, d, ⟨⟨item, hitem, hc⟩, hfresh⟩, rfl, hd, hne⟩
    -- the entry itself is compiled from the source, so the first one cannot come later
    have hle : first ≤ i := Nat.le_of_not_lt fun hlt => hd.2.2 i hlt c ⟨item, hitem, hc⟩ rfl
    have hlt : first < i := by
      refine Nat.lt_of_le_of_ne hle fun he => hne ?_
      subst he
      rw [hd.1.unique ⟨item, hitem, hc⟩]
    refine ⟨item, hitem, (mem_problemsBehind_iff (.tail _ (.tail _ (.head _)))).2 ⟨c, hc, ?_⟩⟩
    exact (recalls_remembered (items.take i)).mem_compare_conflict.2
      ⟨(hnew c).2 hfresh, rfl, d, (hfirst d).2 ⟨hlt, hd⟩, hne⟩

theorem exists_error_iff (seen : Seen) :
    (∃ p ∈ problemsBehind seen item, p.isWarning = false) ↔ ¬ ∃ c, Describes item c := by
  constructor
  · rintro ⟨p, hp, herror⟩ ⟨c, hc⟩
    rw [problemsBehind, inspect_of_describes hc] at hp
    have hwarning : p.isWarning = true := by
      rcases List.mem_append.1 hp with hp | hp
      · exact isWarning_of_directoryProblems p hp
      · exact isWarning_of_compare p hp
    rw [hwarning] at herror
    cases herror
  · intro hnone
    by_contra hno
    have hwarnings : ∀ p ∈ (inspect item).1, p.isWarning = true := fun p hp => by
      by_contra hwarning
      exact hno ⟨p, List.mem_append_left _ hp, Bool.eq_false_iff.2 hwarning⟩
    obtain ⟨c, hc⟩ := exists_complete hwarnings
    exact hnone ⟨c, inspect_eq_some_iff.1 hc.found⟩

end Triage.Inspection

namespace Triage

open Json (Value)

/-! ## the verdict -/

namespace Verdict

/-- a finding that is written with this severity -/
def hasSeverity (word : String) (finding : Value) : Bool :=
  match finding.get? "severity" with
  | some (.text s) => s == word
  | _ => false

theorem hasSeverity_toJson (word : String) (f : Finding) :
    hasSeverity word f.toJson = ((if f.problem.isWarning then "warning" else "error") == word) := by
  obtain ⟨index, p⟩ := f
  cases index <;> rfl

theorem countP_toJson (word : String) (severe : Problem → Bool)
    (h : ∀ p : Problem, ((if p.isWarning then "warning" else "error") == word) = severe p)
    (fs : List Finding) :
    (fs.map Finding.toJson).countP (hasSeverity word) = fs.countP fun f => severe f.problem := by
  rw [List.countP_map]
  exact List.countP_congr fun f _ => by rw [Function.comp, hasSeverity_toJson, h]

theorem errors_toJson (r : Verdict) :
    r.toJson.get? "errors" =
      some (.int ((r.findings.map Finding.toJson).countP (hasSeverity "error"))) := by
  rw [countP_toJson "error" (fun p => !p.isWarning) fun p => by cases p.isWarning <;> rfl]
  rfl

theorem warnings_toJson (r : Verdict) :
    r.toJson.get? "warnings" =
      some (.int ((r.findings.map Finding.toJson).countP (hasSeverity "warning"))) := by
  rw [countP_toJson "warning" Problem.isWarning fun p => by cases p.isWarning <;> rfl]
  rfl

end Verdict

namespace Inspection

/-- Every finding belongs to one entry, those of an entry are of different kinds, and later entries
add findings at the end. -/
theorem first_offenders (items : List Value) :
    (∀ i first, ⟨some i, .duplicateEntry first⟩ ∈ findings (.list items) ↔
      first < i ∧ ∃ c, CompleteAt items i c ∧ FirstAt items first c) ∧
    (∀ i source first, ⟨some i, .conflictingArguments source first⟩ ∈ findings (.list items) ↔
      ∃ c d, FirstAt items i c ∧ c.source = source ∧ FirstFor items source first d ∧
        d.argv ≠ c.argv) ∧
    (∀ i, (((findings (.list items)).filter (·.index == some i)).map (·.problem.code)).Nodup) ∧
    (∀ i item, items[i]? = some item →
      ((∃ f ∈ findings (.list items), f.index = some i ∧ f.problem.isWarning = false) ↔
        ¬ ∃ c, Describes item c)) ∧
    (∀ f ∈ findings (.list items), ∃ i < items.length, f.index = some i) ∧
    (findings (.list items)).Pairwise (fun f g => ∀ i ∈ f.index, ∀ j ∈ g.index, i ≤ j) ∧
    (∃ fs, fs = (findings (.list items)).map Finding.toJson ∧
      (Verdict.ofValue (.list items)).toJson.get? "findings" = some (.list fs) ∧
      (Verdict.ofValue (.list items)).toJson.get? "errors" =
        some (.int (fs.countP (Verdict.hasSeverity "error"))) ∧
      (Verdict.ofValue (.list items)).toJson.get? "warnings" =
        some (.int (fs.countP (Verdict.hasSeverity "warning")))) ∧
    ∀ more, findings (.list items) <+: findings (.list (items ++ more)) := by
  refine ⟨fun _ _ => mem_duplicates_iff, fun _ _ _ => mem_conflicts_iff, fun i => ?_,
    fun i item hitem => ?_, fun f hf => ?_, ordered_entries items 0 [],
    ⟨_, rfl, rfl, Verdict.errors_toJson _, Verdict.warnings_toJson _⟩, fun more => ?_⟩
  · cases hitem : items[i]? with
    | none =>
      have hempty : (findings (.list items)).filter (·.index == some i) = [] := by
        refine List.filter_eq_nil_iff.2 fun f hf he => ?_
        obtain ⟨k, hk, hindex⟩ := index_of_entries hf
        rw [hindex, Nat.zero_add, beq_iff_eq, Option.some.injEq] at he
        exact absurd (he ▸ hk) (Nat.not_lt_of_le (List.getElem?_eq_none_iff.1 hitem))
      rw [hempty]
      exact List.nodup_nil
    | some item =>
      rw [filter_findings hitem, List.map_map]
      exact nodup_codes _ item
  · rw [← exists_error_iff (remembered (items.take i))]
    constructor
    · rintro ⟨⟨index, p⟩, hf, rfl, herror⟩
      obtain ⟨found, hfound, hp⟩ := mem_findings_iff.1 hf
      cases hitem.symm.trans hfound
      exact ⟨p, hp, herror⟩
    · rintro ⟨p, hp, herror⟩
      exact ⟨⟨some i, p⟩, mem_findings_iff.2 ⟨item, hitem, hp⟩, rfl, herror⟩
  · obtain ⟨i, hi, hindex⟩ := index_of_entries hf
    exact ⟨i, hi, by rw [hindex, Nat.zero_add]⟩
  · rw [findings, findings, entries_append]
    exact List.prefix_append _ _

/-- an entry without a file, and four that name one source, two of them the same -/
def crowdedSource : List Value :=
  [.record [("directory", .text "/b"), ("command", .text "cc -c a.c")],
    .record [("directory", .text "/b"), ("file", .text "a.c"), ("command", .text "cc -c a.c")],
    .record [("directory", .text "/b/"), ("file", .text "a.c"), ("command", .text "cc -c a.c")],
    .record [("file", .text "a.c"), ("arguments", Value.texts ["cc", "-c", "a.c"]),
      ("directory", .text "/b")],
    .record [("directory", .text "/b"), ("file", .text "/b/a.c"), ("command", .text "cc -O2")]]

theorem first_offenders_crowdedSource :
    ⟨some 3, .duplicateEntry 1⟩ ∈ findings (.list crowdedSource) ∧
      ⟨some 4, .conflictingArguments "/b/a.c" 1⟩ ∈ findings (.list crowdedSource) ∧
        ∃ f ∈ findings (.list crowdedSource), f.index = some 0 ∧ f.problem.isWarning = false := by
  obtain ⟨hduplicate, hconflict, -, hincomplete, -⟩ := first_offenders crowdedSource
  have hzero : ∀ c, ¬ CompleteAt crowdedSource 0 c := by
    rintro c ⟨item, hitem, hc⟩
    cases hitem
    exact nomatch inspect_eq_some_iff.2 hc
  have hbefore : ∀ j < 1, ∀ c, ¬ CompleteAt crowdedSource j c := fun j hj c => by
    rw [Nat.lt_one_iff.1 hj]
    exact hzero c
  have hat : ∀ i item c, crowdedSource[i]? = some item → (inspect item).2 = some c →
      CompleteAt crowdedSource i c := fun i item c hitem hc =>
    ⟨item, hitem, inspect_eq_some_iff.1 hc⟩
  have hfirst : CompleteAt crowdedSource 1 ⟨"a.c", "/b", ["cc", "-c", "a.c"]⟩ :=
    hat 1 _ _ rfl (by decide +kernel)
  refine ⟨(hduplicate 3 1).2 ⟨by decide, _, hat 3 _ _ rfl (by decide +kernel), hfirst,
    fun j hj => hbefore j hj _⟩, (hconflict 4 "/b/a.c" 1).2 ⟨⟨"/b/a.c", "/b", ["cc", "-O2"]⟩, _,
    ⟨hat 4 _ _ rfl (by decide +kernel), ?_⟩, by decide +kernel,
    ⟨hfirst, by decide +kernel, fun j hj d hd => absurd hd (hbefore j hj d)⟩, by decide⟩,
    (hincomplete 0 _ rfl).2 fun ⟨c, hc⟩ => hzero c ⟨_, rfl, hc⟩⟩
  rintro j hj ⟨item, hitem, hc⟩
  have hother : ∀ item ∈ crowdedSource.take 4,
      (inspect item).2 ≠ some ⟨"/b/a.c", "/b", ["cc", "-O2"]⟩ := by decide +kernel
  refine hother item ?_ (inspect_eq_some_iff.2 hc)
  rw [← List.getElem?_take_of_lt hj] at hitem
  exact List.mem_of_getElem? hitem

end Inspection

end Triage
