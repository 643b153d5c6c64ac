import Mathlib.Data.List.Nodup
import Triage.Proofs.Loading
import Triage.Proofs.Spellings

/-!
# What a panel can have selected

* `Selection.Proper k s`   what a facet of kind `k` can have selected: distinct values, each in its
                           own spelling, and at most one where only one can be chosen;
* `proper_select`, `proper_load`   choosing a value and taking values from a history keep that;
* `values_load_fresh`      an empty facet takes over exactly what a history asks for;
* `Facet.pick`             the kind of a facet and its selected values; counts asked again leave them
                           alone (`picks_turns`, `picks_membersTurned`);
* `proper_of_move`         no request leaves anything else selected;
* `written_of_move`        the history of a ready panel is the one that its selections write.
-/

namespace Triage

namespace Selection

/-- what a facet of a kind can have selected -/
structure Proper (k : FacetKind) (s : Selection) : Prop where
  mode : s.mode = k.mode
  distinct : s.values.Nodup
  spelled : ∀ v ∈ s.values, k.Spelled v
  single : k.mode = .single → s.values.length ≤ 1

/-! ## choosing -/

theorem mode_select (s : Selection) (v : String) (info : ValueInfo) :
    (s.select v info).mode = s.mode := by
  unfold select
  split
  · rfl
  · split <;> rfl

theorem contains_iff (s : Selection) (v : String) : s.contains v = true ↔ v ∈ s.values := by
  rw [contains_eq, List.contains_iff_mem]

theorem values_select_of_mem {s : Selection} {v : String} (h : v ∈ s.values) (info : ValueInfo) :
    (s.select v info).values = s.values := by
  rw [select, if_pos ((s.contains_iff v).2 h)]
  show List.map _ (List.map _ _) = List.map _ _
  rw [List.map_map]
  refine List.map_congr_left fun i _ => ?_
  show (if i.value = v then { i with info := i.info.merge info } else i).value = i.value
  split <;> rfl

theorem values_select_single {s : Selection} {v : String} (hs : s.mode = .single)
    (h : v ∉ s.values) (info : ValueInfo) : (s.select v info).values = [v] := by
  rw [select, if_neg (mt (s.contains_iff v).1 h), hs]
  rfl

theorem values_select_multi {s : Selection} {v : String} (hs : s.mode = .multi)
    (h : v ∉ s.values) (info : ValueInfo) : (s.select v info).values = s.values ++ [v] := by
  rw [select, if_neg (mt (s.contains_iff v).1 h), hs]
  exact List.map_append

theorem mem_values_select {s : Selection} {v w : String} {info : ValueInfo}
    (h : v ∈ (s.select w info).values) : v ∈ s.values ∨ v = w := by
  by_cases hw : w ∈ s.values
  · rw [values_select_of_mem hw] at h
    exact .inl h
  · cases hm : s.mode with
    | single =>
      rw [values_select_single hm hw] at h
      exact .inr (List.mem_singleton.1 h)
    | multi =>
      rw [values_select_multi hm hw, List.mem_append, List.mem_singleton] at h
      exact h

theorem proper_empty {k : FacetKind} {s : Selection} (hm : s.mode = k.mode) (hi : s.items = []) :
    s.Proper k := by
  have hv : s.values = [] := by rw [values, hi]; rfl
  refine ⟨hm, ?_, ?_, ?_⟩
  · rw [hv]
    exact .nil
  · intro v h
    rw [hv] at h
    cases h
  · intro _
    rw [hv]
    exact Nat.zero_le 1

/-- fewer values -/
theorem Proper.of_sublist {k : FacetKind} {s t : Selection} (h : s.Proper k) (hm : t.mode = s.mode)
    (hv : t.values.Sublist s.values) : t.Proper k :=
  ⟨hm.trans h.mode, h.distinct.sublist hv, fun v hx => h.spelled v (hv.subset hx),
    fun hs => hv.length_le.trans (h.single hs)⟩

theorem proper_select {k : FacetKind} {s : Selection} (h : s.Proper k) {v : String}
    (hv : k.Spelled v) (info : ValueInfo) : (s.select v info).Proper k := by
  by_cases hm : v ∈ s.values
  · exact h.of_sublist (mode_select s v info) (values_select_of_mem hm info ▸ .refl _)
  · have hmode := (mode_select s v info).trans h.mode
    cases hs : s.mode with
    | single =>
      have hvals := values_select_single hs hm info
      refine ⟨hmode, ?_, ?_, ?_⟩
      · rw [hvals]
        exact List.nodup_singleton v
      · rw [hvals]
        exact List.forall_mem_singleton.2 hv
      · intro _
        rw [hvals]
        exact le_refl 1
    | multi =>
      have hvals := values_select_multi hs hm info
      refine ⟨hmode, ?_, ?_, ?_⟩
      · rw [hvals]
        exact h.distinct.append (List.nodup_singleton v) (List.disjoint_singleton.2 hm)
      · rw [hvals]
        intro w hw
        rcases List.mem_append.1 hw with hw | hw
        · exact h.spelled w hw
        · rw [List.mem_singleton.1 hw]
          exact hv
      · intro hk
        rw [← h.mode, hs] at hk
        cases hk

theorem proper_foldl_select {k : FacetKind} {vs : List String} (hvs : ∀ v ∈ vs, k.Spelled v) :
    ∀ {s : Selection}, s.Proper k → (vs.foldl (fun s v => s.select v {}) s).Proper k := by
  induction vs with
  | nil => intro s h; exact h
  | cons v vs ih =>
    intro s h
    rw [List.foldl_cons]
    exact ih (fun w hw => hvs w (List.mem_cons_of_mem _ hw))
      (proper_select h (hvs v List.mem_cons_self) {})

/-- distinct values come in behind those that are there -/
theorem values_foldl_select_multi (vs : List String) :
    ∀ {s : Selection}, s.mode = .multi → (s.values ++ vs).Nodup →
      (vs.foldl (fun s v => s.select v {}) s).values = s.values ++ vs := by
  induction vs with
  | nil => intro s _ _; exact (List.append_nil _).symm
  | cons v vs ih =>
    intro s hm hd
    have hnotin : v ∉ s.values := fun h =>
      (List.nodup_append.1 hd).2.2 v h v List.mem_cons_self rfl
    rw [List.append_cons, ← values_select_multi hm hnotin {}] at hd ⊢
    exact ih ((mode_select s v {}).trans hm) hd

/-- an empty selection takes over distinct values, and one value where only one can be chosen -/
theorem values_foldl_select {s : Selection} (hs : s.values = []) {vs : List String}
    (hd : vs.Nodup) (h1 : s.mode = .single → vs.length ≤ 1) :
    (vs.foldl (fun s v => s.select v {}) s).values = vs := by
  cases hm : s.mode with
  | multi =>
    rw [values_foldl_select_multi vs hm (by rw [hs]; exact hd), hs]
    rfl
  | single =>
    have hl := h1 hm
    match vs with
    | [] => exact hs
    | [v] =>
      have hnotin : v ∉ s.values := by
        rw [hs]
        exact List.not_mem_nil
      exact values_select_single hm hnotin {}
    | v :: w :: vs =>
      rw [List.length_cons, List.length_cons] at hl
      omega

end Selection

namespace Facet

/-- the facet has nothing selected that its kind cannot have -/
def Proper (f : Facet) : Prop := f.selection.Proper f.kind

theorem proper_make (k : FacetKind) (quietPeriod : Nat) : (make k quietPeriod).Proper :=
  Selection.proper_empty rfl rfl

theorem Steady.proper {f g : Facet} (h : f.Steady g) (k : f.Proper) : g.Proper := by
  have hv : g.selection.values = f.selection.values := h.values
  unfold Proper at k ⊢
  rw [h.kind]
  exact k.of_sublist h.mode (hv ▸ .refl _)

theorem proper_selected {f : Facet} (h : f.Proper) (raw : String) (info : ValueInfo) :
    (f.select raw info).Proper := by
  unfold select
  split
  · exact h
  · next v hv => exact Selection.proper_select h (FacetKind.spelled_of_canonical hv) info

theorem proper_deselect {f : Facet} (h : f.Proper) (raw : String) : (f.deselect raw).Proper :=
  Selection.Proper.of_sublist h rfl (List.filter_sublist.map _)

theorem proper_clear {f : Facet} (h : f.Proper) : f.clear.Proper :=
  Selection.proper_empty (s := f.selection.clear) h.mode rfl

/-! ## loading -/

theorem spelled_incoming {k : FacetKind} {h : History} {v : String} (hv : v ∈ incoming k h) :
    k.Spelled v := by
  unfold incoming at hv
  split at hv
  · dsimp only at hv
    split at hv
    · cases hv
    · exact FacetKind.spelled_of_canonical (Option.mem_toList.1 hv)
  · obtain ⟨raw, -, hr⟩ := List.mem_filterMap.1 hv
    exact FacetKind.spelled_of_canonical hr

theorem proper_kept {f : Facet} (h : f.Proper) (wanted : List String) :
    (f.kept wanted).Proper f.kind := by
  unfold kept
  split
  · exact Selection.proper_empty (s := f.selection.clear) h.mode rfl
  · exact Selection.Proper.of_sublist h rfl (List.filter_sublist.map _)

theorem proper_load {f : Facet} (hf : f.Proper) (h : History) : (f.load h).Proper :=
  Selection.proper_foldl_select (fun _ => spelled_incoming) (proper_kept hf _)

/-- an empty facet takes over exactly what a history asks for -/
theorem values_load_fresh {f : Facet} {h : History} (hf : f.Proper) (he : f.selection.items = [])
    (hd : (incoming f.kind h).Nodup)
    (h1 : f.kind.mode = .single → (incoming f.kind h).length ≤ 1) :
    (f.load h).values = incoming f.kind h := by
  have hk := proper_kept hf (incoming f.kind h)
  have hv : (f.kept (incoming f.kind h)).values = [] := by
    unfold kept
    split
    · rfl
    · rw [he]
      rfl
  refine Selection.values_foldl_select hv hd fun hm => h1 ?_
  rw [← hk.mode]
  exact hm

/-! ## kinds and values -/

/-- the kind of a facet and its selected values -/
def pick (f : Facet) : FacetKind × List String := (f.kind, f.values)

theorem Steady.pick {f g : Facet} (h : f.Steady g) : g.pick = f.pick := by
  rw [Facet.pick, Facet.pick, h.kind, h.values]

/-- the entries of a facet are those of its selected values -/
theorem entries_of_pick {f g : Facet} (h : g.pick = f.pick) : g.entries = f.entries := by
  have hk : g.kind = f.kind := congrArg Prod.fst h
  have hv : g.values = f.values := congrArg Prod.snd h
  have hr : g.range = f.range := by rw [Facet.range, Facet.range, hv]
  unfold entries
  rw [hk, hv, hr]

end Facet

namespace Panel

variable {s : Store}

theorem picks_turns (closed : String → Bool) (except : List String) (done rest : List Facet) :
    (turns s closed except done rest).map Facet.pick = rest.map Facet.pick :=
  map_turns s closed except Facet.pick (fun f scope => (steady_turn s closed except scope f).pick)
    done rest

theorem picks_membersTurned (ms : List String) : ∀ {fs : List Facet}, Distinct fs →
    (membersTurned s ms fs).map Facet.pick = fs.map Facet.pick := by
  induction ms with
  | nil => intro fs _; rfl
  | cons m ms ih =>
    intro fs hd
    rw [membersTurned]
    split
    · next f hf =>
      have hst := f.steady_refreshed s (scopeOf fs f.id)
      rw [ih (hd.of_kinds (kinds_putIn _ fs))]
      exact map_putIn Facet.pick hd (List.mem_of_find?_eq_some hf) hst.kind hst.pick
    · exact ih hd

/-! ## requests keep selections proper -/

theorem proper_turns {closed : String → Bool} {except : List String} {done rest : List Facet}
    (h : ∀ f ∈ rest, f.Proper) : ∀ f ∈ turns s closed except done rest, f.Proper :=
  forall_turns s closed except (fun f scope hf => (steady_turn s closed except scope f).proper hf) h

theorem proper_chosen {f : Facet} (h : f.Proper) (scope : Scope) (raw : String)
    (info : ValueInfo) : (chosen s scope f raw info).Proper := by
  have hsel := Facet.proper_selected h raw info
  unfold chosen
  split
  · exact (Facet.steady_refreshed s scope _).proper hsel
  · exact hsel

theorem proper_of_move {p q : Panel} {a : Action} (h : ∀ f ∈ p.facets, f.Proper)
    (hm : Move s p a q) : ∀ f ∈ q.facets, f.Proper := by
  cases hm with
  | refused => exact h
  | quiet _ hq =>
    intro g hg
    obtain ⟨f, hf, hk, hs⟩ := exists_of_forall₂_right hq.forall₂ hg
    have hp := h f hf
    unfold Facet.Proper at hp ⊢
    rwa [hk, hs]
  | loaded _ hist n =>
    refine proper_turns fun g hg => ?_
    obtain ⟨f, hf, rfl⟩ := List.mem_map.1 hg
    exact Facet.proper_load (h f hf) hist
  | selected hf raw info n =>
    exact proper_turns (forall_putIn h (proper_chosen (h _ hf) _ raw info))
  | deselected hf raw n => exact proper_turns (forall_putIn h (Facet.proper_deselect (h _ hf) raw))
  | cleared hf n => exact proper_turns (forall_putIn h (Facet.proper_clear (h _ hf)))
  | reset =>
    intro g hg
    obtain ⟨f, hf, rfl⟩ := List.mem_map.1 hg
    exact Facet.proper_clear (h f hf)
  | refreshed except n => exact proper_turns h
  | grouped hg n =>
    exact forall_membersTurned (fun f scope hf => (f.steady_refreshed s scope).proper hf) _ h

/-! ## the history is the one that the selections write -/

theorem entries_of_picks {fs gs : List Facet} (h : gs.map Facet.pick = fs.map Facet.pick) :
    gs.flatMap Facet.entries = fs.flatMap Facet.entries := by
  induction fs generalizing gs with
  | nil =>
    rw [List.map_nil, List.map_eq_nil_iff] at h
    rw [h]
  | cons f fs ih =>
    cases gs with
    | nil => cases h
    | cons g gs =>
      rw [List.map_cons, List.map_cons, List.cons.injEq] at h
      rw [List.flatMap_cons, List.flatMap_cons, ih h.2, Facet.entries_of_pick h.1]

/-- the entries of a panel: its tab, and every facet in turn -/
def allEntries (p : Panel) : List (String × Option (List String)) :=
  p.tabEntry ++ p.facets.flatMap Facet.entries

theorem allEntries_congr {p q : Panel} (ht : q.tab = p.tab)
    (h : q.facets.map Facet.pick = p.facets.map Facet.pick) : q.allEntries = p.allEntries := by
  rw [allEntries, allEntries, tabEntry, tabEntry, ht, entries_of_picks h]

/-- on a ready panel, the history says what is selected -/
def Written (p : Panel) : Prop := p.phase = .ready → p.history = History.ofEntries p.allEntries

theorem Written.of_picks {p q : Panel} (h : p.Written) (ht : q.tab = p.tab)
    (hp : q.phase = p.phase) (hh : q.history = p.history)
    (hv : q.facets.map Facet.pick = p.facets.map Facet.pick) : q.Written := by
  intro hr
  rw [hh, allEntries_congr ht hv]
  exact h (hp.symm.trans hr)

theorem written_of_move {p q : Panel} {a : Action} (hp : p.Serving s) (h : p.Written)
    (hm : Move s p a q) : q.Written := by
  cases hm with
  | refused => exact h
  | quiet _ hq =>
    refine h.of_picks hq.tab hq.phase hq.history ?_
    have e := congrArg (List.map fun c : FacetKind × Selection => (c.1, c.2.values)) hq.cores
    rw [List.map_map, List.map_map] at e
    exact e
  -- these moves end with the history written
  | loaded _ _ _ | selected _ _ _ _ | deselected _ _ _ | cleared _ _ | reset | refreshed _ _ =>
    exact fun _ => rfl
  | grouped hg n => exact h.of_picks rfl rfl rfl (picks_membersTurned _ hp.distinct)

end Panel
end Triage
