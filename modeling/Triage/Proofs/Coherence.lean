import Triage.Proofs.Histories
import Triage.Proofs.Runs

/-!
# Counts keep up with the query

While nothing is taken from a history and no request claims knowledge about a value:

* `CoherentAt s shown fs`   all names have been looked up, and every facet with counts that is shown
                            has those of the scope that the other facets make;
* `coherentAt_turns`        a round leaves that behind, if it holds of the facets that the round
                            leaves out;
* `coherentAt_member`       and so does a group that opens, one member after the other;
* `Panel.Coherent`          the invariant of a run (`coherent_of_move`);
* `counts_of_run`           in every state that a run reaches, asking again for the counts of a facet
                            that is not in a collapsed group changes none of them.
-/

namespace Triage

namespace Panel

/-- the counts of the facets that are shown are those of the scope they are shown with -/
structure CoherentAt (s : Store) (shown : String → Prop) (fs : List Facet) : Prop where
  resolved : ∀ f ∈ fs, f.Resolved s
  counted : ∀ f ∈ fs, f.kind.isCountSensitive = true → shown f.id →
    f.Counted s (scopeOf fs f.id)

variable {s : Store} {shown : String → Prop} {fs : List Facet}

theorem CoherentAt.mono {shown' : String → Prop} (h : CoherentAt s shown fs)
    (k : ∀ f ∈ fs, shown' f.id → shown f.id) : CoherentAt s shown' fs :=
  ⟨h.resolved, fun f hf hc hs => h.counted f hf hc (k f hf hs)⟩

/-- nothing is selected, so there is nothing to count -/
theorem coherentAt_of_empty (h : ∀ f ∈ fs, f.selection.items = []) : CoherentAt s shown fs := by
  constructor
  · intro f hf _ i hi
    rw [h f hf] at hi
    cases hi
  · intro f hf _ _ i hi
    rw [h f hf] at hi
    cases hi

/-- the selections and the kinds say everything -/
theorem CoherentAt.of_forall₂ {gs : List Facet} (h : CoherentAt s shown fs)
    (k : List.Forall₂ (fun f g : Facet => g.kind = f.kind ∧ g.selection = f.selection) fs gs) :
    CoherentAt s shown gs := by
  have ha : List.Forall₂ Facet.Alike fs gs := k.imp fun f g e =>
    ⟨e.1.symm, congrArg Selection.values e.2.symm, fun _ => e.2 ▸ .refl _⟩
  constructor
  · intro g hg
    obtain ⟨f, hf, hk, hs⟩ := exists_of_forall₂_right k hg
    exact (h.resolved f hf).of_selection hk hs
  · intro g hg hc hsh
    obtain ⟨f, hf, hk, hs⟩ := exists_of_forall₂_right k hg
    have hid : g.id = f.id := congrArg FacetKind.id hk
    rw [hid] at hsh ⊢
    exact ((h.counted f hf (hk ▸ hc) hsh).congr (scopeOf_congr ha f.id) (hk ▸ hc)).of_selection
      hk hs

/-! ## rounds and members -/

/-- A round takes every facet to its counts.  The facets it leaves out must have theirs before. -/
theorem coherentAt_turns {closed : String → Bool} {except : List String}
    (hr : ∀ f ∈ fs, f.Resolved s)
    (he : ∀ f ∈ fs, f.kind.isCountSensitive = true → closed f.id = false →
      except.contains f.id = true → f.Counted s (scopeOf fs f.id)) :
    CoherentAt s (fun id => closed id = false) (turns s closed except [] fs) := by
  have ht := turns_resolved s closed except fs [] hr
  have ha := alike_turns s closed except [] fs hr
  constructor
  · intro g hg
    obtain ⟨f, hf, scope, -, rfl⟩ := exists_of_forall₂_right ht hg
    exact resolved_turn scope (hr f hf)
  · intro g hg hc ho
    obtain ⟨f, hf, scope, hs, rfl⟩ := exists_of_forall₂_right ht hg
    have hk := (steady_turn s closed except scope f).kind
    have hid := (steady_turn s closed except scope f).id_eq
    rw [hk] at hc
    rw [hid] at ho ⊢
    rw [List.nil_append] at hs
    have hscope : (scopeOf fs f.id).Alike (scopeOf (turns s closed except [] fs) f.id) :=
      (scopeOf_congr ha f.id).symm
    cases hx : except.contains f.id with
    | true =>
      rw [turn_of_except hx]
      exact (he f hf hc ho hx).congr hscope hc
    | false =>
      exact (counted_turn_of_open scope hx ho hc).congr (hs.trans hscope) (hk.symm ▸ hc)

theorem alike_putIn (hd : Distinct fs) {f g : Facet} (hf : f ∈ fs) (h : f.Alike g) :
    List.Forall₂ Facet.Alike fs (putIn g fs) := by
  obtain ⟨before, after, rfl⟩ := List.append_of_mem hf
  rw [putIn_split hd h.kind.symm]
  exact forall₂_alike_replace before after h

/-- one member of a group that opens, and with it its own counts -/
theorem coherentAt_member (hd : Distinct fs) (h : CoherentAt s shown fs) {f : Facet} (hf : f ∈ fs) :
    CoherentAt s (fun id => shown id ∨ id = f.id)
      (putIn (f.refreshed s (scopeOf fs f.id)) fs) := by
  have hst := f.steady_refreshed s (scopeOf fs f.id)
  have hr := f.resolved_refreshed s (scopeOf fs f.id)
  have ha : List.Forall₂ Facet.Alike fs (putIn (f.refreshed s (scopeOf fs f.id)) fs) :=
    alike_putIn hd hf
      (Facet.alike_of_resolved (h.resolved f hf) hr hst.kind.symm hst.values.symm)
  constructor
  · intro g hg
    rcases mem_putIn hg with rfl | ⟨hg, -⟩
    · exact hr
    · exact h.resolved g hg
  · intro g hg hc hs
    rcases mem_putIn hg with rfl | ⟨hg, hne⟩
    · rw [hst.kind] at hc
      rw [hst.id_eq]
      exact (f.counted_refreshed s _ hc).congr (scopeOf_congr ha f.id) (hst.kind.symm ▸ hc)
    · rcases hs with hs | hs
      · exact (h.counted g hg hc hs).congr (scopeOf_congr ha g.id) hc
      · exact absurd ((FacetKind.id_inj hs).trans hst.kind.symm) hne

theorem ids_of_kinds {fs gs : List Facet} (h : gs.map (·.kind) = fs.map (·.kind)) :
    gs.map Facet.id = fs.map Facet.id := by
  have e := congrArg (List.map FacetKind.id) h
  rw [List.map_map, List.map_map] at e
  exact e

theorem coherentAt_members (ms : List String) : ∀ {fs : List Facet} {shown : String → Prop},
    Distinct fs → CoherentAt s shown fs →
    CoherentAt s (fun id => shown id ∨ id ∈ ms) (membersTurned s ms fs) := by
  induction ms with
  | nil =>
    intro fs shown _ h
    exact h.mono fun f _ hid => hid.resolve_right List.not_mem_nil
  | cons m ms ih =>
    intro fs shown hd h
    rw [membersTurned]
    cases hx : fs.find? (·.id == m) with
    | none =>
      refine (ih hd h).mono fun g hg hid => hid.imp_right fun hm => ?_
      -- no facet has this name
      have hne : g.id ≠ m := by
        have hmem := List.mem_map_of_mem (f := Facet.id) hg
        rw [ids_of_kinds (kinds_membersTurned ms fs)] at hmem
        obtain ⟨f, hf, he⟩ := List.mem_map.1 hmem
        rw [← he]
        simpa using List.find?_eq_none.1 hx f hf
      exact (List.mem_cons.1 hm).resolve_left hne
    | some g =>
      have hg := List.mem_of_find?_eq_some hx
      have hgm : g.id = m := by simpa using List.find?_some hx
      have hk := kinds_putIn (g.refreshed s (scopeOf fs g.id)) fs
      refine (ih (hd.of_kinds hk) (coherentAt_member hd h hg)).mono ?_
      rintro f - (hid | hid)
      · exact .inl (.inl hid)
      · rcases List.mem_cons.1 hid with hid | hid
        · exact .inl (.inr (hid.trans hgm.symm))
        · exact .inr hid

/-! ## changes of one facet -/

/-- A facet changed, its names looked up and its counts those of the scope: a round over the others
does the rest. -/
theorem coherentAt_changed {closed : String → Bool} (h : ∀ f ∈ fs, f.Resolved s) {g : Facet}
    (hg : g.Resolved s)
    (hc : g.kind.isCountSensitive = true → closed g.id = false →
      g.Counted s (scopeOf fs g.id)) :
    CoherentAt s (fun id => closed id = false) (turns s closed [g.id] [] (putIn g fs)) := by
  refine coherentAt_turns ?_ ?_
  · intro f hf
    rcases mem_putIn hf with rfl | ⟨hf, -⟩
    · exact hg
    · exact h f hf
  · intro f hf hs ho hx
    have hid : f.id = g.id := by simpa using hx
    rcases mem_putIn hf with rfl | ⟨-, hne⟩
    · rw [scopeOf_putIn]
      exact hc hs ho
    · exact absurd (FacetKind.id_inj hid) hne

theorem mem_items_deselect {f : Facet} {raw : String} {i : Choice}
    (h : i ∈ (f.deselect raw).selection.items) : i ∈ f.selection.items :=
  (List.mem_filter.1 h).1

theorem items_clear (f : Facet) : f.clear.selection.items = [] := rfl

/-- a value selected without knowledge about it has been looked up before the round -/
theorem resolved_chosen (scope : Scope) {f : Facet} (raw : String) {info : ValueInfo}
    (hi : info.isEmpty = true) : (chosen s scope f raw info).Resolved s := by
  unfold chosen
  rw [hi, Bool.true_and]
  by_cases hc : f.kind.isCountSensitive = true
  · rw [if_pos hc]
    exact (f.select raw info).resolved_refreshed s scope
  · rw [if_neg hc]
    intro hn
    rw [kind_select] at hn
    exact absurd (FacetKind.isCountSensitive_of_isName hn) hc

theorem counted_chosen (scope : Scope) {f : Facet} (raw : String) {info : ValueInfo}
    (hi : info.isEmpty = true) (hc : f.kind.isCountSensitive = true) :
    (chosen s scope f raw info).Counted s scope := by
  unfold chosen
  rw [hi, Bool.true_and, if_pos hc]
  exact (f.select raw info).counted_refreshed s scope (by rw [kind_select]; exact hc)

/-! ## the invariant of a run -/

/-- on a ready panel, every facet with counts that is not in a collapsed group has those of the
scope it is shown with -/
structure Coherent (s : Store) (p : Panel) : Prop where
  ready : p.phase = .ready
  coherent : CoherentAt s (fun id => p.inClosedGroup id = false) p.facets

theorem closedIn_setFirst {name : String} {expanded : Bool} {groups groups' : List Group}
    {old : Group} (h : setFirst name expanded groups = some (old, groups')) {id : String}
    (hc : closedIn groups' id = false) :
    closedIn groups id = false ∨ (expanded = true ∧ old.expanded = false ∧ id ∈ old.members) := by
  induction groups generalizing groups' with
  | nil => cases h
  | cons g gs ih =>
    rw [setFirst] at h
    rw [closedIn, List.any_cons, Bool.or_eq_false_iff]
    by_cases hn : g.name = name
    · rw [if_pos hn] at h
      cases h
      rw [closedIn, List.any_cons, Bool.or_eq_false_iff] at hc
      obtain ⟨h1, h2⟩ := hc
      by_cases hm : id ∈ old.members
      · have he : expanded = true := by simpa [hm] using h1
        cases ho : old.expanded with
        | true => exact .inl ⟨by simp, h2⟩
        | false => exact .inr ⟨he, rfl, hm⟩
      · exact .inl ⟨by simp [hm], h2⟩
    · rw [if_neg hn] at h
      obtain ⟨r, hr, hp⟩ := Option.map_eq_some_iff.1 h
      cases hp
      rw [closedIn, List.any_cons, Bool.or_eq_false_iff] at hc
      exact (ih hr hc.2).imp_left fun k => ⟨hc.1, k⟩

theorem coherent_of_move {p q : Panel} {a : Action} (hp : p.Serving s)
    (ha : a.isPlain = true ∧ a.isLoading = false) (h : p.Coherent s) (hm : Move s p a q) :
    q.Coherent s := by
  have hres := h.coherent.resolved
  cases hm with
  | refused => exact h
  | quiet _ hq =>
    refine ⟨hq.phase.trans h.ready, ?_⟩
    have he : q.inClosedGroup = p.inClosedGroup := by
      funext id
      rw [inClosedGroup_eq, inClosedGroup_eq, hq.groups]
    rw [he]
    exact h.coherent.of_forall₂ hq.forall₂
  | loaded hl => exact absurd hl (by rw [ha.2]; decide)
  | @selected f hf raw info n =>
    refine ⟨h.ready, coherentAt_changed hres (resolved_chosen _ raw ha.1) fun hc _ => ?_⟩
    have hk := kind_chosen (s := s) (scopeOf p.facets f.id) f raw info
    have hid : (chosen s (scopeOf p.facets f.id) f raw info).id = f.id := congrArg FacetKind.id hk
    rw [hid]
    exact counted_chosen _ raw ha.1 (hk ▸ hc)
  | @deselected f hf raw n =>
    refine ⟨h.ready, coherentAt_changed hres ?_ fun hc ho i hi => ?_⟩
    · exact fun hn i hi => hres f hf hn i (mem_items_deselect hi)
    · exact h.coherent.counted f hf hc ho i (mem_items_deselect hi)
  | @cleared f hf n =>
    refine ⟨h.ready, coherentAt_changed hres ?_ ?_⟩
    · intro _ i hi
      cases hi
    · intro _ _ i hi
      cases hi
  | reset =>
    refine ⟨h.ready, coherentAt_of_empty fun f hf => ?_⟩
    obtain ⟨g, -, rfl⟩ := List.mem_map.1 hf
    exact items_clear g
  | refreshed except n =>
    refine ⟨h.ready, coherentAt_turns hres fun f hf hc ho _ => ?_⟩
    exact h.coherent.counted f hf hc ho
  | @grouped name expanded old groups hg n =>
    refine ⟨h.ready, (coherentAt_members _ hp.distinct h.coherent).mono fun f hf hc => ?_⟩
    refine (closedIn_setFirst hg hc).imp_right ?_
    rintro ⟨he, ho, hm⟩
    have hop : p.opening old expanded = old.members := by
      rw [opening, he, ho, h.ready]
      rfl
    rw [hop]
    exact hm

/-! ## the first load -/

theorem get?_withDefaultStatuses_ne {p : Panel} (h : History) {key : String}
    (hd : key ≠ FacetKind.detectionStatus.id) :
    (p.withDefaultStatuses h).get? key = h.get? key := by
  unfold withDefaultStatuses
  dsimp only
  split
  · split
    · rfl
    · exact History.get?_set_ne hd h _
  · rfl

theorem get?_withDefaultUnique_ne {p : Panel} (h : History) {key : String}
    (hu : key ≠ FacetKind.unique.id) : (p.withDefaultUnique h).get? key = h.get? key := by
  unfold withDefaultUnique
  dsimp only
  split
  · exact History.get?_put_ne hu _ _
  · rfl

theorem get?_withDefaults {p : Panel} (h : History) {key : String}
    (hd : key ≠ FacetKind.detectionStatus.id) (hu : key ≠ FacetKind.unique.id) :
    (p.withDefaults h).get? key = h.get? key :=
  (get?_withDefaultUnique_ne _ hu).trans (get?_withDefaultStatuses_ne h hd)

theorem get?_asked {p : Panel} {key : String} (hd : key ≠ FacetKind.detectionStatus.id)
    (hu : key ≠ FacetKind.unique.id) (h : History) (origin : Origin) :
    (p.asked h origin).get? key = h.get? key := by
  unfold asked
  split
  · exact get?_withDefaults h hd hu
  · rfl

theorem incoming_of_absent {k : FacetKind} {h : History} (hk : k.mainKey = k.id)
    (hget : h.get? k.id = none) : Facet.incoming k h = [] := by
  unfold Facet.incoming
  split
  · exact absurd hk (by decide)
  · rw [hk, hget]
    rfl

/-- a facet that a history says nothing about is empty after a load -/
theorem items_load_of_incoming {f : Facet} {h : History} (hi : Facet.incoming f.kind h = []) :
    (f.load h).selection.items = [] := by
  have hl : (f.load h).selection = f.kept [] := by
    rw [Facet.load, hi]
    rfl
  rw [hl]
  unfold Facet.kept
  split
  · rfl
  · exact List.filter_eq_nil_iff.2 fun i _ => by simp

/-- the defaults select no run and no tag -/
theorem resolved_load_empty (p : Panel) (f : Facet) (origin : Origin) :
    (f.load (p.asked {} origin)).Resolved s := by
  intro hn i hi
  have hk : f.kind.isName = true := hn
  have hmain : f.kind.mainKey = f.kind.id := by
    cases hf : f.kind <;> first | rfl | (rw [hf] at hk; exact absurd hk (by decide))
  have hd : f.kind.id ≠ FacetKind.detectionStatus.id := fun e => by
    rw [FacetKind.id_inj e] at hk
    exact absurd hk (by decide)
  have hu : f.kind.id ≠ FacetKind.unique.id := fun e => by
    rw [FacetKind.id_inj e] at hk
    exact absurd hk (by decide)
  have hget : (p.asked {} origin).get? f.kind.id = none :=
    (get?_asked hd hu {} origin).trans rfl
  rw [items_load_of_incoming (incoming_of_absent hmain hget)] at hi
  cases hi

theorem coherent_appear {p : Panel} (hp : p.Serving s) (hu : p.phase = .uninitialized)
    (origin : Origin) : (p.perform (.appear {} origin)).Coherent s := by
  have ha : p.appear {} origin = some (p.load {} origin) := if_pos hu
  obtain ⟨n, hl⟩ := load_eq hp {} origin
  show (p.loadedOr (p.appear {} origin)).Coherent s
  rw [ha]
  show (p.load {} origin).2.Coherent s
  rw [hl]
  refine ⟨rfl, coherentAt_turns (fun f hf => ?_) fun f _ _ _ hx => ?_⟩
  · obtain ⟨g, -, rfl⟩ := List.mem_map.1 hf
    exact resolved_load_empty p g origin
  · exact absurd hx (by simp)

end Panel

/-! ## counts of a run -/

namespace Facet

/-- the same selected values with the same counts and the same ids, in whatever order -/
def CountsAgree (f g : Facet) : Prop :=
  List.Forall₂ (fun i j : Choice => j.value = i.value ∧ i.info.Alike j.info)
    f.selection.items g.selection.items

theorem countsAgree_refreshed {s : Store} {f : Facet} {scope : Scope}
    (hk : f.kind.isCountSensitive = true)
    (h : f.Counted s scope) : CountsAgree f (f.refreshed s scope) := by
  unfold refreshed
  by_cases hc : f.hasCounts = true
  · rw [if_pos hc, CountsAgree, items_reconcile, List.forall₂_map_right_iff, List.forall₂_same]
    intro i hi
    refine ⟨rfl, (h i hi).trans ?_⟩
    exact (f.kind.observed_answer hk s scope (List.mem_map.2 ⟨i, hi, rfl⟩)).symm
  · rw [if_neg hc]
    exact List.forall₂_same.2 fun i _ => ⟨rfl, .refl _⟩

end Facet

namespace Panel

/-- No request leaves a count behind the query it is shown with: in every state that a run reaches,
asking again for the counts of a facet that is not in a collapsed group succeeds and changes none of
them. -/
theorem counts_of_run (config : Config) (s : Store) (tab : String) (origin : Origin)
    (as : List Action) (has : ∀ a ∈ as, a.isPlain = true ∧ a.isLoading = false) :
    let p := ((standard config { store := s } tab).perform (.appear {} origin)).run as
    ∀ f ∈ p.facets, f.kind.isCountSensitive = true → p.inClosedGroup f.id = false →
      (f.refresh (p.scopeWithout f.id) p.gateway).1 ≠ .failed ∧
        f.CountsAgree (f.refresh (p.scopeWithout f.id) p.gateway).2.1 := by
  have h0 := serving_standard config s tab
  obtain ⟨hs, hc⟩ := run_induction (I := Coherent s)
    (fun _ _ _ hp ha hi hm => coherent_of_move hp ha hi hm) as
    (serving_perform h0 (.appear {} origin)) has (coherent_appear h0 rfl origin)
  intro p f hf hk ho
  rw [Facet.refresh_run f _ hs.answers, scopeWithout_eq]
  refine ⟨?_, ?_⟩
  · dsimp only
    split <;> decide
  · show f.CountsAgree (f.refreshed p.gateway.store (scopeOf p.facets f.id))
    rw [hs.store]
    exact Facet.countsAgree_refreshed hk (hc.coherent.counted f hf hk ho)

/-- two choices, of which the second changes the count of the first -/
def twoChoices : List Action := [.select "run" "alpha" {}, .select "filepath" "/b.c" {}]

theorem counts_of_run_twoChoices :
    (∀ a ∈ twoChoices, a.isPlain = true ∧ a.isLoading = false) ∧
    let p := ((standard {} { store := twoRuns } "reports").perform (.appear {} .deepLink)).run
      twoChoices
    ((p.find? "run").map fun f => f.selection.items) = some [⟨"alpha", ⟨some 0, [1]⟩⟩] ∧
    ∀ f ∈ p.facets, f.kind.isCountSensitive = true → p.inClosedGroup f.id = false →
      (f.refresh (p.scopeWithout f.id) p.gateway).1 ≠ .failed ∧
        f.CountsAgree (f.refresh (p.scopeWithout f.id) p.gateway).2.1 :=
  ⟨by decide, by decide +kernel,
    counts_of_run {} twoRuns "reports" .deepLink twoChoices (by decide)⟩

end Panel
end Triage
