import Triage.Proofs.Selections

/-!
# Panels opened from a share link

The query string of a ready panel says what is selected in it, in a form that a new panel reads back:

* `Facet.incoming_eq_values`   what a facet writes into a history, it asks for when it loads it;
* `Facet.isTrimmed_of_entries` nothing that it writes is lost by trimming;
* `Panel.clean_allEntries`     so the history of a panel reads back from its query string;
* `Panel.Linkable`             what every run keeps: proper selections, and a history that says them;
* `Panel.reopened`             a new panel that starts from the query string of a ready one selects
                               the same values in the same order, has the same query string, and
                               shows the same reports if nothing was claimed about the values.
-/

namespace Triage

namespace Facet

/-! ## one facet -/

theorem keys_entries (f : Facet) : f.entries.map (·.1) = f.kind.keys := by
  unfold entries
  cases hk : f.kind <;> rfl

theorem spelled_of_mem {f : Facet} (h : f.Proper) {v : String} (hv : v ∈ f.values) :
    f.kind.Spelled v := Selection.Proper.spelled h v hv

theorem values_of_single {f : Facet} (h : f.Proper) (hk : f.kind.mode = .single) :
    f.values = [] ∨ ∃ v, f.values = [v] := by
  have hl : f.values.length ≤ 1 := Selection.Proper.single h hk
  match hv : f.values with
  | [] => exact .inl rfl
  | [v] => exact .inr ⟨v, rfl⟩
  | v :: w :: vs =>
    rw [hv, List.length_cons, List.length_cons] at hl
    omega

/-- a selected range, as it is read -/
theorem range_of_values {f : Facet} (h : f.Proper) (hk : f.kind = .pathLength) {v : String}
    (hv : f.values = [v]) :
    ∃ r, FacetKind.IsRange r ∧ FacetKind.rangeText r = v ∧ f.range = some r := by
  have hs := spelled_of_mem h (hv ▸ List.mem_singleton_self v)
  rw [hk] at hs
  have hc := hs.canonical
  rw [FacetKind.canonical, hs.trimmed.trim] at hc
  obtain ⟨r, hr, ht⟩ := Option.map_eq_some_iff.1 hc
  refine ⟨r, FacetKind.isRange_of_range? hr, ht, ?_⟩
  rw [range, hv]
  exact hr

/-- a bound in the history, as its text -/
theorem first?_boundEntry {h : History} {key : String} {b : Option Nat}
    (hget : h.get? key = (boundEntry key b).2.bind unlessEmpty) :
    (h.first? key).getD "" = FacetKind.boundText b := by
  rw [History.first?, hget]
  cases b with
  | none => rfl
  | some n => rfl

theorem boundText_eq_empty {b : Option Nat} (h : FacetKind.boundText b = "") : b = none := by
  have hl := congrArg String.toList h
  rw [FacetKind.toList_boundText] at hl
  cases b with
  | none => rfl
  | some n => exact absurd hl (Text.digits_ne_nil n)

theorem incoming_of_pathLength {f : Facet} (hf : f.Proper) (hk : f.kind = .pathLength) {h : History}
    (hget : ∀ e ∈ f.entries, h.get? e.1 = e.2.bind unlessEmpty) :
    incoming f.kind h = f.values := by
  have he : f.entries = [boundEntry FacetKind.minKey (f.range.bind (·.min)),
      boundEntry FacetKind.maxKey (f.range.bind (·.max))] := by
    rw [entries, hk]
  rw [he, List.forall_mem_cons, List.forall_mem_singleton] at hget
  have hin : incoming f.kind h =
      if FacetKind.boundText (f.range.bind (·.min)) = "" ∧
          FacetKind.boundText (f.range.bind (·.max)) = "" then []
      else (f.kind.canonical (FacetKind.boundText (f.range.bind (·.min)) ++ ":" ++
        FacetKind.boundText (f.range.bind (·.max)))).toList := by
    rw [← first?_boundEntry hget.1, ← first?_boundEntry hget.2, hk]
    rfl
  rw [hin]
  rcases values_of_single hf (by rw [hk]; rfl) with hv | ⟨v, hv⟩
  · have hr : f.range = none := by rw [range, hv]; rfl
    rw [hr, hv]
    exact if_pos ⟨rfl, rfl⟩
  · obtain ⟨r, hr, ht, hfr⟩ := range_of_values hf hk hv
    have hs := spelled_of_mem hf (hv ▸ List.mem_singleton_self v)
    rw [hfr, Option.bind_some, Option.bind_some, if_neg]
    · show (f.kind.canonical (FacetKind.rangeText r)).toList = _
      rw [ht, hs.canonical, hv]
      rfl
    · rintro ⟨h1, h2⟩
      refine hr.bounded ?_
      rw [boundText_eq_empty h1, boundText_eq_empty h2]
      exact ⟨rfl, rfl⟩

theorem entries_of_list {f : Facet} (hk : f.kind ≠ .pathLength) :
    f.entries = [(f.kind.mainKey, unlessEmpty f.values)] := by
  unfold entries
  split
  · next e => exact absurd e hk
  · rfl

theorem incoming_of_list {f : Facet} (hf : f.Proper) (hk : f.kind ≠ .pathLength) {h : History}
    (hget : ∀ e ∈ f.entries, h.get? e.1 = e.2.bind unlessEmpty) :
    incoming f.kind h = f.values := by
  rw [entries_of_list hk, List.forall_mem_singleton] at hget
  have hin : incoming f.kind h =
      ((h.get? f.kind.mainKey).getD []).filterMap f.kind.canonical := by
    unfold incoming
    split
    · next e => exact absurd e hk
    · rfl
  have hval : (h.get? f.kind.mainKey).getD [] = f.values := by
    rw [hget]
    cases f.values with
    | nil => rfl
    | cons v vs => rfl
  rw [hin, hval]
  refine (List.filterMap_congr fun v hv => ?_).trans List.filterMap_some
  exact (spelled_of_mem hf hv).canonical

theorem isTrimmed_boundText (n : Nat) : Text.IsTrimmed (Text.integerText n) := by
  refine ⟨fun h => ?_, Text.trimChars_of_notBlank fun c hc => ?_⟩
  · cases boundText_eq_empty (b := some n) h
  · exact Text.isBlank_of_isDigit (FacetKind.isDigit_of_mem_boundText (b := some n) hc)

/-- what a facet writes into a history, it asks for when it loads it -/
theorem incoming_eq_values {f : Facet} (hf : f.Proper) {h : History}
    (hget : ∀ e ∈ f.entries, h.get? e.1 = e.2.bind unlessEmpty) :
    incoming f.kind h = f.values := by
  by_cases hk : f.kind = .pathLength
  · exact incoming_of_pathLength hf hk hget
  · exact incoming_of_list hf hk hget

theorem eq_of_unlessEmpty {l vs : List String} (h : unlessEmpty l = some vs) : vs = l := by
  cases l with
  | nil => cases h
  | cons v l => exact (Option.some.inj h).symm

/-- all that a facet writes is trimmed -/
theorem isTrimmed_of_entries {f : Facet} (hf : f.Proper) {e : String × Option (List String)}
    (he : e ∈ f.entries) {vs : List String} (hvs : vs ∈ e.2) {v : String} (hv : v ∈ vs) :
    Text.IsTrimmed v := by
  have hbound : ∀ key b, vs ∈ (boundEntry key b).2 → Text.IsTrimmed v := by
    intro key b hb
    cases b with
    | none => cases hb
    | some n =>
      cases hb
      rw [List.mem_singleton.1 hv]
      exact isTrimmed_boundText n
  by_cases hk : f.kind = .pathLength
  · rw [entries, hk] at he
    rcases List.mem_cons.1 he with rfl | he
    · exact hbound _ _ hvs
    · rw [List.mem_singleton.1 he] at hvs
      exact hbound _ _ hvs
  · rw [entries_of_list hk] at he
    rw [List.mem_singleton.1 he] at hvs
    rw [eq_of_unlessEmpty (Option.mem_def.1 hvs)] at hv
    exact (spelled_of_mem hf hv).trimmed

end Facet

namespace Panel

variable {s : Store}

/-! ## the history of a panel -/

/-- every key of the standard panel -/
def allKeys : List String := tabKey :: FacetKind.all.flatMap FacetKind.keys

theorem nodup_allKeys : allKeys.Nodup := by decide

theorem isTrimmed_allKeys : ∀ k ∈ allKeys, Text.IsTrimmed k := by
  show ∀ k ∈ allKeys, k ≠ "" ∧ Text.trimChars k.toList = k.toList
  decide +kernel

theorem keys_allEntries {p : Panel} {tab : String} (ht : p.tab = some tab)
    (hk : p.facets.map (·.kind) = FacetKind.all) : p.allEntries.map (·.1) = allKeys := by
  rw [allEntries, tabEntry, ht, List.map_append, List.map_flatMap, allKeys, ← hk, List.flatMap_map]
  show tabKey :: List.flatMap _ _ = _
  exact congrArg (tabKey :: List.flatMap · p.facets) (funext Facet.keys_entries)

theorem mem_allEntries {p : Panel} {f : Facet} (hf : f ∈ p.facets)
    {e : String × Option (List String)} (he : e ∈ f.entries) : e ∈ p.allEntries :=
  List.mem_append_right _ (List.mem_flatMap.2 ⟨f, hf, he⟩)

/-- the history of a panel reads back from its query string -/
theorem clean_allEntries {p : Panel} {tab : String} (ht : p.tab = some tab)
    (htrim : Text.IsTrimmed tab) (hk : p.facets.map (·.kind) = FacetKind.all)
    (hp : ∀ f ∈ p.facets, f.Proper) : (History.ofEntries p.allEntries).Clean := by
  have hkeys := keys_allEntries ht hk
  refine History.clean_ofEntries (hkeys ▸ nodup_allKeys) ?_ ?_
  · intro e he
    refine isTrimmed_allKeys _ ?_
    rw [← hkeys]
    exact List.mem_map.2 ⟨e, he, rfl⟩
  · intro e he vs hvs v hv
    rcases List.mem_append.1 he with he | he
    · rw [tabEntry, ht, List.mem_singleton] at he
      rw [he] at hvs
      cases hvs
      rw [List.mem_singleton.1 hv]
      exact htrim
    · obtain ⟨f, hf, hef⟩ := List.mem_flatMap.1 he
      exact Facet.isTrimmed_of_entries (hp f hf) hef hvs hv

/-! ## what a run leaves of a panel -/

/-- the selections are proper, and the history of a ready panel says what they are -/
structure Linkable (p : Panel) : Prop where
  proper : ∀ f ∈ p.facets, f.Proper
  written : p.Written

theorem linkable_standard (config : Config) (s : Store) (tab : String) :
    (standard config { store := s } tab).Linkable := by
  refine ⟨fun f hf => ?_, fun h => by cases h⟩
  obtain ⟨k, -, rfl⟩ := List.mem_map.1 hf
  exact Facet.proper_make k _

theorem linkable_of_move {p q : Panel} {a : Action} (hs : p.Serving s) (h : p.Linkable)
    (hm : Move s p a q) : q.Linkable :=
  ⟨proper_of_move h.proper hm, written_of_move hs h.written hm⟩

theorem linkable_run (config : Config) (s : Store) (tab : String) (as : List Action) :
    ((standard config { store := s } tab).run as).Linkable :=
  (invariant_run (fun _ _ _ hs h hm => linkable_of_move hs h hm) as
    (serving_standard config s tab) (linkable_standard config s tab)).2

/-- a ready panel stays ready -/
theorem ready_of_move {p q : Panel} {a : Action} (h : p.phase = .ready) (hm : Move s p a q) :
    q.phase = .ready := by
  cases hm with
  | quiet _ hq => exact hq.phase.trans h
  | loaded _ _ _ => rfl
  | refused | selected _ _ _ _ | deselected _ _ _ | cleared _ _ | reset | refreshed _ _
  | grouped _ _ => exact h

theorem ready_run {p : Panel} (hs : p.Serving s) (h : p.phase = .ready) (as : List Action) :
    (p.run as).phase = .ready :=
  (invariant_run (I := fun p => p.phase = .ready) (fun _ _ _ _ h hm => ready_of_move h hm) as
    hs h).2

theorem run_append (p : Panel) (as bs : List Action) : p.run (as ++ bs) = (p.run as).run bs :=
  List.foldl_append

/-- while nothing is claimed about a value, all names are looked up -/
theorem resolved_run (config : Config) (s : Store) (tab : String) {as : List Action}
    (has : ∀ a ∈ as, a.isPlain = true) :
    ∀ f ∈ ((standard config { store := s } tab).run as).facets, f.Resolved s := by
  refine (run_induction (I := fun p => ∀ f ∈ p.facets, f.Resolved s)
    (fun _ _ _ _ ha h hm => resolved_of_move ha h hm) as (serving_standard config s tab) has
    fun f hf => ?_).2
  obtain ⟨k, -, rfl⟩ := List.mem_map.1 hf
  intro _ i hi
  cases hi

/-! ## a new panel -/

theorem facets_standard (config : Config) (g : Gateway) (tab : String) :
    (standard config g tab).facets = FacetKind.all.map (Facet.make · config.searchDebounceMs) := rfl

theorem facets_takingOver (p : Panel) (h : History) :
    (p.takingOver h).facets = p.facets.map fun f => f.load h := rfl

theorem start_eq {p : Panel} {h : History} (hu : p.phase = .uninitialized)
    (ht : p.tab.isSome = true) (hf : h.first? tabKey = p.tab) :
    p.start h = some (p.load h .deepLink) := if_pos ⟨hu, ht, hf⟩

/-- a new panel takes over the selections of a panel from its history -/
theorem picks_reopened (config : Config) (tab : String) {p : Panel}
    (ht : p.tab = some tab) (hk : p.facets.map (·.kind) = FacetKind.all)
    (hp : ∀ f ∈ p.facets, f.Proper) :
    ((standard config { store := s } tab).takingOver
        (History.ofEntries p.allEntries)).facets.map Facet.pick = p.facets.map Facet.pick := by
  have hnodup : (p.allEntries.map (·.1)).Nodup := keys_allEntries ht hk ▸ nodup_allKeys
  have hin : ∀ f ∈ p.facets, Facet.incoming f.kind (History.ofEntries p.allEntries) = f.values :=
    fun f hf => Facet.incoming_eq_values (hp f hf) fun e he =>
      History.get?_ofEntries hnodup (mem_allEntries hf he)
  rw [facets_takingOver, facets_standard, ← hk, List.map_map, List.map_map, List.map_map]
  refine List.map_congr_left fun f hf => ?_
  have hv : (Facet.load (Facet.make f.kind config.searchDebounceMs)
      (History.ofEntries p.allEntries)).values = f.values := by
    rw [Facet.values_load_fresh (Facet.proper_make f.kind _) rfl]
    · exact hin f hf
    · show (Facet.incoming f.kind _).Nodup
      rw [hin f hf]
      exact Selection.Proper.distinct (hp f hf)
    · intro hs
      show (Facet.incoming f.kind _).length ≤ 1
      rw [hin f hf]
      exact Selection.Proper.single (hp f hf) hs
  exact congrArg (Prod.mk f.kind) hv

/-- lists that read the same are related facet by facet -/
theorem forall₂_of_map_eq {α : Type} {read : Facet → α} {R : Facet → Facet → Prop}
    {fs gs : List Facet} (h : gs.map read = fs.map read)
    (hR : ∀ g ∈ gs, ∀ f ∈ fs, read g = read f → R g f) : List.Forall₂ R gs fs := by
  induction fs generalizing gs with
  | nil =>
    rw [List.map_nil, List.map_eq_nil_iff] at h
    rw [h]
    exact .nil
  | cons f fs ih =>
    cases gs with
    | nil => cases h
    | cons g gs =>
      rw [List.map_cons, List.map_cons, List.cons.injEq] at h
      refine .cons (hR g List.mem_cons_self f List.mem_cons_self h.1) (ih h.2 ?_)
      exact fun g' hg' f' hf' =>
        hR g' (List.mem_cons_of_mem _ hg') f' (List.mem_cons_of_mem _ hf')

theorem forall₂_of_picks {R : Facet → Facet → Prop} {fs gs : List Facet}
    (h : gs.map Facet.pick = fs.map Facet.pick)
    (hR : ∀ g ∈ gs, ∀ f ∈ fs, g.kind = f.kind → g.values = f.values → R g f) :
    List.Forall₂ R gs fs :=
  forall₂_of_map_eq h fun g hg f hf e =>
    hR g hg f hf (congrArg Prod.fst e) (congrArg Prod.snd e)

/-- a load writes the query string of a panel with the same tab and the same values -/
theorem queryString_loaded {p r : Panel} {h : History} {n : Nat} (ht : p.tab = r.tab)
    (hpicks : (loaded s p h n).facets.map Facet.pick = r.facets.map Facet.pick)
    (hr : r.history = History.ofEntries r.allEntries) :
    (loaded s p h n).queryString = r.queryString := by
  have htab : (loaded s p h n).tab = r.tab := ht
  have hhist : (loaded s p h n).history = History.ofEntries (loaded s p h n).allEntries := rfl
  rw [queryString, queryString, hhist, hr, allEntries_congr htab hpicks]

/-- A new panel that starts from the history of a ready panel of the same store: it has the same
values selected and the same query string, and all its names looked up. -/
theorem started_from_history (config : Config) (s : Store) {tab : String} {p : Panel}
    (ht : p.tab = some tab) (hk : p.facets.map (·.kind) = FacetKind.all) (hp : p.Linkable)
    (hready : p.phase = .ready) :
    ∃ t q, (standard config { store := s } tab).start p.history = some (t, q) ∧
      q.facets.map Facet.pick = p.facets.map Facet.pick ∧ q.queryString = p.queryString ∧
      ∀ f ∈ q.facets, f.Resolved s := by
  have hhist : p.history = History.ofEntries p.allEntries := hp.written hready
  have hnodup : (p.allEntries.map (·.1)).Nodup := keys_allEntries ht hk ▸ nodup_allKeys
  have hfirst : p.history.first? tabKey = some tab := by
    have hmem : (tabKey, some [tab]) ∈ p.allEntries := by
      rw [allEntries, tabEntry, ht]
      exact List.mem_cons_self
    rw [History.first?, hhist, History.get?_ofEntries hnodup hmem]
    rfl
  have hstart := start_eq (p := standard config { store := s } tab) rfl rfl hfirst
  obtain ⟨n, hload⟩ := load_eq (serving_standard config s tab) p.history .deepLink
  have hasked : (standard config { store := s } tab).asked p.history .deepLink = p.history :=
    if_neg fun h => by cases h.2
  rw [hasked] at hload
  have hpicks : (loaded s (standard config { store := s } tab) p.history n).facets.map Facet.pick =
      p.facets.map Facet.pick := by
    refine (picks_turns _ _ _ _).trans ?_
    rw [hhist]
    exact picks_reopened config tab ht hk hp.proper
  refine ⟨((standard config { store := s } tab).load p.history .deepLink).1,
    loaded s (standard config { store := s } tab) p.history n, ?_, hpicks, ?_,
    resolved_loaded _ p.history n⟩
  · rw [hstart, ← hload]
  · exact queryString_loaded ht.symm hpicks hhist

/-- Whatever is done to a panel once it is ready, a new panel of the same store starts from its
query string: it has the same values selected in the same order and the same query string, and it
shows the same reports unless something was claimed about a value. -/
theorem reopened (config : Config) (s : Store) (tab : String) (htab : Text.IsTrimmed tab)
    (before after : List Action)
    (hready : ((standard config { store := s } tab).run before).phase = .ready) :
    let fresh := standard config { store := s } tab
    let p := (fresh.run before).run after
    ∃ t q, fresh.start (History.parse p.queryString) = some (t, q) ∧
      q.facets.map (fun f => (f.id, f.values)) = p.facets.map (fun f => (f.id, f.values)) ∧
      q.queryString = p.queryString ∧
      ((∀ a ∈ before ++ after, a.isPlain = true) →
        s.results q.query.scope = s.results p.query.scope) := by
  intro fresh p
  have h0 : fresh.Serving s := serving_standard config s tab
  have hrun : p = fresh.run (before ++ after) := (run_append fresh before after).symm
  have hphase : p.phase = .ready := ready_run (standard_run config s tab before).1 hready after
  have ht : p.tab = some tab := hrun ▸ (kept_run h0 (before ++ after)).tab
  have hk : p.facets.map (·.kind) = FacetKind.all :=
    hrun ▸ (standard_run config s tab (before ++ after)).2
  have hp : p.Linkable := hrun ▸ linkable_run config s tab (before ++ after)
  have hparse : History.parse p.queryString = p.history := by
    rw [queryString, hp.written hphase]
    exact History.parse_queryString (clean_allEntries ht htab hk hp.proper)
  obtain ⟨t, q, hstart, hpicks, hquery, hres⟩ := started_from_history config s ht hk hp hphase
  refine ⟨t, q, hparse.symm ▸ hstart, ?_, hquery, ?_⟩
  · have e := congrArg (List.map fun c : FacetKind × List String => (c.1.id, c.2)) hpicks
    rw [List.map_map, List.map_map] at e
    exact e
  · intro hplain
    have hres' : ∀ f ∈ p.facets, f.Resolved s := hrun ▸ resolved_run config s tab hplain
    refine Store.results_congr s (Query.Alike.scope (queryOf_congr ?_))
    exact forall₂_of_picks hpicks fun g hg f hf hkind hv =>
      Facet.alike_of_resolved (hres g hg) (hres' f hf) hkind hv

/-- a name, a path that has to be escaped, and a length -/
def linkedChoices : List Action :=
  [.select "run" " alpha" {}, .select "filepath" "/a & b.c" {}, .select "bug-path-length" "3: " {}]

theorem reopened_linkedChoices :
    let fresh := standard {} { store := twoRuns } "reports"
    let p := (fresh.run [.appear {} .deepLink]).run linkedChoices
    Text.IsTrimmed "reports" ∧ (fresh.run [.appear {} .deepLink]).phase = .ready ∧
    (∀ a ∈ [.appear {} .deepLink] ++ linkedChoices, a.isPlain = true) ∧
    p.queryString = "tab=reports&run=alpha&min-bug-path-length=3&filepath=%2Fa+%26+b.c" ∧
    ∃ t q, fresh.start (History.parse p.queryString) = some (t, q) ∧
      q.facets.map (fun f => (f.id, f.values)) = p.facets.map (fun f => (f.id, f.values)) ∧
      q.queryString = p.queryString ∧
      ((∀ a ∈ [.appear {} .deepLink] ++ linkedChoices, a.isPlain = true) →
        twoRuns.results q.query.scope = twoRuns.results p.query.scope) :=
  ⟨⟨by decide, by decide +kernel⟩, by decide +kernel, by decide, by decide +kernel,
    reopened {} twoRuns "reports" ⟨by decide, by decide +kernel⟩ [.appear {} .deepLink]
      linkedChoices (by decide +kernel)⟩

end Panel
end Triage
