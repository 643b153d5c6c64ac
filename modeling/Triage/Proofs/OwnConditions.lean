import Triage.Proofs.Names

/-!
# The query without one facet

A facet is asked for candidates and counts under the conditions of the other facets.  Every kind
writes into a place of its own, so it does not matter when a facet has its turn to write:

* `Facet.addTo_comm`           facets of two kinds write in either order;
* `Panel.queryOf_eq_addTo`     the query is what the others say, and then what one facet says;
* `Panel.only_others`          what the others say leaves the place of that facet empty;
* `Panel.Plain fs`             nothing is selected on the other side of a comparison, nor unique mode:
                               the query has no comparison and shows every report
                               (`Plain.comparison`, `Plain.isUnique`).
-/

namespace Triage

namespace Facet

/-- facets of two kinds write into two places of a query -/
theorem addTo_comm {f g : Facet} (h : f.kind ≠ g.kind) (q : Query) :
    f.addTo (g.addTo q) = g.addTo (f.addTo q) := by
  unfold addTo constrain
  rcases hf : f.kind
    with (_ | _) | (_ | _) | _ | _ | _ | _ | _ | _ | (_ | _) | (_ | _ | _) | _ | _ <;>
    rcases hg : g.kind
      with (_ | _) | (_ | _) | _ | _ | _ | _ | _ | _ | (_ | _) | (_ | _ | _) | _ | _ <;>
    first
      | rfl
      | exact absurd (hf.trans hg.symm) h

end Facet

namespace Panel

/-! ## one facet taken out -/

theorem foldl_addTo {f : Facet} {gs : List Facet} (h : ∀ g ∈ gs, g.kind ≠ f.kind) :
    ∀ q : Query, gs.foldl (fun q g => g.addTo q) (f.addTo q) =
      f.addTo (gs.foldl (fun q g => g.addTo q) q) := by
  induction gs with
  | nil => intro q; rfl
  | cons g gs ih =>
    intro q
    rw [List.foldl_cons, List.foldl_cons, Facet.addTo_comm (h g List.mem_cons_self),
      ih fun g hg => h g (List.mem_cons_of_mem _ hg)]

/-- the facets of other kinds -/
def others (k : FacetKind) (fs : List Facet) : List Facet := fs.filter (·.id != k.id)

theorem mem_others {k : FacetKind} {fs : List Facet} {g : Facet} (hg : g ∈ others k fs) :
    g ∈ fs ∧ g.kind ≠ k := by
  obtain ⟨hm, hid⟩ := List.mem_filter.1 hg
  refine ⟨hm, fun e => ?_⟩
  have hne : g.id ≠ k.id := by simpa using hid
  exact hne (congrArg FacetKind.id e)

theorem others_of_ne {k : FacetKind} {fs : List Facet} (h : ∀ f ∈ fs, f.kind ≠ k) :
    others k fs = fs := by
  refine List.filter_eq_self.2 fun f hf => ?_
  have hne : f.id ≠ k.id := fun e => h f hf (FacetKind.id_inj e)
  simpa using hne

theorem others_split {before after : List Facet} {f : Facet}
    (hd : Distinct (before ++ f :: after)) :
    others f.kind (before ++ f :: after) = before ++ after := by
  rw [Distinct, List.map_append, List.map_cons, List.nodup_append, List.nodup_cons] at hd
  obtain ⟨-, ⟨hafter, -⟩, hbefore⟩ := hd
  have h1 : others f.kind before = before := others_of_ne fun g hg e =>
    hbefore _ (List.mem_map.2 ⟨g, hg, rfl⟩) _ List.mem_cons_self e
  have h2 : others f.kind after = after := others_of_ne fun g hg e =>
    hafter (List.mem_map.2 ⟨g, hg, e⟩)
  have hself : others f.kind (f :: after) = others f.kind after :=
    List.filter_cons_of_neg (by simp [Facet.id])
  have happend : others f.kind (before ++ f :: after) =
      others f.kind before ++ others f.kind (f :: after) := List.filter_append ..
  rw [happend, hself, h1, h2]

/-- the query is what the others say, and then what one facet says -/
theorem queryOf_eq_addTo {fs : List Facet} (hd : Distinct fs) {f : Facet} (hf : f ∈ fs) :
    queryOf fs = f.addTo (queryOf (others f.kind fs)) := by
  obtain ⟨before, after, rfl⟩ := List.append_of_mem hf
  have hafter : ∀ g ∈ after, g.kind ≠ f.kind := by
    intro g hg
    have hm : g ∈ others f.kind (before ++ f :: after) := by
      rw [others_split hd]
      exact List.mem_append_right _ hg
    exact (mem_others hm).2
  rw [others_split hd, queryOf, queryOf, List.foldl_append, List.foldl_append, List.foldl_cons,
    foldl_addTo hafter]

/-- what the others say leaves the place of the facet empty -/
theorem only_others (k : FacetKind) (fs : List Facet) :
    k.only (queryOf (others k fs)) = k.only {} :=
  only_foldl_of_ne (fun _ hg => (mem_others hg).2) {}

/-! ## comparison and uniqueness -/

/-- what holds of the empty query and is kept by every facet -/
theorem queryOf_induction {P : Query → Prop} {fs : List Facet} (h0 : P {})
    (h : ∀ f ∈ fs, ∀ q, P q → P (f.addTo q)) : P (queryOf fs) :=
  List.foldlRecOn fs _ h0 fun q hq f hf => h f hf q hq

theorem idsIn_queryOf {k : FacetKind} (hn : k.isName = true) {fs : List Facet}
    (h : ∀ f ∈ fs, f.kind = k → f.values = []) : k.idsIn (queryOf fs) = [] := by
  refine queryOf_induction (P := fun q => k.idsIn q = []) ?_ fun f hf q hq => ?_
  · cases k with
    | run side | runTag side => cases side <;> rfl
    | _ => rfl
  · by_cases hk : f.kind = k
    · subst hk
      rw [Facet.idsIn_addTo hn, f.idCondition_eq_nil_iff.2 (h f hf rfl)]
    · rw [← FacetKind.idsIn_only, Facet.only_addTo_of_ne hk, FacetKind.idsIn_only, hq]

/-- nothing is selected on the other side of a comparison, and unique mode is not selected -/
structure Plain (fs : List Facet) : Prop where
  runs : ∀ f ∈ fs, f.kind = .run .compare → f.values = []
  tags : ∀ f ∈ fs, f.kind = .runTag .compare → f.values = []
  every : ∀ f ∈ fs, f.kind = .unique → "on" ∉ f.values

namespace Plain

variable {fs gs : List Facet}

theorem comparison (h : Plain fs) : (queryOf fs).scope.comparison = none := by
  have hr : (queryOf fs).compareRunIds = [] := idsIn_queryOf (k := .run .compare) rfl h.runs
  have ht : (queryOf fs).compareRunTags = [] := idsIn_queryOf (k := .runTag .compare) rfl h.tags
  show Comparison.ofSides _ _ _ = none
  rw [hr, ht]
  rfl

theorem isUnique (h : Plain fs) : (queryOf fs).filter.isUnique = false := by
  refine queryOf_induction (P := fun q => q.filter.isUnique = false) rfl fun f hf q hq => ?_
  by_cases hk : f.kind = .unique
  · have hon : f.selection.contains "on" = false := by
      rw [← Bool.not_eq_true, Selection.contains_iff]
      exact h.every f hf hk
    have he : (f.addTo q).filter.isUnique = f.isUnique := by
      rw [Facet.addTo, Facet.constrain, hk]
    rw [he, Facet.isUnique, hon]
  · have he := congrArg (·.filter.isUnique) (Facet.only_addTo_of_ne hk q)
    exact he.trans hq

/-- this is read off the values alone -/
theorem of_values (h : Plain fs)
    (hgs : ∀ g ∈ gs, ∃ f ∈ fs, f.kind = g.kind ∧ f.values = g.values) : Plain gs := by
  refine ⟨fun g hg hk => ?_, fun g hg hk => ?_, fun g hg hk => ?_⟩
  all_goals obtain ⟨f, hf, hkind, hv⟩ := hgs g hg
  · exact hv ▸ h.runs f hf (hkind.trans hk)
  · exact hv ▸ h.tags f hf (hkind.trans hk)
  · exact hv ▸ h.every f hf (hkind.trans hk)

theorem of_subset (h : Plain fs) (hgs : ∀ g ∈ gs, g ∈ fs) : Plain gs :=
  h.of_values fun g hg => ⟨g, hgs g hg, rfl, rfl⟩

theorem others (h : Plain fs) (k : FacetKind) : Plain (others k fs) :=
  h.of_subset fun _ hg => (mem_others hg).1

theorem turns (h : Plain fs) (s : Store) (closed : String → Bool) (except : List String)
    (done : List Facet) : Plain (turns s closed except done fs) := by
  refine h.of_values fun g hg => ?_
  obtain ⟨f, hf, scope, rfl⟩ := exists_of_forall₂_right (turns_forall₂ s closed except fs done) hg
  have hst := steady_turn s closed except scope f
  exact ⟨f, hf, hst.kind.symm, hst.values.symm⟩

end Plain

/-! ## the values of a facet -/

theorem valuesOf_kind {p : Panel} (hk : p.facets.map (·.kind) = FacetKind.all) {f : Facet}
    (hf : f ∈ p.facets) : p.valuesOf f.kind = f.values := by
  obtain ⟨g, hg, hkind, hv⟩ := exists_valuesOf hk f.kind
  rw [hv, (Distinct.of_all hk).eq_of_id hf hg (congrArg FacetKind.id hkind)]

theorem Plain.of_valuesOf {p : Panel} (hk : p.facets.map (·.kind) = FacetKind.all)
    (hr : p.valuesOf (.run .compare) = []) (ht : p.valuesOf (.runTag .compare) = [])
    (hu : "on" ∉ p.valuesOf .unique) : Plain p.facets := by
  refine ⟨fun f hf h => ?_, fun f hf h => ?_, fun f hf h => ?_⟩
  all_goals rw [← valuesOf_kind hk hf, h]
  · exact hr
  · exact ht
  · exact hu

end Panel

end Triage
