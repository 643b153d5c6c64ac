import Triage.Proofs.OwnConditions
import Triage.Proofs.Registration
import Triage.Proofs.Replies

/-!
# The conditions of different facets are independent

Facets write into one query, one after the other: two share the record of the dates, three the
comparison that is only formed from what they wrote.

* `FacetKind.eq_of_only`       the parts that belong to the kinds make up a query;
* `FacetKind.without k q`      a query with the part of one kind put back to its default
                               (`only_without`, `without_addTo`);
* `Panel.registerAll`          facets registered one after the other (`registerAll_eq_ok_iff`);
* `Panel.queryOf_perm`         their order does not matter to the query;
* `Panel.scopeWithout_eq_without`   the scope of a facet is the query with its part put back;
* `Panel.AgreeBut`             panels that differ in what one facet has selected: that facet has the
                               same scope in both (`AgreeBut.scopeWithout`) and is offered the same
                               (`AgreeBut.candidatesFor`);
* `contributions_independent`  all this for all registrations and all selections.
-/

namespace Triage

/-! ## the parts of a query -/

namespace FacetKind

/-- the parts of all kinds make up the query -/
theorem eq_of_only {p q : Query} (h : ∀ k : FacetKind, k.only p = k.only q) : p = q := by
  have hruns := congrArg Query.runIds (h (.run .baseline))
  have hcompareRuns := congrArg Query.compareRunIds (h (.run .compare))
  have hcompareTags := congrArg Query.compareRunTags (h (.runTag .compare))
  have hdiff := congrArg Query.diffType (h .diffType)
  have hfilter : ∀ k : FacetKind, (k.only p).filter = (k.only q).filter := fun k =>
    congrArg Query.filter (h k)
  have htags := congrArg ReportFilter.runTag (hfilter (.runTag .baseline))
  have hunique := congrArg ReportFilter.isUnique (hfilter .unique)
  have hreview := congrArg ReportFilter.reviewStatus (hfilter .reviewStatus)
  have hdetection := congrArg ReportFilter.detectionStatus (hfilter .detectionStatus)
  have hseverity := congrArg ReportFilter.severity (hfilter .severity)
  have hlength := congrArg ReportFilter.bugPathLength (hfilter .pathLength)
  have hdetected := congrArg (·.date.detected) (hfilter (.date .detected))
  have hfixed := congrArg (·.date.fixed) (hfilter (.date .fixed))
  have hpath := congrArg ReportFilter.filepath (hfilter (.text .filePath))
  have hname := congrArg ReportFilter.checkerName (hfilter (.text .checkerName))
  have hmsg := congrArg ReportFilter.checkerMsg (hfilter (.text .checkerMsg))
  have hcomponent := congrArg ReportFilter.componentNames (hfilter .component)
  have hhash := congrArg ReportFilter.reportHash (hfilter .reportHash)
  obtain ⟨runIds, ⟨_, _, _, _, _, _, _, _, _, _, ⟨_, _⟩, _⟩, _, _, _⟩ := p
  obtain ⟨runIds', ⟨_, _, _, _, _, _, _, _, _, _, ⟨_, _⟩, _⟩, _, _, _⟩ := q
  cases hruns
  cases hcompareRuns
  cases hcompareTags
  cases hdiff
  cases htags
  cases hunique
  cases hreview
  cases hdetection
  cases hseverity
  cases hlength
  cases hdetected
  cases hfixed
  cases hpath
  cases hname
  cases hmsg
  cases hcomponent
  cases hhash
  rfl

/-- the filter with the part of a kind put back to its default -/
def withoutFilter (k : FacetKind) (q : ReportFilter) : ReportFilter :=
  match k with
  | .runTag .baseline => { q with runTag := [] }
  | .unique => { q with isUnique := false }
  | .reviewStatus => { q with reviewStatus := [] }
  | .detectionStatus => { q with detectionStatus := [] }
  | .severity => { q with severity := [] }
  | .pathLength => { q with bugPathLength := none }
  | .date .detected => { q with date := { q.date with detected := none } }
  | .date .fixed => { q with date := { q.date with fixed := none } }
  | .text field => field.setPatterns [] q
  | .component => { q with componentNames := [] }
  | .reportHash => { q with reportHash := [] }
  | .run _ | .runTag .compare | .diffType => q

/-- the query with the part of a kind put back to its default -/
def without (k : FacetKind) (q : Query) : Query :=
  match k with
  | .run .baseline => { q with runIds := [] }
  | .run .compare => { q with compareRunIds := [] }
  | .runTag .compare => { q with compareRunTags := [] }
  | .diffType => { q with diffType := .new }
  | k => { q with filter := k.withoutFilter q.filter }

theorem only_without (k : FacetKind) (q : Query) : k.only (k.without q) = k.only {} := by
  cases k with
  | run side | runTag side => cases side <;> rfl
  | date field | text field => cases field <;> rfl
  | _ => rfl

theorem only_without_of_ne {k l : FacetKind} (h : l ≠ k) (q : Query) :
    k.only (l.without q) = k.only q := by
  -- as for what facets write: no kind reads the fields of another
  rcases l with (_ | _) | (_ | _) | _ | _ | _ | _ | _ | _ | (_ | _) | (_ | _ | _) | _ | _ <;>
    rcases k with (_ | _) | (_ | _) | _ | _ | _ | _ | _ | _ | (_ | _) | (_ | _ | _) | _ | _ <;>
    first
      | rfl
      | exact absurd rfl h

/-- two parts have nothing in common -/
theorem only_only_of_ne {k l : FacetKind} (h : l ≠ k) (q : Query) :
    k.only (l.only q) = k.only {} := by
  rcases l with (_ | _) | (_ | _) | _ | _ | _ | _ | _ | _ | (_ | _) | (_ | _ | _) | _ | _ <;>
    rcases k with (_ | _) | (_ | _) | _ | _ | _ | _ | _ | _ | (_ | _) | (_ | _ | _) | _ | _ <;>
    first
      | rfl
      | exact absurd rfl h

/-- nothing is put back where nothing was written -/
theorem without_of_only {k : FacetKind} {q : Query} (h : k.only q = k.only {}) :
    k.without q = q := by
  refine eq_of_only fun l => ?_
  by_cases hl : k = l
  · rw [← hl, only_without, h]
  · exact only_without_of_ne hl q

/-- what a facet wrote is put back -/
theorem without_addTo (f : Facet) (q : Query) : f.kind.without (f.addTo q) = f.kind.without q := by
  refine eq_of_only fun l => ?_
  by_cases hl : f.kind = l
  · rw [← hl, only_without, only_without]
  · rw [only_without_of_ne hl, only_without_of_ne hl, Facet.only_addTo_of_ne hl]

end FacetKind

/-- The comparison goes with the part: a side leaves the other side, if that has anything, and the
difference is asked for as it is by default. -/
theorem Query.comparison_without (k : FacetKind) (q : Query) : (k.without q).comparison =
    match k with
    | .run .compare =>
      if q.compareRunTags = [] then none else some ⟨none, some q.compareRunTags, q.diffType⟩
    | .runTag .compare =>
      if q.compareRunIds = [] then none else some ⟨some q.compareRunIds, none, q.diffType⟩
    | .diffType => q.comparison.map fun c => { c with diffType := .new }
    | _ => q.comparison := by
  obtain ⟨_, _, runs, tags, _⟩ := q
  cases k with
  | run side | runTag side => cases side <;> cases runs <;> cases tags <;> rfl
  | diffType => cases runs <;> cases tags <;> rfl
  | _ => rfl

namespace Panel

variable {p q : Panel}

/-! ## registration -/

/-- facets registered one after the other -/
def registerAll (p : Panel) (kinds : List FacetKind) : Except Refusal Panel :=
  kinds.foldlM addFacet p

theorem registerAll_cons (p : Panel) (kind : FacetKind) (kinds : List FacetKind) :
    p.registerAll (kind :: kinds) = (p.addFacet kind).bind (registerAll · kinds) :=
  List.foldlM_cons

theorem kinds_registerAll (kinds : List FacetKind) : ∀ {p q : Panel},
    p.registerAll kinds = .ok q → q.facets.map (·.kind) = p.facets.map (·.kind) ++ kinds := by
  induction kinds with
  | nil =>
    intro p q h
    cases h
    exact (List.append_nil _).symm
  | cons kind kinds ih =>
    intro p q h
    rw [registerAll_cons] at h
    cases hadd : p.addFacet kind with
    | error e =>
      rw [hadd] at h
      cases h
    | ok r =>
      rw [hadd] at h
      obtain ⟨-, rfl⟩ := addFacet_eq_ok hadd
      rw [ih h, List.map_append, List.append_assoc]
      rfl

/-- facets are accepted exactly when they are of different kinds -/
theorem registerAll_eq_ok_iff (kinds : List FacetKind) : ∀ {p : Panel}, Distinct p.facets →
    ((∃ q, p.registerAll kinds = .ok q) ↔ (p.facets.map (·.kind) ++ kinds).Nodup) := by
  induction kinds with
  | nil =>
    intro p hd
    rw [List.append_nil]
    exact iff_of_true ⟨p, rfl⟩ hd
  | cons kind kinds ih =>
    intro p hd
    rw [registerAll_cons, addFacet_eq hd]
    split
    · next hk =>
      refine iff_of_false (fun ⟨q, h⟩ => nomatch h) fun hn => ?_
      exact (List.nodup_append.1 hn).2.2 _ hk _ List.mem_cons_self rfl
    · next hk =>
      have hd' : Distinct (p.facets ++ [.make kind p.config.searchDebounceMs]) := by
        rw [Distinct, List.map_append]
        exact List.Nodup.append hd (List.nodup_singleton kind) (List.disjoint_singleton.2 hk)
      have hrest := ih (p := { p with facets := _ }) hd'
      rw [List.map_append, List.append_assoc] at hrest
      exact hrest

/-! ## the order of the facets -/

/-- a facet that has nothing but its kind and its selection -/
def ofCore (c : FacetKind × Selection) : Facet := { kind := c.1, selection := c.2 }

theorem queryOf_eq_foldl (fs : List Facet) :
    queryOf fs = (fs.map core).foldl (fun q c => (ofCore c).addTo q) {} := by
  have haddTo : ∀ f : Facet, (ofCore (core f)).addTo = f.addTo := fun f => addTo_of_core rfl
  rw [List.foldl_map]
  simp only [haddTo]
  rfl

/-- a query does not depend on the order of the facets -/
theorem queryOf_perm {fs gs : List Facet} (hd : Distinct fs)
    (h : (gs.map core).Perm (fs.map core)) : queryOf gs = queryOf fs := by
  rw [queryOf_eq_foldl, queryOf_eq_foldl]
  refine (h.symm.foldl_eq' (fun x hx y hy q => ?_) _).symm
  obtain ⟨f, hf, rfl⟩ := List.mem_map.1 hx
  obtain ⟨g, hg, rfl⟩ := List.mem_map.1 hy
  by_cases hk : g.kind = f.kind
  · rw [hd.eq_of_id hf hg (congrArg FacetKind.id hk)]
  · exact Facet.addTo_comm (f := ofCore (core g)) (g := ofCore (core f)) hk q

/-! ## the scope of a facet -/

/-- the scope of a facet is that of the query with its part put back -/
theorem scopeWithout_eq_without (hd : Distinct p.facets) (k : FacetKind) :
    p.scopeWithout k.id = (k.without p.query).scope := by
  show (queryOf (others k p.facets)).scope = (k.without (queryOf p.facets)).scope
  by_cases h : ∃ f ∈ p.facets, f.kind = k
  · obtain ⟨f, hf, rfl⟩ := h
    rw [queryOf_eq_addTo hd hf, FacetKind.without_addTo,
      FacetKind.without_of_only (only_others f.kind p.facets)]
  · have hne : ∀ f ∈ p.facets, f.kind ≠ k := fun f hf e => h ⟨f, hf, e⟩
    have honly : k.only (queryOf p.facets) = k.only {} := only_foldl_of_ne hne {}
    rw [others_of_ne hne, FacetKind.without_of_only honly]

/-! ## panels that differ in one selection -/

/-- the same kind, and the same selection unless it is the kind given -/
def SameUnless (k : FacetKind) (f g : Facet) : Prop :=
  g.kind = f.kind ∧ (f.kind ≠ k → g.selection = f.selection)

theorem cores_others {k : FacetKind} {fs gs : List Facet}
    (h : List.Forall₂ (SameUnless k) fs gs) : (others k gs).map core = (others k fs).map core := by
  induction h with
  | nil => rfl
  | @cons f g fs gs hfg _ ih =>
    obtain ⟨hkind, hsel⟩ := hfg
    by_cases hk : f.kind = k
    · have hf : others k (f :: fs) = others k fs := List.filter_cons_of_neg (by simp [Facet.id, hk])
      have hg : others k (g :: gs) = others k gs :=
        List.filter_cons_of_neg (by simp [Facet.id, hkind, hk])
      rw [hf, hg, ih]
    · have hid : f.kind.id ≠ k.id := mt FacetKind.id_inj hk
      have hf : others k (f :: fs) = f :: others k fs :=
        List.filter_cons_of_pos (by simpa [Facet.id] using hid)
      have hg : others k (g :: gs) = g :: others k gs :=
        List.filter_cons_of_pos (by simpa [Facet.id, hkind] using hid)
      have hcore : core g = core f := Prod.ext hkind (hsel hk)
      rw [hf, hg, List.map_cons, List.map_cons, hcore, ih]

/-- the facets are the same, but for the selection of one kind -/
def AgreeBut (k : FacetKind) (p q : Panel) : Prop :=
  List.Forall₂ (SameUnless k) p.facets q.facets

namespace AgreeBut

variable {k : FacetKind}

theorem kinds (h : AgreeBut k p q) : q.facets.map (·.kind) = p.facets.map (·.kind) := by
  have hkinds : List.Forall₂ (fun f g : Facet => f.kind = g.kind) p.facets q.facets :=
    h.imp fun _ _ hfg => hfg.1.symm
  rw [← List.forall₂_eq_eq_eq, List.forall₂_map_left_iff, List.forall₂_map_right_iff]
  exact hkinds.flip.imp fun _ _ e => e.symm

/-- what a facet has selected does not matter to its own scope -/
theorem scopeWithout (h : AgreeBut k p q) : q.scopeWithout k.id = p.scopeWithout k.id :=
  congrArg Query.scope (queryOf_of_cores (cores_others h))

/-- and not to what it is offered -/
theorem candidatesFor (h : AgreeBut k p q) (hd : Distinct p.facets)
    (hs : q.gateway.store = p.gateway.store) (hf : q.gateway.failure = p.gateway.failure)
    (r : ItemsRequest) : (q.candidatesFor k.id r).1 = (p.candidatesFor k.id r).1 :=
  candidatesFor_congr hd h.kinds h.scopeWithout hs hf r

end AgreeBut

/-! ## every registration and every selection -/

/-- Facets that are accepted one after the other are accepted in every order.  A facet writes its own
part of a query and nothing else, whatever stood there; the parts make up the query and have nothing
in common.  Whatever is selected: the query has what each facet writes, in every order the same; the
scope of a facet is that of the query with its own part put back, a comparison is then formed anew,
and what the facet itself has selected matters neither to its scope nor to what it is offered. -/
theorem contributions_independent (config : Config) (g : Gateway) (tab : Option String)
    (kinds : List FacetKind) (registered : Panel) :
    let start : Panel := { config, gateway := g, tab }
    start.registerAll kinds = .ok registered →
    (∀ kinds', kinds'.Perm kinds →
      ∃ p, start.registerAll kinds' = .ok p ∧ p.facets.map (·.kind) = kinds') ∧
    ((∀ k l : FacetKind, l ≠ k → ∀ q, k.only (l.only q) = k.only {}) ∧
      (∀ q q' : Query, (∀ k : FacetKind, k.only q = k.only q') → q = q') ∧
      (∀ (f : Facet) (q q' : Query), f.kind.only (f.addTo q) = f.kind.only (f.addTo q') ∧
        ∀ k ≠ f.kind, k.only (f.addTo q) = k.only q) ∧
      ∀ (k : FacetKind) (q : Query), k.only (k.without q) = k.only {} ∧
        ∀ l ≠ k, l.only (k.without q) = l.only q) ∧
    ∀ p : Panel, p.facets.map (·.kind) = registered.facets.map (·.kind) →
      (∀ f ∈ p.facets, ∀ q, f.kind.only (f.addTo q) = f.kind.only p.query) ∧
      (∀ p' : Panel, (p'.facets.map core).Perm (p.facets.map core) → p'.query = p.query) ∧
      (∀ k : FacetKind, p.scopeWithout k.id = (k.without p.query).scope ∧
        (p.scopeWithout k.id).comparison =
          match k with
          | .run .compare =>
            if p.query.compareRunTags = [] then none
            else some ⟨none, some p.query.compareRunTags, p.query.diffType⟩
          | .runTag .compare =>
            if p.query.compareRunIds = [] then none
            else some ⟨some p.query.compareRunIds, none, p.query.diffType⟩
          | .diffType => p.query.comparison.map fun c => { c with diffType := .new }
          | _ => p.query.comparison) ∧
      ∀ (k : FacetKind) (p' : Panel), AgreeBut k p p' →
        p'.scopeWithout k.id = p.scopeWithout k.id ∧
        (p'.gateway.store = p.gateway.store → p'.gateway.failure = p.gateway.failure →
          ∀ r, (p'.candidatesFor k.id r).1 = (p.candidatesFor k.id r).1) := by
  intro start h
  have hempty : Distinct start.facets := List.nodup_nil
  have hkinds : registered.facets.map (·.kind) = kinds := kinds_registerAll kinds h
  have hnodup : kinds.Nodup := (registerAll_eq_ok_iff kinds hempty).1 ⟨registered, h⟩
  refine ⟨fun kinds' hperm => ?_, ⟨?_, ?_, ?_, ?_⟩, fun p hp => ⟨?_, ?_, ?_, ?_⟩⟩
  · obtain ⟨p, hp⟩ := (registerAll_eq_ok_iff kinds' hempty).2 (hperm.nodup_iff.2 hnodup)
    exact ⟨p, hp, kinds_registerAll kinds' hp⟩
  · exact fun k l hl q => FacetKind.only_only_of_ne hl q
  · exact fun q q' => FacetKind.eq_of_only
  · intro f q q'
    have hself : f.kind.only (f.addTo q) = f.kind.only (f.addTo q') :=
      (Facet.only_addTo_self f q).trans (Facet.only_addTo_self f q').symm
    exact ⟨hself, fun k hk => Facet.only_addTo_of_ne hk.symm q⟩
  · exact fun k q => ⟨k.only_without q, fun l hl => FacetKind.only_without_of_ne hl.symm q⟩
  all_goals have hd : Distinct p.facets := (congrArg List.Nodup (hp.trans hkinds)).mpr hnodup
  · exact fun f hf q => (Facet.only_addTo_self f q).trans (only_queryOf hd hf).symm
  · exact fun p' => queryOf_perm hd
  · intro k
    have hscope := scopeWithout_eq_without hd k
    exact ⟨hscope, (congrArg Scope.comparison hscope).trans (p.query.comparison_without k)⟩
  · exact fun k p' hagree => ⟨hagree.scopeWithout, hagree.candidatesFor hd⟩

/-- the facets of a comparison and both dates, out of the usual order -/
def comparisonFacets : List FacetKind :=
  [.diffType, .date .fixed, .runTag .compare, .date .detected, .run .compare]

/-- a run to compare with, the difference, and two dates -/
def againstBeta : List Action :=
  [.select "newcheck" "beta" {}, .select "difftype" "Resolved" {},
    .select "fix-date" "2024-01-01..2024-02-01" {}, .select "detection-date" "..2024-01-01" {}]

/-- Registered backwards, the panel has the same query; its comparison is by a run alone, so there is
none in the scope of that run. -/
theorem contributions_independent_backwards :
    let start : Panel := { gateway := { store := twoRuns } }
    ∃ p p', start.registerAll comparisonFacets = .ok p ∧
      start.registerAll comparisonFacets.reverse = .ok p' ∧
      (p'.run againstBeta).query = (p.run againstBeta).query ∧
      (p.run againstBeta).query.comparison = some ⟨some [2], none, .resolved⟩ ∧
      ((p.run againstBeta).scopeWithout "newcheck").comparison = none := by
  intro start
  let p := start.applyAll (comparisonFacets.map .addFacet)
  let p' := start.applyAll (comparisonFacets.reverse.map .addFacet)
  have hp : start.registerAll comparisonFacets = .ok p := by decide +kernel
  have hp' : start.registerAll comparisonFacets.reverse = .ok p' := by decide +kernel
  obtain ⟨-, -, h⟩ := contributions_independent {} { store := twoRuns } none comparisonFacets p hp
  obtain ⟨-, hquery, hscope, -⟩ := h (p.run againstBeta) (by decide +kernel)
  refine ⟨p, p', hp, hp', hquery _ (by decide +kernel), by decide +kernel, ?_⟩
  have hnone := (hscope (.run .compare)).2
  exact hnone.trans (if_pos (by decide +kernel))

end Panel
end Triage
