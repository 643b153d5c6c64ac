import Triage.Proofs.Contributions

/-!
# Names in the query

The query has ids where the panel has names of runs and tags.  Patterns go to the service, its rows
come back ranked, and each selected name takes its ids from them; for the query this is the same as
looking the names up in the store:

* `FacetKind.idsIn k q`       the ids that a query has for the names of a facet;
* `Panel.valuesOf p k`        the selected values of the facet of a kind;
* `StandsFor s k vs ids`      the ids are those of all stored runs or tags that the names cover, and
                              an id that no run or tag has if they cover none
                              (`standsFor_idCondition`);
* `Store.results_of_noBaseline`
                              what is shown when no report belongs to the baseline;
* `names_resolve`             whatever a panel has loaded, and whatever is chosen then without a
                              claim: each of the four lists of ids stands for the selected names, and
                              a comparison has the sides that have a selection.
-/

namespace Triage

/-! ## the ids of names -/

namespace FacetKind

/-- the ids that a query has for the names of a facet -/
def idsIn : FacetKind → Query → List Int
  | .run .baseline, q => q.runIds
  | .run .compare, q => q.compareRunIds
  | .runTag .baseline, q => q.filter.runTag
  | .runTag .compare, q => q.compareRunTags
  | _, _ => []

theorem idsIn_only (k : FacetKind) (q : Query) : k.idsIn (k.only q) = k.idsIn q := by
  cases k with
  | run side | runTag side => cases side <;> rfl
  | _ => rfl

end FacetKind

/-- The ids are those of all stored runs or tags that one of the names covers: no ids for no names,
and an id that no run or tag has for names that cover nothing. -/
structure StandsFor (s : Store) (k : FacetKind) (names : List String) (ids : List Int) : Prop where
  empty : names = [] → ids = []
  found : (∃ v ∈ names, k.namedIds s v ≠ []) → ∀ x, x ∈ ids ↔ ∃ v ∈ names, x ∈ k.namedIds s v
  missing : names ≠ [] → (∀ v ∈ names, k.namedIds s v = []) → ids = [Query.noSuchId]

/-- there are ids exactly when there are names -/
theorem StandsFor.ne_nil_iff {s : Store} {k : FacetKind} {names : List String} {ids : List Int}
    (h : StandsFor s k names ids) : ids ≠ [] ↔ names ≠ [] := by
  refine not_congr ⟨fun hi => ?_, h.empty⟩
  by_contra hne
  by_cases hf : ∃ v ∈ names, k.namedIds s v ≠ []
  · obtain ⟨v, hv, hx⟩ := hf
    obtain ⟨x, hx⟩ := List.exists_mem_of_ne_nil _ hx
    have hm := (h.found ⟨v, hv, List.ne_nil_of_mem hx⟩ x).2 ⟨v, hv, hx⟩
    rw [hi] at hm
    cases hm
  · have hm := h.missing hne fun v hv => by
      by_contra hx
      exact hf ⟨v, hv, hx⟩
    rw [hi] at hm
    cases hm

namespace Facet

theorem idsIn_addTo {f : Facet} (hn : f.kind.isName = true) (q : Query) :
    f.kind.idsIn (f.addTo q) = f.idCondition := by
  unfold addTo constrain
  cases hk : f.kind with
  | run side | runTag side => cases side <;> rfl
  | _ => rw [hk] at hn; cases hn

theorem idCondition_of_ids {f : Facet} (h : f.selection.ids ≠ []) :
    f.idCondition = f.selection.ids := by
  have he : f.selection.ids.isEmpty = false := List.isEmpty_eq_false_iff.2 h
  unfold idCondition
  simp [he]

theorem idCondition_of_no_ids {f : Facet} (h : f.selection.ids = []) (hv : f.values ≠ []) :
    f.idCondition = [Query.noSuchId] := by
  have hs : f.selection.isEmpty = false := by
    rw [← Bool.not_eq_true]
    exact mt f.selection.isEmpty_iff.1 hv
  unfold idCondition
  simp [h, hs]

/-- once its names are looked up, the condition of a facet stands for them -/
theorem standsFor_idCondition {s : Store} {f : Facet} (h : f.Resolved s)
    (hn : f.kind.isName = true) : StandsFor s f.kind f.values f.idCondition := by
  have hids := mem_ids_of_resolved h hn
  refine ⟨f.idCondition_eq_nil_iff.2, ?_, ?_⟩
  · rintro ⟨v, hv, hne⟩
    obtain ⟨x, hx⟩ := List.exists_mem_of_ne_nil _ hne
    have hnil : f.selection.ids ≠ [] := List.ne_nil_of_mem ((hids x).2 ⟨v, hv, hx⟩)
    rw [idCondition_of_ids hnil]
    exact hids
  · intro hv hnone
    refine idCondition_of_no_ids (List.eq_nil_iff_forall_not_mem.2 fun x hx => ?_) hv
    obtain ⟨v, hvm, hxv⟩ := (hids x).1 hx
    rw [hnone v hvm] at hxv
    cases hxv

end Facet

/-! ## the sides of a comparison -/

theorem isSome_unlessEmpty {α : Type} (l : List α) : (unlessEmpty l).isSome = true ↔ l ≠ [] := by
  cases l <;> simp [unlessEmpty]

theorem Query.isSome_comparison (q : Query) :
    q.comparison.isSome = true ↔ q.compareRunIds ≠ [] ∨ q.compareRunTags ≠ [] := by
  unfold comparison Comparison.ofSides
  by_cases h : q.compareRunIds = [] ∧ q.compareRunTags = []
  · rw [if_pos h]
    simp [h]
  · rw [if_neg h]
    simpa [imp_iff_not_or] using h

theorem Query.sides_comparison {q : Query} {c : Comparison} (h : c ∈ q.comparison) :
    (c.runIds.isSome = true ↔ q.compareRunIds ≠ []) ∧
      (c.runTag.isSome = true ↔ q.compareRunTags ≠ []) := by
  unfold comparison Comparison.ofSides at h
  split at h
  · cases h
  · cases h
    exact ⟨isSome_unlessEmpty _, isSome_unlessEmpty _⟩

/-! ## a baseline without reports -/

namespace Store

variable {s : Store} {scope : Scope}

theorem baseline_of_noSuchRun (hs : ∀ r ∈ s.reports, r.runId ≠ Query.noSuchId)
    (h : scope.runIds = [Query.noSuchId]) : s.baseline scope = [] := by
  refine List.filter_eq_nil_iff.2 fun r hr => ?_
  have hne : isOneOf scope.runIds r.runId = false := by
    rw [h, isOneOf]
    simpa using hs r hr
  rw [inBaseline, hne]
  simp

theorem baseline_of_noSuchTag (hs : ∀ t ∈ s.tags, t.id ≠ Query.noSuchId)
    (h : scope.filter.runTag = [Query.noSuchId]) : s.baseline scope = [] := by
  refine List.filter_eq_nil_iff.2 fun r _ => ?_
  have hnone : (s.tags.filter fun t => [Query.noSuchId].contains t.id) = [] :=
    List.filter_eq_nil_iff.2 fun t ht => by simpa using hs t ht
  have htag : s.hasTag scope.filter.runTag r = false := by
    rw [hasTag, h, hnone]
    rfl
  rw [inBaseline, htag, h]
  simp

theorem rows_of_noBaseline (h : s.baseline scope = []) :
    (scope.comparison = none → s.rows scope = []) ∧
      ∀ c ∈ scope.comparison, s.rows scope =
        if c.diffType = .new then s.comparisonRows c scope.filter else [] := by
  unfold rows
  rw [h]
  constructor
  · intro hn
    rw [hn]
  · intro c hc
    rw [Option.mem_def.1 hc]
    show compared c.diffType [] _ = _
    unfold compared hashes
    cases c.diffType <;> simp

/-- without a baseline only what is new can be shown of a comparison, and all of it is new -/
theorem results_of_noBaseline (h : s.baseline scope = []) :
    ((∀ c ∈ scope.comparison, c.diffType ≠ .new) → s.results scope = []) ∧
      ∀ c ∈ scope.comparison, c.diffType = .new → s.results scope =
        if scope.filter.isUnique
        then firstOfEach (·.bugHash) (s.comparisonRows c scope.filter)
        else s.comparisonRows c scope.filter := by
  obtain ⟨halone, hcompared⟩ := rows_of_noBaseline h
  constructor
  · intro hold
    have hrows : s.rows scope = [] := by
      cases hc : scope.comparison with
      | none => exact halone hc
      | some c => rw [hcompared c hc, if_neg (hold c hc)]
    rw [results, hrows]
    split <;> rfl
  · intro c hc hnew
    rw [results, hcompared c hc, if_pos hnew]

end Store

namespace Panel

variable {s : Store}

/-! ## after a load -/

/-- the selected values of the facet of a kind -/
def valuesOf (p : Panel) (k : FacetKind) : List String := ((p.find? k.id).map Facet.values).getD []

/-- the facet of a kind, in a panel that has all -/
theorem exists_valuesOf {p : Panel} (hk : p.facets.map (·.kind) = FacetKind.all)
    (k : FacetKind) : ∃ f ∈ p.facets, f.kind = k ∧ p.valuesOf k = f.values := by
  have hm : k ∈ p.facets.map (·.kind) := hk ▸ mem_all k
  obtain ⟨g, hg, rfl⟩ := List.mem_map.1 hm
  cases hf : p.find? g.kind.id with
  | none => exact absurd (beq_self_eq_true g.kind.id) (List.find?_eq_none.1 hf g hg)
  | some f =>
    obtain ⟨hmem, hid⟩ := mem_of_find? hf
    refine ⟨f, hmem, FacetKind.id_inj hid, ?_⟩
    rw [valuesOf, hf]
    rfl

/-- the ids that the query of a panel has for the names of a facet -/
theorem standsFor_query {p : Panel} (hk : p.facets.map (·.kind) = FacetKind.all)
    (hr : ∀ f ∈ p.facets, f.Resolved s) {k : FacetKind} (hn : k.isName = true) :
    StandsFor s k (p.valuesOf k) (k.idsIn p.query) := by
  obtain ⟨f, hf, rfl, hv⟩ := exists_valuesOf hk k
  have hids : f.kind.idsIn p.query = f.idCondition := by
    rw [← FacetKind.idsIn_only]
    show f.kind.idsIn (f.kind.only (queryOf p.facets)) = _
    rw [only_queryOf (.of_all hk) hf, Facet.idsIn_addTo hn]
  rw [hv, hids]
  exact Facet.standsFor_idCondition (hr f hf) hn

/-- all names are looked up after a load, and stay so while nothing is claimed -/
theorem looked_up_after_load {config : Config} {tab : String} {p q : Panel}
    (hc : p.Complete config tab) (hs : p.gateway.store = s) (ha : p.gateway.failure = none)
    {h : History} {origin : Origin} (hl : Loads p h origin q) {after : List Action}
    (hplain : ∀ a ∈ after, a.isPlain = true) :
    (q.run after).facets.map (·.kind) = FacetKind.all ∧
      ∀ f ∈ (q.run after).facets, f.Resolved s := by
  obtain ⟨n, hload⟩ := load_eq ⟨hc.distinct, hs, ha⟩ h origin
  have hq : q = loaded s p (p.asked h origin) n := hl.eq_load.trans hload
  have hkinds : q.facets.map (·.kind) = FacetKind.all := by
    rw [hq]
    exact (kinds_turns _ _ _ _).trans ((kinds_takingOver p _).trans hc.kinds)
  have hserving : q.Serving s := by
    refine ⟨.of_all hkinds, ?_, ?_⟩
    · rw [hq]
      exact hs
    · rw [hq]
      exact ha
  have hr : ∀ f ∈ q.facets, f.Resolved s := by
    rw [hq]
    exact resolved_loaded p _ n
  refine ⟨(kept_run hserving after).kinds.trans hkinds, ?_⟩
  exact (run_induction (I := fun p => ∀ f ∈ p.facets, f.Resolved s)
    (fun _ _ _ _ ha h hm => resolved_of_move ha h hm) after hserving hplain hr).2

/-- Whatever was done to a standard panel: once it has loaded a history while the service answers, and
whatever is done then without a claim about a value, the query has for each of the four facets of
names exactly the ids that these names cover, and a comparison has the sides that have a selection.
When a baseline selection covers nothing, no report is shown, but for all those of the other side
where a comparison asks for what is new. -/
theorem names_resolve (config : Config) (s : Store) (tab : String) (g : Gateway)
    (os : List Operation) :
    let p := (standard config g tab).applyAll os
    p.gateway.store = s → p.gateway.failure = none →
    ∀ h origin q, Loads p h origin q → ∀ after : List Action, (∀ a ∈ after, a.isPlain = true) →
      let r := q.run after
      (∀ k : FacetKind, k.isName = true → StandsFor s k (r.valuesOf k) (k.idsIn r.query)) ∧
      (r.query.comparison.isSome = true ↔
        r.valuesOf (.run .compare) ≠ [] ∨ r.valuesOf (.runTag .compare) ≠ []) ∧
      (∀ c ∈ r.query.comparison,
        (c.runIds.isSome = true ↔ r.valuesOf (.run .compare) ≠ []) ∧
        (c.runTag.isSome = true ↔ r.valuesOf (.runTag .compare) ≠ [])) ∧
      ((∀ x ∈ s.reports, x.runId ≠ Query.noSuchId) → (∀ t ∈ s.tags, t.id ≠ Query.noSuchId) →
        ∀ k ∈ [FacetKind.run .baseline, .runTag .baseline], r.valuesOf k ≠ [] →
          (∀ v ∈ r.valuesOf k, k.namedIds s v = []) →
          ((∀ c ∈ r.query.comparison, c.diffType ≠ .new) → s.results r.query.scope = []) ∧
          ∀ c ∈ r.query.comparison, c.diffType = .new → s.results r.query.scope =
            if r.query.filter.isUnique
            then firstOfEach (·.bugHash) (s.comparisonRows c r.query.filter)
            else s.comparisonRows c r.query.filter) := by
  intro p hs ha h origin q hl after hplain r
  have hc : p.Complete config tab := complete_standard config g tab os
  obtain ⟨hkinds, hres⟩ := looked_up_after_load hc hs ha hl hplain
  have hstands : ∀ k : FacetKind, k.isName = true →
      StandsFor s k (r.valuesOf k) (k.idsIn r.query) := fun k => standsFor_query hkinds hres
  have hruns : r.query.compareRunIds ≠ [] ↔ r.valuesOf (.run .compare) ≠ [] :=
    (hstands (.run .compare) rfl).ne_nil_iff
  have htags : r.query.compareRunTags ≠ [] ↔ r.valuesOf (.runTag .compare) ≠ [] :=
    (hstands (.runTag .compare) rfl).ne_nil_iff
  refine ⟨hstands, ?_, fun c hcm => ?_, ?_⟩
  · rw [Query.isSome_comparison, hruns, htags]
  · obtain ⟨h1, h2⟩ := Query.sides_comparison hcm
    exact ⟨h1.trans hruns, h2.trans htags⟩
  · intro hreports htagged k hk hne hnone
    have hbase : s.baseline r.query.scope = [] := by
      rcases List.mem_cons.1 hk with rfl | hk
      · exact Store.baseline_of_noSuchRun hreports
          ((hstands (.run .baseline) rfl).missing hne hnone)
      · rw [List.mem_singleton] at hk
        subst hk
        exact Store.baseline_of_noSuchTag htagged
          ((hstands (.runTag .baseline) rfl).missing hne hnone)
    exact Store.results_of_noBaseline hbase

/-- a link to a run that is not stored -/
def unknownRun : History := ⟨[("tab", ["reports"]), ("run", ["nosuch"])]⟩

theorem names_resolve_unknownRun :
    let p := (standard {} { store := twoRuns } "reports").applyAll []
    ∃ q, Loads p unknownRun .deepLink q ∧
      let r := q.run [.select "filepath" "/b.c" {}]
      StandsFor twoRuns (.run .baseline) (r.valuesOf (.run .baseline)) r.query.runIds ∧
      r.valuesOf (.run .baseline) ≠ [] ∧ twoRuns.results r.query.scope = [] := by
  refine ⟨_, .start rfl, ?_⟩
  intro r
  have h := names_resolve {} twoRuns "reports" { store := twoRuns } [] rfl rfl unknownRun
    .deepLink _ (.start rfl) [.select "filepath" "/b.c" {}] (by decide)
  have hne : r.valuesOf (.run .baseline) ≠ [] := by decide +kernel
  have hnone : ∀ v ∈ r.valuesOf (.run .baseline),
      (FacetKind.run .baseline).namedIds twoRuns v = [] := by decide +kernel
  have halone : r.query.comparison = none := by decide +kernel
  refine ⟨h.1 (.run .baseline) rfl, hne, ?_⟩
  refine (h.2.2.2 (by decide) (by decide) (.run .baseline) List.mem_cons_self hne hnone).1 ?_
  intro c hc
  rw [halone] at hc
  cases hc

/-- a link that asks what is new against a run that is not stored -/
def newAgainstUnknownRun : History :=
  ⟨[("tab", ["reports"]), ("run", ["nosuch"]), ("newcheck", ["beta"])]⟩

/-- Against an unknown run everything is new. -/
theorem results_of_newAgainstUnknownRun :
    ∃ t q, (standard {} { store := twoRuns } "reports").start newAgainstUnknownRun =
        some (t, q) ∧
      ((∀ x ∈ twoRuns.reports, x.runId ≠ Query.noSuchId) ∧
        ∀ x ∈ twoRuns.tags, x.id ≠ Query.noSuchId) ∧
      (q.valuesOf (.run .baseline) = ["nosuch"] ∧
        (FacetKind.run .baseline).namedIds twoRuns "nosuch" = []) ∧
      twoRuns.results q.query.scope ≠ [] :=
  ⟨_, _, rfl, by decide, by decide +kernel, by decide +kernel⟩

end Panel
end Triage
