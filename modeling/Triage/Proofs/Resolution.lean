import Mathlib.Data.List.Forall2
import Triage.Panel.State
import Triage.Proofs.Answers
import Triage.Proofs.Representatives

/-!
# Names and their ids

The history holds the names of runs and tags, a query their ids.  What a name stands for depends on
the stored runs and tags alone, so a query is a function of the selected values as soon as every
name has been looked up:

* `Facet.Alike`          two facets have the same values and, for names, the same ids
                         (`scopeWithout_congr`, `query_congr`: alike facets make alike queries);
* `Facet.Resolved`       every selected name has its ids (`Facet.alike_of_resolved`);
* `Facet.Counted`        every selected value has the count and the ids that the stock says;
* `Facet.refreshed`      the facet after a refresh that succeeds (`refresh_run`); it is counted
                         (`counted_refreshed`), and so it is resolved (`Counted.resolved`);
* `Facet.Steady`         what a refresh leaves alone, above all the selected values.
-/

namespace Triage

theorem Selection.mem_ids (s : Selection) (x : Int) :
    x ∈ s.ids ↔ ∃ i ∈ s.items, x ∈ i.info.ids := by
  rw [Selection.ids, mem_firstOfEach_id, List.mem_flatMap]

theorem Selection.isEmpty_iff (s : Selection) : s.isEmpty = true ↔ s.values = [] := by
  rw [Selection.isEmpty, List.isEmpty_iff, Selection.values, List.map_eq_nil_iff]

theorem Selection.contains_eq (s : Selection) (v : String) :
    s.contains v = s.values.contains v := by
  rw [Selection.contains, Selection.values, List.contains_eq_any_beq, List.any_map]
  refine congrArg (s.items.any ·) (funext fun i => ?_)
  show (i.value == v) = (v == i.value)
  exact Bool.beq_comm

namespace Facet

/-! ## alike facets -/

structure Alike (f g : Facet) : Prop where
  kind : f.kind = g.kind
  values : f.values = g.values
  ids : f.kind.isName = true → SameIds f.selection.ids g.selection.ids

theorem Alike.refl (f : Facet) : f.Alike f := ⟨rfl, rfl, fun _ => .refl _⟩

theorem Alike.id_eq {f g : Facet} (h : f.Alike g) : f.id = g.id := by
  rw [Facet.id, Facet.id, h.kind]

theorem Alike.idCondition {f g : Facet} (h : f.Alike g) (hn : f.kind.isName = true) :
    SameIds f.idCondition g.idCondition := by
  have hs : f.selection.isEmpty = g.selection.isEmpty := by
    rw [Bool.eq_iff_iff, Selection.isEmpty_iff, Selection.isEmpty_iff]
    exact iff_of_eq (congrArg (· = []) h.values)
  have hi := h.ids hn
  rw [Facet.idCondition, Facet.idCondition, hi.isEmpty_eq, hs]
  split
  · exact .refl _
  · exact hi

theorem Alike.isUnique {f g : Facet} (h : f.Alike g) : f.isUnique = g.isUnique := by
  rw [Facet.isUnique, Facet.isUnique, Selection.contains_eq, Selection.contains_eq]
  exact congrArg (·.contains "on") h.values

theorem constrain_congr {f g : Facet} (h : f.Alike g) {a b : ReportFilter} (k : a.Alike b) :
    (f.constrain a).Alike (g.constrain b) := by
  have hr := k.rest
  have hi := h.isUnique
  have hv := h.values
  have hids := h.idCondition
  unfold constrain
  rw [← h.kind]
  simp only [ReportFilter.mk.injEq] at hr
  cases hk : f.kind with
  | run side => exact k
  | diffType => exact k
  | runTag side =>
    cases side with
    | baseline => exact ⟨hids (by rw [hk]; rfl), k.rest⟩
    | compare => exact k
  | unique => exact ⟨k.runTag, by simp [hr, hi]⟩
  | reviewStatus => exact ⟨k.runTag, by simp [hr, codes, hv]⟩
  | detectionStatus => exact ⟨k.runTag, by simp [hr, codes, hv]⟩
  | severity => exact ⟨k.runTag, by simp [hr, codes, hv]⟩
  | pathLength => exact ⟨k.runTag, by simp [hr, range, hv]⟩
  | date field => cases field <;> exact ⟨k.runTag, by simp [hr, interval, hv]⟩
  | text field =>
    dsimp only
    rw [hv]
    exact k.setPatterns field _
  | component =>
    dsimp only
    rw [hv]
    exact k.setComponents _
  | reportHash => exact ⟨k.runTag, by simp [hr, hv]⟩

theorem addTo_congr {f g : Facet} (h : f.Alike g) {p q : Query} (k : p.Alike q) :
    (f.addTo p).Alike (g.addTo q) := by
  have hf := constrain_congr h k.filter
  have hv := h.values
  have hids := h.idCondition
  unfold addTo
  rw [← h.kind]
  cases hk : f.kind with
  | run side =>
    have hi := hids (by rw [hk]; rfl)
    cases side with
    | baseline => exact ⟨hi, k.filter, k.compareRunIds, k.compareRunTags, k.diffType⟩
    | compare => exact ⟨k.runIds, k.filter, hi, k.compareRunTags, k.diffType⟩
  | runTag side =>
    have hi := hids (by rw [hk]; rfl)
    cases side with
    | baseline => exact ⟨k.runIds, hf, k.compareRunIds, k.compareRunTags, k.diffType⟩
    | compare => exact ⟨k.runIds, k.filter, k.compareRunIds, hi, k.diffType⟩
  | diffType =>
    refine ⟨k.runIds, k.filter, k.compareRunIds, k.compareRunTags, ?_⟩
    show f.diffType = g.diffType
    rw [Facet.diffType, Facet.diffType, hv]
  | _ => exact ⟨k.runIds, hf, k.compareRunIds, k.compareRunTags, k.diffType⟩

end Facet

namespace Panel

theorem queryOf_congr {fs gs : List Facet} (h : List.Forall₂ Facet.Alike fs gs) :
    (queryOf fs).Alike (queryOf gs) := by
  suffices ∀ p q : Query, p.Alike q →
      (fs.foldl (fun q f => f.addTo q) p).Alike (gs.foldl (fun q f => f.addTo q) q) from
    this {} {} (.refl _)
  induction h with
  | nil => intro p q k; exact k
  | cons hfg _ ih => intro p q k; exact ih _ _ (Facet.addTo_congr hfg k)

theorem filter_congr {fs gs : List Facet} (h : List.Forall₂ Facet.Alike fs gs) (id : String) :
    List.Forall₂ Facet.Alike (fs.filter (·.id != id)) (gs.filter (·.id != id)) := by
  induction h with
  | nil => exact .nil
  | @cons f g _ _ hfg _ ih =>
    rw [List.filter_cons, List.filter_cons, hfg.id_eq]
    split
    · exact .cons hfg ih
    · exact ih

/-- the scope that a list of facets makes, one of them left out -/
def scopeOf (facets : List Facet) (id : String) : Scope :=
  (queryOf (facets.filter (·.id != id))).scope

theorem scopeWithout_eq (p : Panel) (id : String) : p.scopeWithout id = scopeOf p.facets id := rfl

/-- facets that are alike make scopes that are alike -/
theorem scopeOf_congr {fs gs : List Facet} (h : List.Forall₂ Facet.Alike fs gs) (id : String) :
    (scopeOf fs id).Alike (scopeOf gs id) := (queryOf_congr (filter_congr h id)).scope

end Panel

namespace Facet

/-! ## names that have been looked up -/

/-- every selected name has the ids of the runs or tags that it covers -/
def Resolved (s : Store) (f : Facet) : Prop :=
  f.kind.isName = true → ∀ i ∈ f.selection.items, SameIds i.info.ids (f.kind.namedIds s i.value)

theorem mem_ids_of_resolved {s : Store} {f : Facet} (h : f.Resolved s) (hn : f.kind.isName = true)
    (x : Int) : x ∈ f.selection.ids ↔ ∃ v ∈ f.values, x ∈ f.kind.namedIds s v := by
  rw [Selection.mem_ids]
  constructor
  · rintro ⟨i, hi, hx⟩
    exact ⟨i.value, List.mem_map.2 ⟨i, hi, rfl⟩, (h hn i hi x).1 hx⟩
  · rintro ⟨v, hv, hx⟩
    obtain ⟨i, hi, rfl⟩ := List.mem_map.1 hv
    exact ⟨i, hi, (h hn i hi x).2 hx⟩

/-- the values say everything about resolved facets -/
theorem alike_of_resolved {s : Store} {f g : Facet} (hf : f.Resolved s) (hg : g.Resolved s)
    (hk : f.kind = g.kind) (hv : f.values = g.values) : f.Alike g := by
  refine ⟨hk, hv, fun hn x => ?_⟩
  rw [mem_ids_of_resolved hf hn, mem_ids_of_resolved hg (hk ▸ hn), hk, hv]

/-! ## counts -/

/-- every selected value has the count and the ids that the stock says -/
def Counted (s : Store) (scope : Scope) (f : Facet) : Prop :=
  ∀ i ∈ f.selection.items, i.info.Alike (f.kind.finding s scope i.value)

theorem Counted.resolved {s : Store} {scope : Scope} {f : Facet} (h : f.Counted s scope) :
    f.Resolved s := by
  intro _ i hi
  have h1 := (h i hi).ids
  rwa [FacetKind.finding_ids] at h1

theorem Counted.congr {s : Store} {a b : Scope} (k : a.Alike b) {f : Facet}
    (hs : f.kind.isCountSensitive = true) (h : f.Counted s a) : f.Counted s b :=
  fun i hi => (h i hi).trans (f.kind.finding_congr hs s k i.value)

/-- the facet after a refresh that succeeds -/
def refreshed (s : Store) (scope : Scope) (f : Facet) : Facet :=
  if f.hasCounts then f.reconcile (f.kind.answer s scope (.ofValues f.values)) else f

theorem hasCounts_iff (f : Facet) :
    f.hasCounts = true ↔ f.kind.isCountSensitive = true ∧ f.values ≠ [] := by
  rw [hasCounts, Bool.and_eq_true, Bool.not_eq_true', ← Bool.not_eq_true, Selection.isEmpty_iff]
  rfl

theorem refresh_run (f : Facet) (scope : Scope) {g : Gateway} (h : g.failure = none) :
    f.refresh scope g =
      (if f.hasCounts then .refreshed else .skipped, f.refreshed g.store scope,
        if f.hasCounts then { g with calls := g.calls + f.kind.calls scope } else g) := by
  unfold refresh refreshed
  by_cases hc : f.hasCounts = true
  · simp only [hc, if_true]
    rw [FacetKind.offers_run _ _ _ h]
  · simp only [hc, if_false, Bool.false_eq_true]

theorem items_reconcile (f : Facet) (items : List Candidate) :
    (f.reconcile items).selection.items =
      f.selection.items.map fun i => { i with info := observed items i.value } := rfl

theorem values_reconcile (f : Facet) (items : List Candidate) :
    (f.reconcile items).values = f.values := by
  show List.map _ (List.map _ _) = List.map _ _
  rw [List.map_map]
  rfl

/-- the same facet with the same values: at most what is known about the values, the candidates and
the tickets have changed -/
structure Steady (f g : Facet) : Prop where
  kind : g.kind = f.kind
  values : g.values = f.values
  mode : g.selection.mode = f.selection.mode
  search : g.search = f.search

theorem Steady.refl (f : Facet) : f.Steady f := ⟨rfl, rfl, rfl, rfl⟩

theorem Steady.trans {f g h : Facet} (a : f.Steady g) (b : g.Steady h) : f.Steady h :=
  ⟨b.kind.trans a.kind, b.values.trans a.values, b.mode.trans a.mode, b.search.trans a.search⟩

theorem Steady.id_eq {f g : Facet} (h : f.Steady g) : g.id = f.id := congrArg FacetKind.id h.kind

theorem selection_forget (f : Facet) : f.forget.selection = f.selection := by
  unfold forget
  split <;> rfl

theorem steady_forget (f : Facet) : f.Steady f.forget := by
  unfold forget
  split <;> exact ⟨rfl, rfl, rfl, rfl⟩

theorem steady_refreshed (s : Store) (scope : Scope) (f : Facet) :
    f.Steady (f.refreshed s scope) := by
  unfold refreshed
  split
  · exact ⟨rfl, values_reconcile f _, rfl, rfl⟩
  · exact .refl f

theorem candidates_refreshed (s : Store) (scope : Scope) (f : Facet) :
    (f.refreshed s scope).candidates = f.candidates := by
  unfold refreshed
  split <;> rfl

theorem tickets_refreshed (s : Store) (scope : Scope) (f : Facet) :
    (f.refreshed s scope).tickets = f.tickets := by
  unfold refreshed
  split <;> rfl

theorem Resolved.of_selection {s : Store} {f g : Facet} (h : f.Resolved s) (hk : g.kind = f.kind)
    (hs : g.selection = f.selection) : g.Resolved s := by
  intro hn i hi
  rw [hs] at hi
  rw [hk] at hn ⊢
  exact h hn i hi

theorem Counted.of_selection {s : Store} {scope : Scope} {f g : Facet} (h : f.Counted s scope)
    (hk : g.kind = f.kind) (hs : g.selection = f.selection) : g.Counted s scope := by
  intro i hi
  rw [hs] at hi
  rw [hk]
  exact h i hi

/-- the counts of a facet after a refresh are those of the stock -/
theorem counted_refreshed (s : Store) (scope : Scope) (f : Facet)
    (hk : f.kind.isCountSensitive = true) : (f.refreshed s scope).Counted s scope := by
  unfold refreshed
  by_cases hc : f.hasCounts = true
  · rw [if_pos hc]
    intro i hi
    rw [items_reconcile] at hi
    obtain ⟨j, hj, rfl⟩ := List.mem_map.1 hi
    exact f.kind.observed_answer hk s scope (List.mem_map.2 ⟨j, hj, rfl⟩)
  · rw [if_neg hc]
    intro i hi
    have hv : f.values = [] := by
      by_contra hne
      exact hc ((hasCounts_iff f).2 ⟨hk, hne⟩)
    have hn : f.selection.items = [] := List.map_eq_nil_iff.1 hv
    rw [hn] at hi
    cases hi

theorem resolved_refreshed (s : Store) (scope : Scope) (f : Facet) :
    (f.refreshed s scope).Resolved s := by
  intro hn
  have hk := (steady_refreshed s scope f).kind
  have hs : f.kind.isCountSensitive = true := FacetKind.isCountSensitive_of_isName (hk ▸ hn)
  exact (counted_refreshed s scope f hs).resolved hn

end Facet

end Triage
