import Triage.Proofs.Contributions

/-!
# Following a link on a panel that is in use

A panel keeps what is known about values that stay selected, groups that were opened, and the order
in which values came in.  None of this shows in what a link selects:

* `Facet.TakesFrom h f`      the selection is the one that a history asks for, at the facet's own
                             keys (`takesFrom_load`, whatever was selected before);
* `Facet.SameChoices f g`    the same values are selected, in whatever order, and names have the same
                             ids (`queryOf_same`: such facets make queries that select the same
                             reports);
* `Panel.Arrived h q`        every facet takes from the history, and none in a collapsed group has a
                             selection (`arrived_loaded`);
* `navigate_path_independent`   two ready panels of the same store and tab that follow the same link
                             end up with the same selections and the same reports, whatever was done
                             to them before.
-/

namespace Triage

namespace Selection

/-! ## taking values over -/

theorem mem_foldl_select_multi (vs : List String) {v : String} : ∀ {s : Selection},
    s.mode = .multi → (v ∈ (vs.foldl (fun s v => s.select v {}) s).values ↔
      v ∈ s.values ∨ v ∈ vs) := by
  induction vs with
  | nil => intro s _; simp
  | cons w vs ih =>
    intro s hm
    have hw : v ∈ (s.select w {}).values ↔ v ∈ s.values ∨ v = w := by
      by_cases h : w ∈ s.values
      · rw [values_select_of_mem h]
        exact ⟨.inl, fun hv => hv.elim (fun hv => hv) fun e => e ▸ h⟩
      · rw [values_select_multi hm h, List.mem_append, List.mem_singleton]
    rw [List.foldl_cons, ih ((mode_select s w {}).trans hm), hw, List.mem_cons, or_assoc]

/-- of several values the last one stays where only one can be chosen -/
theorem values_foldl_select_single (vs : List String) : ∀ {s : Selection},
    s.mode = .single → s.values.length ≤ 1 →
      (vs.foldl (fun s v => s.select v {}) s).values = (s.values ++ vs).getLast?.toList := by
  induction vs with
  | nil =>
    intro s _ hl
    rw [List.append_nil]
    show s.values = _
    match s.values, hl with
    | [], _ => rfl
    | [v], _ => rfl
  | cons v vs ih =>
    intro s hm hl
    have hv : (s.select v {}).values = [v] := by
      by_cases h : v ∈ s.values
      · rw [values_select_of_mem h]
        match hs : s.values, hl with
        | [], _ => rw [hs] at h; cases h
        | [w], _ => rw [hs, List.mem_singleton] at h; rw [h]
      · exact values_select_single hm h {}
    rw [List.foldl_cons, ih ((mode_select s v {}).trans hm) (by rw [hv]; exact le_refl 1), hv,
      List.getLast?_append_of_ne_nil s.values (List.cons_ne_nil v vs)]
    rfl

end Selection

namespace Facet

theorem kept_subset (f : Facet) (wanted : List String) :
    ∀ v ∈ (f.kept wanted).values, v ∈ wanted := by
  intro v hv
  unfold kept at hv
  split at hv
  · cases hv
  · obtain ⟨i, hi, rfl⟩ := List.mem_map.1 hv
    exact List.contains_iff_mem.1 (List.mem_filter.1 hi).2

theorem mem_load_multi {f : Facet} (hf : f.Proper) (hm : f.kind.mode = .multi) (h : History)
    (v : String) : v ∈ (f.load h).values ↔ v ∈ incoming f.kind h := by
  have hmode : (f.kept (incoming f.kind h)).mode = .multi := (proper_kept hf _).mode.trans hm
  refine (Selection.mem_foldl_select_multi _ hmode).trans (or_iff_right_of_imp ?_)
  exact f.kept_subset _ v

theorem values_load_single {f : Facet} (hf : f.Proper) (hm : f.kind.mode = .single)
    (h : History) : (f.load h).values = (incoming f.kind h).getLast?.toList := by
  have hk := proper_kept hf (incoming f.kind h)
  refine (Selection.values_foldl_select_single _ (hk.mode.trans hm) (hk.single hm)).trans ?_
  cases hw : incoming f.kind h with
  | nil =>
    have hnil : (f.kept []).values = [] :=
      List.eq_nil_iff_forall_not_mem.2 fun v hv => List.not_mem_nil (f.kept_subset [] v hv)
    rw [hnil]
    rfl
  | cons v vs => rw [List.getLast?_append_of_ne_nil _ (List.cons_ne_nil v vs)]

/-! ## what a link asks for -/

/-- the values of a key that the facet accepts, in canonical form -/
def acceptable (k : FacetKind) (h : History) : List String :=
  ((h.get? k.id).getD []).filterMap k.canonical

/-- both bounds, from the first value of each key -/
def boundsAsked (h : History) : String :=
  (h.first? FacetKind.minKey).getD "" ++ ":" ++ (h.first? FacetKind.maxKey).getD ""

/-- The selection is the one that a history asks for: all acceptable values where several can be
chosen, in whatever order; the last of them where only one can be; and for the length both bounds, if
they are acceptable together. -/
def TakesFrom (h : History) (f : Facet) : Prop :=
  match f.kind with
  | .pathLength => f.values = (FacetKind.pathLength.canonical (boundsAsked h)).toList
  | k =>
    match k.mode with
    | .multi => SameMembers f.values (acceptable k h)
    | .single => f.values = (acceptable k h).getLast?.toList

theorem incoming_of_ne_pathLength {k : FacetKind} (hk : k ≠ .pathLength) (h : History) :
    incoming k h = acceptable k h := by
  have hkey : k.mainKey = k.id := by
    unfold FacetKind.mainKey
    split
    · exact absurd rfl hk
    · rfl
  unfold incoming acceptable
  split
  · exact absurd rfl hk
  · rw [hkey]

theorem incoming_pathLength (h : History) :
    incoming .pathLength h = (FacetKind.pathLength.canonical (boundsAsked h)).toList := by
  show (if _ then _ else _) = _
  split
  · next he =>
    rw [boundsAsked, he.1, he.2]
    decide +kernel
  · rfl

theorem takesFrom_pathLength {f : Facet} (hk : f.kind = .pathLength) (h : History) :
    f.TakesFrom h ↔ f.values = (FacetKind.pathLength.canonical (boundsAsked h)).toList := by
  unfold TakesFrom
  rw [hk]

theorem takesFrom_of_ne_pathLength {f : Facet} (hk : f.kind ≠ .pathLength) (h : History) :
    f.TakesFrom h ↔ match f.kind.mode with
      | .multi => SameMembers f.values (acceptable f.kind h)
      | .single => f.values = (acceptable f.kind h).getLast?.toList := by
  unfold TakesFrom
  split
  · next e => exact absurd e hk
  · exact Iff.rfl

theorem TakesFrom.of_values {f g : Facet} {h : History} (hf : f.TakesFrom h)
    (hk : g.kind = f.kind) (hv : g.values = f.values) : g.TakesFrom h := by
  unfold TakesFrom at hf ⊢
  rwa [hk, hv]

/-- whatever was selected before, a load selects what the history asks for -/
theorem takesFrom_load {f : Facet} (hf : f.Proper) (h : History) : (f.load h).TakesFrom h := by
  by_cases hk : f.kind = .pathLength
  · rw [takesFrom_pathLength (f := f.load h) hk,
      values_load_single hf (by rw [hk]; rfl), hk, incoming_pathLength]
    cases FacetKind.pathLength.canonical (boundsAsked h) <;> rfl
  · have hkind : (f.load h).kind = f.kind := rfl
    rw [takesFrom_of_ne_pathLength (f := f.load h) hk, hkind, ← incoming_of_ne_pathLength hk]
    cases hm : f.kind.mode with
    | multi => exact mem_load_multi hf hm h
    | single => exact values_load_single hf hm h

/-- the keys of other facets do not matter -/
theorem TakesFrom.of_own_keys {f : Facet} {h h' : History} (hf : f.TakesFrom h)
    (hkeys : ∀ key ∈ f.kind.keys, h'.get? key = h.get? key) : f.TakesFrom h' := by
  by_cases hk : f.kind = .pathLength
  · rw [takesFrom_pathLength hk] at hf ⊢
    rw [hk] at hkeys
    have hmin := hkeys FacetKind.minKey (by decide)
    have hmax := hkeys FacetKind.maxKey (by decide)
    rw [hf, boundsAsked, boundsAsked, History.first?, History.first?, History.first?,
      History.first?, hmin, hmax]
  · have hid : f.kind.id ∈ f.kind.keys := by
      unfold FacetKind.keys
      split
      · next e => exact absurd e hk
      · exact List.mem_singleton_self _
    have hacc : acceptable f.kind h' = acceptable f.kind h := by
      rw [acceptable, acceptable, hkeys _ hid]
    rw [takesFrom_of_ne_pathLength hk] at hf ⊢
    rwa [hacc]

/-! ## the same choices -/

/-- the same values are selected, and names stand for the same runs or tags -/
structure SameChoices (f g : Facet) : Prop where
  kind : f.kind = g.kind
  values : SameMembers f.values g.values
  single : f.kind.mode = .single → f.values = g.values
  ids : f.kind.isName = true → SameMembers f.selection.ids g.selection.ids

theorem sameChoices_of_takesFrom {s : Store} {h : History} {f g : Facet} (hk : f.kind = g.kind)
    (hf : f.TakesFrom h) (hg : g.TakesFrom h) (hrf : f.Resolved s) (hrg : g.Resolved s) :
    f.SameChoices g := by
  have hboth : SameMembers f.values g.values ∧ (f.kind.mode = .single → f.values = g.values) := by
    by_cases hp : f.kind = .pathLength
    · have e : f.values = g.values :=
        ((takesFrom_pathLength hp h).1 hf).trans
          ((takesFrom_pathLength (hk ▸ hp) h).1 hg).symm
      exact ⟨.of_eq e, fun _ => e⟩
    · rw [takesFrom_of_ne_pathLength hp] at hf
      rw [takesFrom_of_ne_pathLength (hk ▸ hp), ← hk] at hg
      cases hm : f.kind.mode with
      | multi =>
        rw [hm] at hf hg
        exact ⟨fun v => (hf v).trans (hg v).symm, fun e => nomatch e⟩
      | single =>
        rw [hm] at hf hg
        have e : f.values = g.values := Eq.trans hf (Eq.symm hg)
        exact ⟨.of_eq e, fun _ => e⟩
  refine ⟨hk, hboth.1, hboth.2, fun hn x => ?_⟩
  rw [mem_ids_of_resolved hrf hn, mem_ids_of_resolved hrg (hk ▸ hn), hk]
  exact exists_congr fun v => and_congr_left fun _ => hboth.1 v

theorem SameChoices.idCondition {f g : Facet} (h : f.SameChoices g)
    (hn : f.kind.isName = true) : SameMembers f.idCondition g.idCondition := by
  have hs : f.selection.isEmpty = g.selection.isEmpty := by
    rw [Bool.eq_iff_iff, Selection.isEmpty_iff, Selection.isEmpty_iff]
    exact h.values.nil_iff
  have hi := h.ids hn
  rw [Facet.idCondition, Facet.idCondition, hi.isEmpty_eq, hs]
  split
  · exact .refl _
  · exact hi

theorem constrain_same {f g : Facet} (h : f.SameChoices g) {a b : ReportFilter} (k : a.Same b) :
    (f.constrain a).Same (g.constrain b) := by
  have hv := h.values
  have hone := h.single
  have hids := h.idCondition
  unfold constrain
  rw [← h.kind]
  cases hk : f.kind with
  | run side | diffType => exact k
  | runTag side =>
    cases side with
    | baseline => exact { k with runTag := hids (by rw [hk]; rfl) }
    | compare => exact k
  | unique =>
    have hu : f.isUnique = g.isUnique := by
      rw [isUnique, isUnique, Selection.contains_eq, Selection.contains_eq]
      exact hv.contains_eq "on"
    exact { k with isUnique := hu }
  | reviewStatus => exact { k with reviewStatus := hv.filterMap _ }
  | detectionStatus => exact { k with detectionStatus := hv.filterMap _ }
  | severity => exact { k with severity := hv.filterMap _ }
  | pathLength =>
    have hr : f.range = g.range := by rw [range, range, hone (by rw [hk]; rfl)]
    exact { k with bugPathLength := hr }
  | date field =>
    have hi : f.interval = g.interval := by rw [interval, interval, hone (by rw [hk]; rfl)]
    have hd := k.date
    cases field with
    | detected => exact { k with date := by rw [hi, hd] }
    | fixed => exact { k with date := by rw [hi, hd] }
  | text field =>
    cases field with
    | filePath => exact { k with filepath := hv }
    | checkerName => exact { k with checkerName := hv }
    | checkerMsg => exact { k with checkerMsg := hv }
  | component => exact { k with componentNames := hv }
  | reportHash => exact { k with reportHash := hv }

theorem addTo_same {f g : Facet} (h : f.SameChoices g) {p q : Query} (k : p.Same q) :
    (f.addTo p).Same (g.addTo q) := by
  have hf := constrain_same h k.filter
  have hone := h.single
  have hids := h.idCondition
  unfold addTo
  rw [← h.kind]
  cases hk : f.kind with
  | run side =>
    have hi := hids (by rw [hk]; rfl)
    cases side with
    | baseline => exact { k with runIds := hi }
    | compare => exact { k with compareRunIds := hi }
  | runTag side =>
    cases side with
    | baseline => exact { k with filter := hf }
    | compare => exact { k with compareRunTags := hids (by rw [hk]; rfl) }
  | diffType =>
    have hd : f.diffType = g.diffType := by rw [diffType, diffType, hone (by rw [hk]; rfl)]
    exact { k with diffType := hd }
  | _ => exact { k with filter := hf }

end Facet

namespace Panel

theorem queryOf_same {fs gs : List Facet} (h : List.Forall₂ Facet.SameChoices fs gs) :
    (queryOf fs).Same (queryOf gs) := by
  suffices ∀ p q : Query, p.Same q →
      (fs.foldl (fun q f => f.addTo q) p).Same (gs.foldl (fun q f => f.addTo q) q) from
    this {} {} (.refl _)
  induction h with
  | nil => intro p q k; exact k
  | cons hfg _ ih => intro p q k; exact ih _ _ (Facet.addTo_same hfg k)

/-! ## after a load -/

variable {s : Store}

/-- every facet has what a history asks for at its own keys, and none of them is hidden -/
structure Arrived (h : History) (q : Panel) : Prop where
  kinds : q.facets.map (·.kind) = FacetKind.all
  taken : ∀ f ∈ q.facets, ∀ h' : History,
    (∀ key ∈ f.kind.keys, h'.get? key = h.get? key) → f.TakesFrom h'
  shown : ∀ f ∈ q.facets, q.inClosedGroup f.id = true → f.values = []

theorem arrived_loaded {p : Panel} (hk : p.facets.map (·.kind) = FacetKind.all)
    (hp : ∀ f ∈ p.facets, f.Proper) (h : History) (n : Nat) : (loaded s p h n).Arrived h := by
  have hturned : ∀ g ∈ (loaded s p h n).facets, ∃ f ∈ p.facets, ∃ scope,
      g = turn s (p.takingOver h).inClosedGroup [] scope (f.load h) := by
    intro g hg
    obtain ⟨k, hk, scope, rfl⟩ := exists_of_forall₂_right
      (turns_forall₂ s (p.takingOver h).inClosedGroup [] (p.takingOver h).facets []) hg
    obtain ⟨f, hf, rfl⟩ := List.mem_map.1 hk
    exact ⟨f, hf, scope, rfl⟩
  refine ⟨?_, ?_, ?_⟩
  · exact (kinds_turns _ _ _ _).trans ((kinds_takingOver p h).trans hk)
  · intro g hg h' hkeys
    obtain ⟨f, hf, scope, rfl⟩ := hturned g hg
    have hst := steady_turn s (p.takingOver h).inClosedGroup [] scope (f.load h)
    have ht := (Facet.takesFrom_load (hp f hf) h).of_values hst.kind hst.values
    exact ht.of_own_keys hkeys
  · intro g hg hc
    obtain ⟨f, hf, scope, rfl⟩ := hturned g hg
    have he := emptyWhenClosed_turn (s := s)
      (emptyWhenClosed_takingOver p h (f.load h) (List.mem_map.2 ⟨f, hf, rfl⟩)) scope
    exact List.map_eq_nil_iff.2 (he hc)

/-! ## two panels -/

theorem navigate_eq_none_iff {p : Panel} (hr : p.phase = .ready) (h : History) :
    p.navigate h = none ↔ p.namesOtherTab h = true := by
  unfold navigate
  rw [hr]
  cases p.namesOtherTab h <;> simp

theorem exists_navigate {p : Panel} {h : History} (hr : p.phase = .ready)
    (ho : p.namesOtherTab h = false) : ∃ t q, p.navigate h = some (t, q) :=
  ⟨(p.load h .deepLink).1, (p.load h .deepLink).2, if_pos ⟨hr, ho⟩⟩

theorem navigate_eq_some {p q : Panel} {t : Summary} {h : History}
    (hn : p.navigate h = some (t, q)) : q = (p.load h .deepLink).2 :=
  Loads.eq_load (.navigate hn)

theorem namesOtherTab_congr {p q : Panel} (h : p.tab = q.tab) (link : History) :
    p.namesOtherTab link = q.namesOtherTab link := by
  rw [namesOtherTab, namesOtherTab, h]

theorem perform_navigate_of_none {p : Panel} {h : History} (hn : p.navigate h = none) :
    p.perform (.navigate h) = p := by
  show p.loadedOr (p.navigate h) = p
  rw [hn]
  rfl

/-- Two standard panels with the same configuration and tab, ready, whatever was done to them: either
both pass over a link and stay as they are, or, while the service answers both from the same store,
both take the same selections from it and show the same reports. -/
theorem navigate_path_independent (config : Config) (s : Store) (tab : String) (g₁ g₂ : Gateway)
    (os₁ os₂ : List Operation) :
    let p₁ := (standard config g₁ tab).applyAll os₁
    let p₂ := (standard config g₂ tab).applyAll os₂
    p₁.phase = .ready → p₂.phase = .ready → ∀ h : History,
      (p₁.navigate h = none ↔ p₂.navigate h = none) ∧
      (p₁.navigate h = none →
        p₁.perform (.navigate h) = p₁ ∧ p₂.perform (.navigate h) = p₂) ∧
      (p₁.gateway.store = s → p₁.gateway.failure = none →
        p₂.gateway.store = s → p₂.gateway.failure = none →
        ∀ t₁ q₁ t₂ q₂, p₁.navigate h = some (t₁, q₁) → p₂.navigate h = some (t₂, q₂) →
          q₁.Arrived h ∧ q₂.Arrived h ∧
          (∀ f₁ ∈ q₁.facets, ∀ f₂ ∈ q₂.facets, f₁.kind = f₂.kind →
            SameMembers f₁.values f₂.values) ∧
          s.results q₁.query.scope = s.results q₂.query.scope) := by
  intro p₁ p₂ hr₁ hr₂ h
  have hc₁ : p₁.Complete config tab := complete_standard config g₁ tab os₁
  have hc₂ : p₂.Complete config tab := complete_standard config g₂ tab os₂
  have hiff : p₁.navigate h = none ↔ p₂.navigate h = none := by
    rw [navigate_eq_none_iff hr₁, navigate_eq_none_iff hr₂,
      namesOtherTab_congr (hc₁.tab.trans hc₂.tab.symm)]
  refine ⟨hiff, fun hn => ⟨perform_navigate_of_none hn, perform_navigate_of_none (hiff.1 hn)⟩, ?_⟩
  intro hs₁ ha₁ hs₂ ha₂ t₁ q₁ t₂ q₂ hn₁ hn₂
  obtain ⟨n₁, hl₁⟩ := load_eq ⟨hc₁.distinct, hs₁, ha₁⟩ h .deepLink
  obtain ⟨n₂, hl₂⟩ := load_eq ⟨hc₂.distinct, hs₂, ha₂⟩ h .deepLink
  rw [asked_deepLink] at hl₁ hl₂
  rw [navigate_eq_some hn₁, navigate_eq_some hn₂, hl₁, hl₂]
  have harr₁ := arrived_loaded (s := s) hc₁.kinds (proper_applyAll config g₁ tab os₁) h n₁
  have harr₂ := arrived_loaded (s := s) hc₂.kinds (proper_applyAll config g₂ tab os₂) h n₂
  have hsame : ∀ f₁ ∈ (loaded s p₁ h n₁).facets, ∀ f₂ ∈ (loaded s p₂ h n₂).facets,
      f₁.kind = f₂.kind → f₁.SameChoices f₂ := fun f₁ hf₁ f₂ hf₂ hk =>
    Facet.sameChoices_of_takesFrom hk (harr₁.taken f₁ hf₁ h fun _ _ => rfl)
      (harr₂.taken f₂ hf₂ h fun _ _ => rfl) (resolved_loaded p₁ h n₁ f₁ hf₁)
      (resolved_loaded p₂ h n₂ f₂ hf₂)
  have hforall := forall₂_of_map_eq (harr₁.kinds.trans harr₂.kinds.symm) hsame
  exact ⟨harr₁, harr₂, fun f₁ hf₁ f₂ hf₂ hk => (hsame f₁ hf₁ f₂ hf₂ hk).values,
    s.results_same (queryOf_same hforall).scope⟩

/-- selections that a user makes -/
def clickedTogether : List Operation :=
  [.request (.appear {} .deepLink), .request (.select "run" "beta" {}),
   .request (.select "run" "alpha" {}), .request (.select "filepath" "/b.c" {})]

/-- a service that fails while something is claimed about a value, and answers later -/
def failedAtFirst : List Operation :=
  [.service { failure := some (.timeout "") }, .request (.appear {} .deepLink),
   .request (.select "newcheck" "beta" ⟨some 7, [5]⟩), .service { store := twoRuns }]

theorem navigate_path_independent_twoPanels :
    ((standard {} { store := twoRuns } "reports").applyAll clickedTogether).phase = .ready ∧
    ((standard {} {} "reports").applyAll failedAtFirst).phase = .ready ∧
    ∃ t₁ q₁ t₂ q₂,
      ((standard {} { store := twoRuns } "reports").applyAll clickedTogether).navigate
        comparisonLink = some (t₁, q₁) ∧
      ((standard {} {} "reports").applyAll failedAtFirst).navigate comparisonLink =
        some (t₂, q₂) ∧
      q₁.Arrived comparisonLink ∧ q₂.Arrived comparisonLink ∧
      twoRuns.results q₁.query.scope = twoRuns.results q₂.query.scope := by
  have hr₁ : ((standard {} { store := twoRuns } "reports").applyAll clickedTogether).phase =
      .ready := by decide +kernel
  have hr₂ : ((standard {} {} "reports").applyAll failedAtFirst).phase = .ready := by
    decide +kernel
  have h := navigate_path_independent {} twoRuns "reports" { store := twoRuns } {} clickedTogether
    failedAtFirst hr₁ hr₂ comparisonLink
  generalize hp₁ : (standard {} { store := twoRuns } "reports").applyAll clickedTogether = p₁ at *
  generalize hp₂ : (standard {} {} "reports").applyAll failedAtFirst = p₂ at *
  have hs₁ : p₁.gateway.store = twoRuns ∧ p₁.gateway.failure = none := by
    rw [← hp₁]
    decide +kernel
  have hs₂ : p₂.gateway.store = twoRuns ∧ p₂.gateway.failure = none := by
    rw [← hp₂]
    decide +kernel
  have ho₁ : p₁.namesOtherTab comparisonLink = false := by
    rw [← hp₁]
    decide +kernel
  have ho₂ : p₂.namesOtherTab comparisonLink = false := by
    rw [← hp₂]
    decide +kernel
  obtain ⟨t₁, q₁, hn₁⟩ := exists_navigate hr₁ ho₁
  obtain ⟨t₂, q₂, hn₂⟩ := exists_navigate hr₂ ho₂
  obtain ⟨h1, h2, -, h3⟩ := h.2.2 hs₁.1 hs₁.2 hs₂.1 hs₂.2 t₁ q₁ t₂ q₂ hn₁ hn₂
  exact ⟨hr₁, hr₂, t₁, q₁, t₂, q₂, hn₁, hn₂, h1, h2, h3⟩

end Panel
end Triage
