import Triage.Proofs.Coherence
import Triage.Proofs.Navigation
import Triage.Proofs.Registration

/-!
# The first initialisation and the configured defaults

* `Panel.initialisation? p o`   the history and the origin, if an operation initialises the panel;
                                a panel is ready after the first of these, and from then on
                                (`ready_applyAll_iff`);
* `Panel.brought p h origin k`  what an initialisation brings into a facet of kind `k`: a default if
                                it is the first, the user came by navigation, and the history does
                                not have the key; else what the history asks for
                                (`acceptable_asked`);
* `Panel.mem_values_edit`       nothing else comes into a selection but by selecting it;
* `Panel.lifecycle_defaults`    all this in every state of a standard panel.
-/

namespace Triage

/-- only the canonical form of what is selected comes in -/
theorem Facet.mem_values_select {f : Facet} {raw v : String} {info : ValueInfo}
    (h : v ∈ (f.select raw info).values) : v ∈ f.values ∨ f.kind.canonical raw = some v := by
  unfold select at h
  split at h
  · exact .inl h
  · next w hw =>
    rcases Selection.mem_values_select h with h | rfl
    · exact .inl h
    · exact .inr hw

namespace Panel

variable {p : Panel}

/-! ## initialisations -/

/-- the history and the origin, if the operation initialises the panel -/
def initialisation? (p : Panel) : Operation → Option (History × Origin)
  | .request (.start h) => (p.start h).map fun _ => (h, .deepLink)
  | .request (.appear h origin) => (p.appear h origin).map fun _ => (h, origin)
  | .request (.navigate h) => (p.navigate h).map fun _ => (h, .deepLink)
  | .load h origin => some (h, origin)
  | _ => none

theorem takenFrom_eq (p : Panel) (o : Operation) :
    p.takenFrom o = (p.initialisation? o).map fun i => p.asked i.1 i.2 := by
  have hway : ∀ (way : Option (Summary × Panel)) (h : History) (origin : Origin),
      way.map (fun _ => p.asked h origin) =
        (way.map fun _ => (h, origin)).map fun i => p.asked i.1 i.2 := by
    intro way h origin
    cases way <;> rfl
  have hlink := fun way h => asked_deepLink p h ▸ hway way h .deepLink
  cases o with
  | request a =>
    cases a with
    | start h => exact hlink (p.start h) h
    | appear h origin => exact hway (p.appear h origin) h origin
    | navigate h => exact hlink (p.navigate h) h
    | _ => rfl
  | _ => rfl

theorem ready_apply_iff (hp : p.Registered) (o : Operation) :
    (p.apply o).phase = .ready ↔ p.phase = .ready ∨ (p.initialisation? o).isSome = true := by
  rw [(books_apply hp o).phase, takenFrom_eq, Option.isSome_map]
  cases (p.initialisation? o).isSome <;> simp

/-- a panel is ready from the first initialisation on -/
theorem ready_applyAll_iff (os : List Operation) : ∀ {p : Panel}, p.Registered →
    ((p.applyAll os).phase = .ready ↔ p.phase = .ready ∨ ∃ before o after,
      os = before ++ o :: after ∧ ((p.applyAll before).initialisation? o).isSome = true) := by
  induction os with
  | nil =>
    intro p _
    refine (or_iff_left ?_).symm
    rintro ⟨before, o, after, h, -⟩
    cases before <;> cases h
  | cons o os ih =>
    intro p hp
    rw [applyAll_cons, ih (registered_apply hp o), ready_apply_iff hp, or_assoc]
    refine or_congr_right ⟨?_, ?_⟩
    · rintro (h | ⟨before, o', after, rfl, h⟩)
      · exact ⟨[], o, os, rfl, h⟩
      · exact ⟨o :: before, o', after, rfl, h⟩
    · rintro ⟨before, o', after, he, h⟩
      cases before with
      | nil =>
        cases he
        exact .inl h
      | cons b before =>
        cases he
        exact .inr ⟨before, o', after, rfl, h⟩

/-! ## what an initialisation brings -/

/-- what is selected in a facet when the user has asked for nothing -/
def defaultsFor (p : Panel) : FacetKind → List String
  | .detectionStatus => p.config.defaultDetectionStatuses.map Coded.label
  | .unique => if p.config.defaultUnique then ["on"] else []
  | _ => []

/-- the values that an initialisation brings into a facet -/
def brought (p : Panel) (h : History) (origin : Origin) (k : FacetKind) : List String :=
  if p.phase = .uninitialized ∧ origin = .userNavigation ∧ h.has k.id = false then p.defaultsFor k
  else Facet.acceptable k h

theorem acceptable_congr {k : FacetKind} {h h' : History} (hk : h'.get? k.id = h.get? k.id) :
    Facet.acceptable k h' = Facet.acceptable k h := by
  rw [Facet.acceptable, Facet.acceptable, hk]

theorem acceptable_of_absent {k : FacetKind} {h : History} (hk : h.has k.id = false) :
    Facet.acceptable k h = [] := by
  have hget : h.get? k.id = none := Option.isSome_eq_false_iff.1 hk |> Option.isNone_iff_eq_none.1
  rw [Facet.acceptable, hget]
  rfl

/-- the default statuses are read back from a history -/
theorem acceptable_withDefaultStatuses (hkey : p.hasKey FacetKind.detectionStatus.id = true)
    {h : History} (hno : h.has FacetKind.detectionStatus.id = false) :
    Facet.acceptable .detectionStatus (p.withDefaultStatuses h) =
      p.config.defaultDetectionStatuses.map Coded.label := by
  unfold withDefaultStatuses
  dsimp only
  rw [hkey, hno]
  simp only [Bool.not_false, Bool.and_self, if_true]
  cases p.config.defaultDetectionStatuses with
  | nil => exact acceptable_of_absent hno
  | cons status statuses =>
    have hget : (h.set FacetKind.detectionStatus.id
        (some ((status :: statuses).map Coded.label))).get? FacetKind.detectionStatus.id =
          some ((status :: statuses).map Coded.label) := Table.get?_put_self _ _ _
    rw [Facet.acceptable, hget, Option.getD_some, List.filterMap_map]
    refine (List.filterMap_congr fun s _ => ?_).trans (congrFun List.filterMap_eq_map _)
    exact (FacetKind.detectionStatus_labels s (by cases s <;> decide)).1

theorem acceptable_withDefaultUnique (hkey : p.hasKey FacetKind.unique.id = true)
    {h : History} (hno : h.has FacetKind.unique.id = false) :
    Facet.acceptable .unique (p.withDefaultUnique h) =
      if p.config.defaultUnique then ["on"] else [] := by
  unfold withDefaultUnique
  dsimp only
  rw [hkey, hno]
  simp only [Bool.not_false, Bool.true_and]
  cases p.config.defaultUnique with
  | false => exact acceptable_of_absent hno
  | true =>
    have hget : (h.putOne FacetKind.unique.id "on").get? FacetKind.unique.id = some ["on"] :=
      Table.get?_put_self _ _ _
    simp only [if_true]
    rw [Facet.acceptable, hget]
    decide +kernel

/-- a default comes in where the history does not have the key, and only then -/
theorem acceptable_asked {k : FacetKind} (h : History) (origin : Origin)
    (given : h.has k.id = true → (p.withDefaults h).get? k.id = h.get? k.id)
    (missing : h.has k.id = false → Facet.acceptable k (p.withDefaults h) = p.defaultsFor k) :
    Facet.acceptable k (p.asked h origin) = p.brought h origin k := by
  unfold asked brought
  by_cases hc : p.phase = .uninitialized ∧ origin = .userNavigation
  · rw [if_pos hc]
    cases hh : h.has k.id with
    | true => rw [if_neg (by simp), acceptable_congr (given hh)]
    | false => rw [if_pos ⟨hc.1, hc.2, rfl⟩, missing hh]
  · rw [if_neg hc, if_neg fun h => hc ⟨h.1, h.2.1⟩]

theorem acceptable_asked_detectionStatus (hkey : p.hasKey FacetKind.detectionStatus.id = true)
    (h : History) (origin : Origin) :
    Facet.acceptable .detectionStatus (p.asked h origin) = p.brought h origin .detectionStatus := by
  have hne : FacetKind.detectionStatus.id ≠ FacetKind.unique.id := by decide
  have hunique := get?_withDefaultUnique_ne (p := p) (p.withDefaultStatuses h) hne
  refine acceptable_asked h origin (fun hh => hunique.trans ?_) fun hh => ?_
  · simp [withDefaultStatuses, hh]
  · rw [withDefaults, acceptable_congr hunique, acceptable_withDefaultStatuses hkey hh, defaultsFor]

theorem acceptable_asked_unique (hkey : p.hasKey FacetKind.unique.id = true)
    (h : History) (origin : Origin) :
    Facet.acceptable .unique (p.asked h origin) = p.brought h origin .unique := by
  have hne : FacetKind.unique.id ≠ FacetKind.detectionStatus.id := by decide
  have hget := get?_withDefaultStatuses_ne (p := p) h hne
  have hhas : (p.withDefaultStatuses h).has FacetKind.unique.id = h.has FacetKind.unique.id :=
    congrArg Option.isSome hget
  refine acceptable_asked h origin (fun hh => Eq.trans ?_ hget) fun hh => ?_
  · simp [withDefaults, withDefaultUnique, hhas, hh]
  · rw [withDefaults, acceptable_withDefaultUnique hkey (hhas.trans hh), defaultsFor]

/-! ## every other operation -/

/-- a value that is not taken from a history was selected before, or has just been -/
theorem mem_values_edit {o : Operation} (ho : p.initialisation? o = none) {f : Facet} {v : String}
    (hv : v ∈ (p.edit o f).values) : v ∈ f.values ∨
      ∃ raw info, o = .request (.select f.id raw info) ∧ f.kind.canonical raw = some v := by
  rcases p.edit_cases o f with ⟨hfewer, -⟩ | ⟨raw, info, rfl, he⟩ | ⟨h, ht, -⟩
  · exact .inl ((hfewer.map _).subset hv)
  · rw [he] at hv
    exact (Facet.mem_values_select hv).imp_right fun hc => ⟨raw, info, rfl, hc⟩
  · rw [takenFrom_eq, ho] at ht
    cases ht

/-! ## every state -/

theorem Complete.hasKey {config : Config} {tab : String} (h : p.Complete config tab)
    (k : FacetKind) {key : String} (hk : key ∈ k.keys) : p.hasKey key = true := by
  obtain ⟨f, hf, rfl⟩ := List.mem_map.1 (h.kinds ▸ mem_all k)
  exact List.any_eq_true.2 ⟨f, hf, List.contains_iff_mem.2 hk⟩

/-- the facets after an operation on a standard panel are those from before, edited -/
theorem Complete.exists_edit {config : Config} {tab : String} (h : p.Complete config tab)
    (o : Operation) {f : Facet} (hf : f ∈ (p.apply o).facets) :
    ∃ g ∈ p.facets, (p.edit o g).kind = f.kind ∧ (p.edit o g).values = f.values := by
  have hadded : p.added o = [] := by
    rcases added_cases p o with ha | ⟨kind, n, hk, ha⟩
    · exact ha
    · exact absurd (mem_all kind) (h.kinds ▸ hk)
  have hpick : f.pick ∈ (p.facets.map (p.edit o)).map Facet.pick := by
    have hq := picks_apply h.distinct o
    rw [hadded, List.append_nil] at hq
    exact hq ▸ List.mem_map_of_mem hf
  obtain ⟨_, he, hp⟩ := List.mem_map.1 hpick
  obtain ⟨g, hg, rfl⟩ := List.mem_map.1 he
  exact ⟨g, hg, congrArg Prod.fst hp, congrArg Prod.snd hp⟩

theorem takesFrom_initialised {config : Config} {tab : String} (hc : p.Complete config tab)
    (hproper : ∀ f ∈ p.facets, f.Proper) {o : Operation} {h : History} {origin : Origin}
    (ho : p.initialisation? o = some (h, origin)) {f : Facet} (hf : f ∈ (p.apply o).facets) :
    f.TakesFrom (p.asked h origin) := by
  obtain ⟨g, hg, hk, hv⟩ := hc.exists_edit o hf
  have ht : p.takenFrom o = some (p.asked h origin) := by
    rw [takenFrom_eq, ho]
    rfl
  rw [(of_takenFrom ht).2.2.2 g] at hk hv
  exact (Facet.takesFrom_load (hproper g hg) _).of_values hk.symm hv.symm

/-- what an initialisation of a standard panel brings, facet by facet -/
theorem brought_initialised {config : Config} {tab : String} (hc : p.Complete config tab)
    (hproper : ∀ f ∈ p.facets, f.Proper) {o : Operation} {h : History} {origin : Origin}
    (ho : p.initialisation? o = some (h, origin)) {f : Facet} (hf : f ∈ (p.apply o).facets) :
    (f.kind = .detectionStatus → SameMembers f.values (p.brought h origin .detectionStatus)) ∧
      (f.kind = .unique → f.values = (p.brought h origin .unique).getLast?.toList) ∧
      (f.kind ≠ .detectionStatus → f.kind ≠ .unique → f.TakesFrom h) := by
  have ht := takesFrom_initialised hc hproper ho hf
  refine ⟨fun hk => ?_, fun hk => ?_, fun hd hu => ?_⟩
  · rw [Facet.takesFrom_of_ne_pathLength (by rw [hk]; decide), hk] at ht
    rw [← acceptable_asked_detectionStatus (hc.hasKey .detectionStatus (by decide))]
    exact ht
  · rw [Facet.takesFrom_of_ne_pathLength (by rw [hk]; decide), hk] at ht
    rw [← acceptable_asked_unique (hc.hasKey .unique (by decide))]
    exact ht
  · refine ht.of_own_keys fun key hkey => (get?_asked ?_ ?_ h origin).symm
    · rintro rfl
      exact FacetKind.disjoint_keys hd hkey (by decide)
    · rintro rfl
      exact FacetKind.disjoint_keys hu hkey (by decide)

theorem isSome_start_iff {tab : String} (ht : p.tab = some tab) (h : History) :
    (p.start h).isSome = true ↔ p.phase = .uninitialized ∧ h.first? tabKey = some tab := by
  rw [start, Option.isSome_ite, ht]
  simp

theorem isSome_appear_iff (h : History) (origin : Origin) :
    (p.appear h origin).isSome = true ↔ p.phase = .uninitialized := by
  rw [appear, Option.isSome_ite]

theorem isSome_navigate_iff {tab : String} (ht : p.tab = some tab) (h : History) :
    (p.navigate h).isSome = true ↔
      p.phase = .ready ∧ ∀ other, h.first? tabKey = some other → other = tab := by
  rw [navigate, Option.isSome_ite, namesOtherTab, ht]
  cases h.first? tabKey with
  | none => simp
  | some theirs =>
    refine and_congr_right fun _ => ?_
    show (tab != theirs) = false ↔ _
    rw [bne_eq_false_iff_eq]
    exact ⟨fun h other ho => Option.some.inj ho ▸ h.symm, fun h => (h theirs rfl).symm⟩

theorem lifecycle_defaults (config : Config) (g : Gateway) (tab : String) (os : List Operation) :
    let fresh := standard config g tab
    let p := fresh.applyAll os
    (p.phase = .ready ↔ ∃ before o after, os = before ++ o :: after ∧
      ((fresh.applyAll before).initialisation? o).isSome = true) ∧
    (∀ h, ((p.start h).isSome = true ↔ p.phase = .uninitialized ∧ h.first? tabKey = some tab) ∧
      (p.start h = none → p.perform (.start h) = p)) ∧
    (∀ h origin, ((p.appear h origin).isSome = true ↔ p.phase = .uninitialized) ∧
      (p.appear h origin = none → p.perform (.appear h origin) = p)) ∧
    (∀ h, ((p.navigate h).isSome = true ↔
        p.phase = .ready ∧ ∀ other, h.first? tabKey = some other → other = tab) ∧
      (p.navigate h = none → p.perform (.navigate h) = p)) ∧
    (∀ o h origin, p.initialisation? o = some (h, origin) → ∀ f ∈ (p.apply o).facets,
      (f.kind = .detectionStatus → SameMembers f.values (p.brought h origin .detectionStatus)) ∧
      (f.kind = .unique → f.values = (p.brought h origin .unique).getLast?.toList) ∧
      (f.kind ≠ .detectionStatus → f.kind ≠ .unique → f.TakesFrom h)) ∧
    ∀ o, p.initialisation? o = none → ∀ f ∈ (p.apply o).facets, ∀ v ∈ f.values,
      (∃ f' ∈ p.facets, f'.kind = f.kind ∧ v ∈ f'.values) ∨
        ∃ raw info, o = .request (.select f.id raw info) ∧ f.kind.canonical raw = some v := by
  intro fresh p
  have hc : p.Complete config tab := complete_standard config g tab os
  have hproper : ∀ f ∈ p.facets, f.Proper := proper_applyAll config g tab os
  have hway : ∀ way : Option (Summary × Panel), way = none → p.loadedOr way = p := by
    rintro _ rfl
    rfl
  refine ⟨?_, fun h => ⟨isSome_start_iff hc.tab h, hway _⟩,
    fun h origin => ⟨isSome_appear_iff h origin, hway _⟩,
    fun h => ⟨isSome_navigate_iff hc.tab h, hway _⟩,
    fun o h origin ho f hf => brought_initialised hc hproper ho hf, fun o ho f hf v hv => ?_⟩
  · rw [ready_applyAll_iff os (registered_standard config g tab)]
    exact or_iff_right fun h => nomatch h
  · obtain ⟨f', hf', hk, hvals⟩ := hc.exists_edit o hf
    have hkind : f'.kind = f.kind := (kind_edit p o f').symm.trans hk
    have hid : f'.id = f.id := congrArg FacetKind.id hkind
    rw [← hvals] at hv
    rw [← hkind, ← hid]
    exact (mem_values_edit ho hv).imp_left fun h => ⟨f', hf', rfl, h⟩

/-- a status that is not known -/
def unknownStatus : History := ⟨[("detection-status", ["Bogus"])]⟩

/-- a status chosen before the panel is shown, and then shown with an unknown one -/
theorem lifecycle_defaults_unknownStatus :
    let p := (standard {} {} "reports").applyAll [.request (.select "detection-status" "New" {})]
    let shown : Operation := .request (.appear unknownStatus .userNavigation)
    (p.phase ≠ .ready ∧ ((p.find? "detection-status").map Facet.values) = some ["New"]) ∧
    ∀ f ∈ (p.apply shown).facets, (f.kind = .detectionStatus → f.values = []) ∧
      (f.kind = .unique → f.values = ["on"]) := by
  intro p shown
  refine ⟨by decide +kernel, fun f hf => ?_⟩
  have ho : p.initialisation? shown = some (unknownStatus, .userNavigation) := by decide +kernel
  obtain ⟨hstatus, hunique, -⟩ := (lifecycle_defaults {} {} "reports"
    [.request (.select "detection-status" "New" {})]).2.2.2.2.1 shown _ _ ho f hf
  have hnone : p.brought unknownStatus .userNavigation .detectionStatus = [] := by decide +kernel
  have hon : p.brought unknownStatus .userNavigation .unique = ["on"] := by decide +kernel
  refine ⟨fun hk => ?_, fun hk => ?_⟩
  · have h := hstatus hk
    rw [hnone] at h
    exact List.eq_nil_iff_forall_not_mem.2 fun v hv => List.not_mem_nil ((h v).1 hv)
  · rw [hunique hk, hon]
    rfl

end Panel
end Triage
