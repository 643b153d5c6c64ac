import Triage.Proofs.Defaults

/-!
# What a failing service changes

Whether the service answers decides what is known about values, and nothing else.

* `Panel.Agrees q q'`       the same kinds and values, groups, phase and history: so end all
                            operations, whatever service they meet (`agrees_apply`);
* `Panel.quiet_round`       a round in which no call is answered touches no selection
                            (`cores_of_course`: all that happens to the selections are the edits);
* `Panel.info_edit`         what is known about a value that stays selected is kept, and completed
                            by what a selection claims to know (`info_apply_failing`);
* `Panel.refusal? p o`      why an operation is refused, if it is (`unaltered_of_refusal`);
* `Panel.failures_contained`   all this in every state that operations can reach.
-/

namespace Triage

/-! ## whatever service a panel has -/

namespace Panel

variable {p q : Panel} {o : Operation}

/-- the same kinds and values, groups, phase and history -/
structure Agrees (q q' : Panel) : Prop where
  picks : q'.facets.map Facet.pick = q.facets.map Facet.pick
  groups : q'.groups = q.groups
  phase : q'.phase = q.phase
  history : q'.history = q.history

theorem takenFrom_service (p : Panel) (g : Gateway) (o : Operation) :
    (p.apply (.service g)).takenFrom o = p.takenFrom o := by
  have hway : ∀ {c : Prop} [Decidable c] {α β : Type} (a b : α) (r : β),
      (if c then some a else none).map (fun _ => r) =
        (if c then some b else none).map fun _ => r := by
    intro c _ α β a b r
    split <;> rfl
  cases o with
  | request a => cases a <;> first | rfl | exact hway _ _ _
  | _ => rfl

theorem edit_service (p : Panel) (g : Gateway) (o : Operation) (f : Facet) :
    (p.apply (.service g)).edit o f = p.edit o f := by
  have htaking := congrArg (Facet.taking · f) (takenFrom_service p g o)
  cases o with
  | request a => cases a <;> first | rfl | exact htaking
  | _ => rfl

theorem writes_service (p : Panel) (g : Gateway) (o : Operation) :
    (p.apply (.service g)).writes o = p.writes o := by
  have hround := congrArg (fun h? => (h?.map fun _ => ([] : List String)).isSome)
    (takenFrom_service p g o)
  cases o with
  | request a => cases a <;> first | rfl | exact hround
  | _ => rfl

theorem regrouped_service (p : Panel) (g : Gateway) (o : Operation) :
    (p.apply (.service g)).regrouped o = p.regrouped o := by
  have hgroups := congrArg (fun h? => (h?.map fun h => (p.takingOver h).groups).getD p.groups)
    (takenFrom_service p g o)
  cases o with
  | request a => cases a <;> first | rfl | exact hgroups
  | _ => rfl

theorem added_service (hd : Distinct p.facets) (g : Gateway) (o : Operation) :
    (p.apply (.service g)).added o = p.added o := by
  cases o with
  | addFacet kind =>
    rw [added_addFacet, added_addFacet]
    by_cases hk : kind ∈ p.facets.map (·.kind)
    · rw [addFacet_of_mem hk, addFacet_of_mem (p := p.apply (.service g)) hk]
    · have hserved := (addFacet_eq (p := p.apply (.service g)) hd kind).trans (if_neg hk)
      rw [hserved, (addFacet_eq hd kind).trans (if_neg hk)]
      rfl
  | _ => rfl

/-- two services may only differ in what they make known -/
theorem agrees_apply (hp : p.Registered) (g₁ g₂ : Gateway) (o : Operation) :
    ((p.apply (.service g₁)).apply o).Agrees ((p.apply (.service g₂)).apply o) := by
  have hreg : ∀ g, (p.apply (.service g)).Registered := fun g => ⟨hp.distinct, hp.members⟩
  have hbooks := fun g => books_apply (hreg g) o
  have hpicks : ∀ g, ((p.apply (.service g)).apply o).facets.map Facet.pick =
      (p.facets.map (p.edit o) ++ p.added o).map Facet.pick := by
    intro g
    have hedits : (p.apply (.service g)).facets.map ((p.apply (.service g)).edit o) =
        p.facets.map (p.edit o) := List.map_congr_left fun f _ => edit_service p g o f
    rw [picks_apply (hreg g).distinct, added_service hp.distinct, hedits]
  have htab : ∀ g, ((p.apply (.service g)).apply o).tab = p.tab := fun g =>
    (outcome_apply (hreg g).distinct o).tab
  have hsame := (hpicks g₂).trans (hpicks g₁).symm
  refine ⟨hsame, ?_, ?_, ?_⟩
  · rw [(hbooks g₁).groups, (hbooks g₂).groups, regrouped_service, regrouped_service]
  · rw [(hbooks g₁).phase, (hbooks g₂).phase, takenFrom_service, takenFrom_service]
    rfl
  · rw [(hbooks g₁).history, (hbooks g₂).history, writes_service, writes_service,
      allEntries_congr ((htab g₂).trans (htab g₁).symm) hsame]
    rfl

end Panel

/-! ## a service that fails -/

section
variable {e : GatewayError}

/-- every facet with counts asks the service for them -/
theorem FacetKind.offers_failing {k : FacetKind} (hk : k.isCountSensitive = true) (scope : Scope)
    (r : ItemsRequest) {g : Gateway} (hg : g.failure = some e) :
    (k.offers scope r).run.run g = (.error e, g.counted) := by
  have hask : ∀ {α : Type} (f : Store → α) (rest : α → Ask (List Candidate)),
      (Gateway.ask f >>= rest).run.run g = (.error e, g.counted) := by
    intro α f rest
    rw [Gateway.run_bind, Gateway.run_ask_of_some f hg]
  cases k with
  | run _ | runTag _ | reviewStatus | detectionStatus | severity | text _ | component =>
    exact hask _ _
  | _ => cases hk

/-- a failed call leaves the facet as it is -/
theorem Facet.refresh_failing (f : Facet) (scope : Scope) {g : Gateway}
    (hg : g.failure = some e) : (f.refresh scope g).2.1 = f := by
  unfold refresh
  by_cases hc : f.hasCounts = true
  · have hk : f.kind.isCountSensitive = true := ((Bool.and_eq_true _ _).mp hc).1
    rw [if_pos hc, FacetKind.offers_failing hk _ _ hg]
  · rw [if_neg hc]

namespace Panel

variable {p q : Panel} {o : Operation}

theorem quiet_put_of_core (hd : Distinct p.facets) {g : Facet}
    (hg : core g ∈ p.facets.map core) : p.Quiet (p.put g) := by
  obtain ⟨f, hf, hc⟩ := List.mem_map.1 hg
  exact quiet_put hd hf hc.symm

theorem quiet_refreshOne (hd : Distinct p.facets) (hfail : p.gateway.failure = some e) {f : Facet}
    (hf : core f ∈ p.facets.map core) : p.Quiet (p.refreshOne f).2 := by
  obtain ⟨-, n, hn⟩ := f.refresh_face (p.scopeWithout f.id) p.gateway
  have hq : (p.refreshOne f).2 = (p.put f).withFacets (p.put f).facets n := by
    show ({ p.put (f.refresh (p.scopeWithout f.id) p.gateway).2.1 with
      gateway := (f.refresh (p.scopeWithout f.id) p.gateway).2.2 } : Panel) = _
    rw [f.refresh_failing _ hfail, hn]
    rfl
  rw [hq]
  exact (quiet_put_of_core hd hf).trans (.of_facets rfl ⟨n, rfl⟩)

theorem core_forget (f : Facet) : core f.forget = core f := by
  unfold Facet.forget
  split <;> rfl

theorem Quiet.mem_cores (h : p.Quiet q) {f : Facet} (hf : core f ∈ p.facets.map core) :
    core f ∈ q.facets.map core := h.cores ▸ hf

theorem quiet_visit (hd : Distinct p.facets) (hfail : p.gateway.failure = some e)
    (except : List String) {f : Facet} (hf : core f ∈ p.facets.map core) :
    p.Quiet (p.visit except f).2 := by
  have hforget : core f.forget ∈ p.facets.map core := core_forget f ▸ hf
  have hput := quiet_put_of_core hd hforget
  unfold visit
  split
  · exact .refl p
  · dsimp only
    split
    · exact hput
    · exact hput.trans
        (quiet_refreshOne (hput.distinct hd) hfail (hput.mem_cores hforget))

/-- a round in which no call is answered touches no selection -/
theorem quiet_round (except : List String) (fs : List Facet) : ∀ {p : Panel} (t : Summary),
    Distinct p.facets → p.gateway.failure = some e → (∀ f ∈ fs, core f ∈ p.facets.map core) →
      p.Quiet (round except fs t p).2 := by
  induction fs with
  | nil => exact fun _ _ _ _ => .refl _
  | cons f fs ih =>
    intro p t hd hfail hfs
    obtain ⟨hf, hrest⟩ := List.forall_mem_cons.1 hfs
    have hv := quiet_visit hd hfail except hf
    exact hv.trans (ih _ (hv.distinct hd) (hv.failure.trans hfail)
      fun g hg => hv.mem_cores (hrest g hg))

theorem cores_refreshAll (hd : Distinct p.facets) (hfail : p.gateway.failure = some e)
    (except : List String) : (p.refreshAll except).2.facets.map core = p.facets.map core :=
  (quiet_round except p.facets {} hd hfail fun _ hf => List.mem_map_of_mem hf).cores

theorem quiet_refreshMembers (ms : List String) : ∀ {p q : Panel} {t t' : Summary},
    Distinct p.facets → p.gateway.failure = some e → refreshMembers ms t p = .ok (t', q) →
      p.Quiet q := by
  induction ms with
  | nil =>
    intro p q t t' _ _ h
    cases h
    exact .refl _
  | cons m ms ih =>
    intro p q t t' hd hfail h
    unfold refreshMembers at h
    cases hf : p.facet m with
    | error e => rw [hf] at h; cases h
    | ok f =>
      rw [hf] at h
      have hr := quiet_refreshOne hd hfail (List.mem_map_of_mem (facet_eq_ok hf).1)
      exact hr.trans (ih (hr.distinct hd) (hr.failure.trans hfail) h)

/-- the facet of a name changed, in a list -/
theorem putIn_eq_map {fs : List Facet} (hd : Distinct fs) {f : Facet} (hf : f ∈ fs)
    {edit : Facet → Facet} (hk : (edit f).kind = f.kind) :
    putIn (edit f) fs = fs.map fun g => if g.id = f.id then edit g else g := by
  refine List.map_congr_left fun g hg => ?_
  by_cases hid : g.id = f.id
  · have hgf : g = f := hd.eq_of_id hf hg hid
    rw [if_pos hid, hgf, if_pos hk.symm]
  · have hne : g.kind ≠ (edit f).kind := fun h => hid (congrArg FacetKind.id (h.trans hk))
    rw [if_neg hid, if_neg hne]

/-- while no call is answered, all that happens to the selections are the edits -/
theorem cores_of_course (hd : Distinct p.facets) (hfail : p.gateway.failure = some e)
    (h : p.Course o q) :
    q.facets.map core = (p.facets.map (p.edit o) ++ p.added o).map core := by
  have hchanged : ∀ (edit : Facet → Facet) {f : Facet}, f ∈ p.facets → (edit f).kind = f.kind →
      ∀ {r : Panel}, (p.put (edit f)).Quiet r → (r.refreshAll [f.id]).2.facets.map core =
        (p.facets.map fun g => if g.id = f.id then edit g else g).map core := by
    intro edit f hf hk r hr
    have hput : Distinct (p.put (edit f)).facets := hd.of_kinds (kinds_putIn _ _)
    rw [cores_refreshAll (hr.distinct hput) (hr.failure.trans hfail), hr.cores, put_facets,
      putIn_eq_map hd hf hk]
  have hedits : ∀ {o : Operation} {fs : List Facet}, p.added o = [] →
      fs.map core = (p.facets.map (p.edit o)).map core →
      fs.map core = (p.facets.map (p.edit o) ++ p.added o).map core := by
    intro o fs ha hfs
    rw [ha, List.append_nil, hfs]
  -- nothing is edited
  have hsame : ∀ {fs : List Facet}, fs.map core = p.facets.map core →
      fs.map core = (p.facets.map id).map core := by
    intro fs hfs
    rw [List.map_id, hfs]
  cases h with
  | quiet h hw hg ha =>
    refine hedits ha (h.cores.trans ?_)
    rw [List.map_map]
    exact List.map_congr_left fun f hf => (core_edit hw hf).symm
  | @selected f hf raw info asks =>
    have hput : Distinct (p.put (f.select raw info)).facets := hd.of_kinds (kinds_putIn _ _)
    have hmem : f.select raw info ∈ (p.put (f.select raw info)).facets :=
      List.mem_map.2 ⟨f, hf, if_pos (kind_select f raw info).symm⟩
    have hasks : (p.put (f.select raw info)).Quiet (p.putAsking asks (f.select raw info)) := by
      unfold putAsking
      split
      · exact quiet_refreshOne hput hfail (List.mem_map_of_mem hmem)
      · exact .refl _
    exact hedits rfl (hchanged (·.select raw info) hf (kind_select f raw info) hasks)
  | deselected hf raw => exact hedits rfl (hchanged (·.deselect raw) hf rfl (.refl _))
  | cleared hf => exact hedits rfl (hchanged Facet.clear hf rfl (.refl _))
  | @loaded o h ht =>
    obtain ⟨-, -, ha, he⟩ := of_takenFrom ht
    have htaken : Distinct (p.takingOver h).facets := hd.of_kinds (kinds_takingOver p h)
    refine hedits ha ((cores_refreshAll htaken hfail []).trans ?_)
    rw [funext he]
    rfl
  | reset => exact hedits rfl rfl
  | refreshed except => exact hedits rfl (hsame (cores_refreshAll hd hfail except))
  | grouped hg => exact hedits rfl (hsame rfl)
  | @opened name expanded old groups t q hg hq =>
    exact hedits rfl
      (hsame (quiet_refreshMembers (p := { p with groups }) old.members hd hfail hq).cores)
  | @facet kind q h =>
    obtain ⟨-, rfl⟩ := addFacet_eq_ok h
    rw [added_addFacet, h]
    exact congrArg (List.map core) (congrArg (· ++ _) (List.map_id _).symm)
  | group h =>
    obtain ⟨-, rfl⟩ := addGroup_eq_ok h
    exact hedits rfl (hsame rfl)
  | service g => exact hedits rfl (hsame rfl)

end Panel
end

/-! ## what is known about a value that stays -/

theorem ValueInfo.merge_empty (m : ValueInfo) : m.merge {} = m := rfl

namespace Selection

variable {s : Selection} {i j : Choice}

theorem eq_of_value (hd : s.values.Nodup) (hi : i ∈ s.items) (hj : j ∈ s.items)
    (h : j.value = i.value) : j = i := List.inj_on_of_nodup_map hd hj hi h

/-- a value that is there takes over what a selection claims to know, the others nothing -/
theorem info_select (hd : s.values.Nodup) (hi : i ∈ s.items) {v : String} {info : ValueInfo}
    (hj : j ∈ (s.select v info).items) (h : j.value = i.value) :
    j.info = i.info.merge (if i.value = v then info else {}) := by
  by_cases hv : v ∈ s.values
  · rw [select, if_pos ((s.contains_iff v).2 hv)] at hj
    obtain ⟨k, hk, rfl⟩ := List.mem_map.1 hj
    have hki : k = i := eq_of_value hd hi hk (by rw [← h]; split <;> rfl)
    rw [hki]
    split
    · rfl
    · rw [ValueInfo.merge_empty]
  · have hne : i.value ≠ v := fun e => hv (e ▸ List.mem_map_of_mem hi)
    rw [if_neg hne, ValueInfo.merge_empty]
    rw [select, if_neg (mt (s.contains_iff v).1 hv)] at hj
    -- the new choice is of another value
    have hnew : j ≠ ⟨v, info⟩ := fun e => hne (h.symm.trans (congrArg Choice.value e))
    cases hm : s.mode with
    | single =>
      rw [hm] at hj
      exact absurd (List.mem_singleton.1 hj) hnew
    | multi =>
      rw [hm] at hj
      rcases List.mem_append.1 hj with hj | hj
      · rw [eq_of_value hd hi hj h]
      · exact absurd (List.mem_singleton.1 hj) hnew

/-- Values taken over without any knowledge leave alone what is known about a value, if it comes in
only where it is already. -/
theorem info_foldl_select {k : FacetKind} (hk : k.mode = .multi) {v : String} {info : ValueInfo}
    {vs : List String} (hvs : ∀ w ∈ vs, k.Spelled w) : ∀ {s : Selection}, s.Proper k →
      (∀ j ∈ s.items, j.value = v → j.info = info) → (v ∈ vs → v ∈ s.values) →
      ∀ j ∈ (vs.foldl (fun s v => s.select v {}) s).items, j.value = v → j.info = info := by
  induction vs with
  | nil => exact fun _ h _ => h
  | cons w vs ih =>
    intro s hp h hin
    obtain ⟨hw, hrest⟩ := List.forall_mem_cons.1 hvs
    refine ih hrest (proper_select hp hw {}) (fun j hj hjv => ?_) fun hv => ?_
    · have hafter : v ∈ (s.select w {}).values := List.mem_map.2 ⟨j, hj, hjv⟩
      have hmem : v ∈ s.values := by
        rcases mem_values_select hafter with hv | rfl
        · exact hv
        · exact hin List.mem_cons_self
      obtain ⟨i, hi, hiv⟩ := List.mem_map.1 hmem
      rw [info_select hp.distinct hi hj (hjv.trans hiv.symm), ite_self, ValueInfo.merge_empty]
      exact h i hi hiv
    · exact (mem_foldl_select_multi [w] (hp.mode.trans hk)).2
        (.inl (hin (List.mem_cons_of_mem _ hv)))

end Selection

theorem FacetKind.mode_of_counts {k : FacetKind} (h : k.isCountSensitive = true) :
    k.mode = .multi ∧ k ≠ .pathLength := by
  cases k <;> first | exact ⟨rfl, nofun⟩ | cases h

/-- what a selection claims to know about a value of a facet -/
def Operation.claimed (o : Operation) (f : Facet) (v : String) : ValueInfo :=
  match o with
  | .request (.select id raw info) =>
    if f.id = id ∧ f.kind.canonical raw = some v then info else {}
  | _ => {}

theorem Operation.claimed_of_ne {o : Operation} {f : Facet}
    (h : ∀ raw info, o ≠ .request (.select f.id raw info)) (v : String) : o.claimed f v = {} := by
  unfold claimed
  split
  · next id raw info =>
    exact if_neg fun hc => h raw info (by rw [hc.1])
  · rfl

namespace Facet

variable {f : Facet} {i j : Choice}

theorem info_load (hp : f.Proper) (hc : f.kind.isCountSensitive = true) (h : History)
    (hi : i ∈ f.selection.items) (hj : j ∈ (f.load h).selection.items) (hv : j.value = i.value) :
    j.info = i.info := by
  obtain ⟨hmode, hk⟩ := FacetKind.mode_of_counts hc
  have hkept : (f.kept (incoming f.kind h)).items =
      f.selection.items.filter fun i => (incoming f.kind h).contains i.value := by
    unfold kept
    split
    · next hp => exact absurd hp hk
    · rfl
  refine Selection.info_foldl_select hmode (fun _ => spelled_incoming) (proper_kept hp _)
    (fun l hl hlv => ?_) (fun hw => ?_) j hj hv
  · rw [hkept] at hl
    rw [Selection.eq_of_value (Selection.Proper.distinct hp) hi (List.mem_filter.1 hl).1 hlv]
  · refine List.mem_map.2 ⟨i, ?_, rfl⟩
    rw [hkept]
    exact List.mem_filter.2 ⟨hi, List.contains_iff_mem.2 hw⟩

theorem info_selected (hp : f.Proper) {raw : String} {info : ValueInfo}
    (hi : i ∈ f.selection.items) (hj : j ∈ (f.select raw info).selection.items)
    (hv : j.value = i.value) :
    j.info = i.info.merge (if f.kind.canonical raw = some i.value then info else {}) := by
  unfold select at hj
  have hself : j ∈ f.selection.items → j.info = i.info := fun hj => by
    rw [Selection.eq_of_value (Selection.Proper.distinct hp) hi hj hv]
  split at hj
  · next hnone =>
    rw [hnone, if_neg nofun, ValueInfo.merge_empty]
    exact hself hj
  · next v hsome =>
    rw [hsome, Selection.info_select (Selection.Proper.distinct hp) hi hj hv]
    simp only [Option.some.injEq, eq_comm]

end Facet

namespace Panel

variable {p q : Panel} {o : Operation}

/-- what an operation makes known about a value that stays selected in a facet with counts -/
theorem info_edit (p : Panel) (o : Operation) {f : Facet} (hp : f.Proper)
    (hc : f.kind.isCountSensitive = true) {i j : Choice} (hi : i ∈ f.selection.items)
    (hj : j ∈ (p.edit o f).selection.items) (hv : j.value = i.value) :
    j.info = i.info.merge (o.claimed f i.value) := by
  rcases p.edit_cases o f with ⟨hfewer, hne⟩ | ⟨raw, info, rfl, he⟩ | ⟨h, ht, he⟩
  · rw [Selection.eq_of_value (Selection.Proper.distinct hp) hi (hfewer.subset hj) hv,
      Operation.claimed_of_ne hne, ValueInfo.merge_empty]
  · rw [he] at hj
    rw [Facet.info_selected hp hi hj hv, Operation.claimed]
    simp only [true_and]
  · rw [he] at hj
    have hne : ∀ raw info, o ≠ .request (.select f.id raw info) := by
      rintro raw info rfl
      cases ht
    rw [Facet.info_load hp hc h hi hj hv, Operation.claimed_of_ne hne, ValueInfo.merge_empty]

/-- a facet after an operation during which no call is answered: its selection is edited, and what
is known about the values that stay is kept -/
theorem info_apply_failing (hp : p.Registered) (hproper : ∀ f ∈ p.facets, f.Proper)
    {e : GatewayError} (hfail : p.gateway.failure = some e) (o : Operation) {f f' : Facet}
    (hf : f ∈ p.facets) (hc : f.kind.isCountSensitive = true) (hf' : f' ∈ (p.apply o).facets)
    (hk : f'.kind = f.kind) {i j : Choice} (hi : i ∈ f.selection.items)
    (hj : j ∈ f'.selection.items) (hv : j.value = i.value) :
    j.info = i.info.merge (o.claimed f i.value) := by
  have hcores := cores_of_course hp.distinct hfail (course_apply hp o)
  have hcore : core f' ∈ (p.facets.map (p.edit o) ++ p.added o).map core :=
    hcores ▸ List.mem_map_of_mem hf'
  obtain ⟨g, hg, hgf⟩ := List.mem_map.1 hcore
  have hgk : g.kind = f.kind := (congrArg Prod.fst hgf).trans hk
  rcases List.mem_append.1 hg with hg | hg
  · obtain ⟨f₀, hf₀, rfl⟩ := List.mem_map.1 hg
    rw [List.inj_on_of_nodup_map hp.distinct hf₀ hf ((kind_edit p o f₀).symm.trans hgk)] at hgf
    rw [← show (p.edit o f).selection = f'.selection from congrArg Prod.snd hgf] at hj
    exact info_edit p o (hproper f hf) hc hi hj hv
  · rcases added_cases p o with ha | ⟨kind, n, hnew, ha⟩
    · rw [ha] at hg
      cases hg
    · rw [ha, List.mem_singleton] at hg
      rw [hg] at hgk
      exact absurd (List.mem_map.2 ⟨f, hf, hgk.symm⟩) hnew

end Panel

/-! ## refusals -/

/-- the kind, the selection and the candidates of a facet -/
def Facet.held (f : Facet) : FacetKind × Selection × List Candidate :=
  (f.kind, f.selection, f.candidates)

namespace Panel

variable {p q : Panel} {o : Operation}

def refused? {α : Type} : Except Refusal α → Option Refusal
  | .error e => some e
  | .ok _ => none

/-- why the operation is refused, if it is -/
def refusal? (p : Panel) : Operation → Option Refusal
  | .request (.select id raw info) => refused? (p.select id raw info)
  | .request (.deselect id raw) => refused? (p.deselect id raw)
  | .request (.clear id) => refused? (p.clear id)
  | .request (.setExpanded name expanded) => refused? (p.setExpanded name expanded)
  | .request (.candidatesFor id r) => refused? (p.candidatesFor id r).1
  | .request (.typeText id text now) => refused? (p.typeText id text now)
  | .openFetch id r => refused? (p.openFetch id r)
  | .closeFetch fetch answer => refused? (p.closeFetch fetch answer)
  | .addFacet kind => refused? (p.addFacet kind)
  | .addGroup g => refused? (p.addGroup g)
  | _ => none

/-- the same selections and candidates, groups, phase and history -/
structure Unaltered (p q : Panel) : Prop where
  facets : q.facets.map Facet.held = p.facets.map Facet.held
  groups : q.groups = p.groups
  phase : q.phase = p.phase
  history : q.history = p.history

theorem Unaltered.refl (p : Panel) : p.Unaltered p := ⟨rfl, rfl, rfl, rfl⟩

/-- Only the ticket and the number of calls stay behind of a fetch that is refused. -/
theorem unaltered_candidatesFor (hd : Distinct p.facets) {id : String} {r : ItemsRequest}
    {e : Refusal} (h : (p.candidatesFor id r).1 = .error e) :
    p.Unaltered (p.candidatesFor id r).2 := by
  unfold candidatesFor at h ⊢
  cases ho : p.openFetch id r with
  | error e => exact .refl p
  | ok opened =>
    obtain ⟨fetch, q⟩ := opened
    obtain ⟨f, hf, -, -, rfl⟩ := openFetch_eq_ok ho
    rw [ho] at h
    obtain ⟨n, hr⟩ := runFetch_snd (p.put { f with tickets := f.tickets.advance }) fetch
    dsimp only at h ⊢
    cases hc : (runFetch (p.put { f with tickets := f.tickets.advance }) fetch).2.closeFetch fetch
        (runFetch (p.put { f with tickets := f.tickets.advance }) fetch).1 with
    | error e =>
      dsimp only
      rw [hr]
      exact ⟨map_putIn Facet.held hd hf rfl rfl, rfl, rfl, rfl⟩
    | ok closed =>
      rw [hc] at h
      cases h

/-- an operation that is refused leaves the panel alone -/
theorem unaltered_of_refusal (hd : Distinct p.facets) {e : Refusal}
    (h : p.refusal? o = some e) : p.Unaltered (p.apply o) := by
  have hsame : ∀ {α : Type} {x : Except Refusal α} (after : Except Refusal α → Panel),
      refused? x = some e → (∀ e, after (.error e) = p) → p.Unaltered (after x) := by
    intro α x after hx ha
    cases x with
    | error e =>
      rw [ha]
      exact .refl p
    | ok a => cases hx
  cases o with
  | request a =>
    cases a with
    | select id raw info => exact hsame p.accepted h fun _ => rfl
    | deselect id raw => exact hsame p.accepted h fun _ => rfl
    | clear id => exact hsame p.accepted h fun _ => rfl
    | setExpanded name expanded => exact hsame p.accepted h fun _ => rfl
    | candidatesFor id r =>
      cases hc : (p.candidatesFor id r).1 with
      | error e => exact unaltered_candidatesFor hd hc
      | ok items =>
        change refused? (p.candidatesFor id r).1 = some e at h
        rw [hc] at h
        cases h
    | typeText id text now => exact hsame (·.toOption.getD p) h fun _ => rfl
    | _ => cases h
  | openFetch id r => exact hsame p.stepped h fun _ => rfl
  | closeFetch fetch answer => exact hsame p.stepped h fun _ => rfl
  | addFacet kind => exact hsame (·.toOption.getD p) h fun _ => rfl
  | addGroup g => exact hsame (·.toOption.getD p) h fun _ => rfl
  | _ => cases h

theorem name_of_setFirst {name : String} {expanded : Bool} :
    ∀ {groups : List Group}, setFirst name expanded groups = none →
      ∀ g ∈ groups, g.name ≠ name := by
  intro groups
  induction groups with
  | nil => exact fun _ _ h => nomatch h
  | cons g gs ih =>
    intro h
    rw [setFirst] at h
    split at h
    · cases h
    · next hne => exact List.forall_mem_cons.2 ⟨hne, ih (Option.map_eq_none_iff.1 h)⟩

/-- a group is only refused for its name, before anything has changed -/
theorem setExpanded_eq_error (hp : p.Registered) {name : String} {expanded : Bool} {e : Refusal}
    (h : p.setExpanded name expanded = .error e) :
    e = .unknownGroup name ∧ ∀ g ∈ p.groups, g.name ≠ name := by
  unfold setExpanded at h
  cases hg : setFirst name expanded p.groups with
  | none =>
    rw [hg] at h
    cases h
    exact ⟨rfl, name_of_setFirst hg⟩
  | some found =>
    obtain ⟨old, groups⟩ := found
    obtain ⟨t, q, hq⟩ := exists_refreshMembers old.members (p := { p with groups }) {}
      (hp.members old (mem_of_setFirst hg))
    rw [hg] at h
    dsimp only at h
    split at h
    · rw [hq] at h
      cases h
    · cases h

/-! ## every state -/

theorem failures_contained (config : Config) (g : Gateway) (tab : Option String)
    (os : List Operation) :
    let p := ({ config, gateway := g, tab } : Panel).applyAll os
    (∀ o g₁ g₂, ((p.apply (.service g₁)).apply o).Agrees ((p.apply (.service g₂)).apply o)) ∧
    (∀ g' e, g'.failure = some e → ∀ o, ∀ f ∈ p.facets, f.kind.isCountSensitive = true →
      ∀ f' ∈ ((p.apply (.service g')).apply o).facets, f'.kind = f.kind →
        ∀ i ∈ f.selection.items, ∀ j ∈ f'.selection.items, j.value = i.value →
          j.info = i.info.merge (o.claimed f i.value)) ∧
    (∀ o e, p.refusal? o = some e → p.Unaltered (p.apply o)) ∧
    ∀ name expanded e, p.setExpanded name expanded = .error e →
      e = .unknownGroup name ∧ ∀ group ∈ p.groups, group.name ≠ name := by
  intro p
  have hp : p.Registered := registered_applyAll os (registered_empty config g tab)
  have hproper : ∀ f ∈ p.facets, f.Proper := proper_of_empty config g tab os
  refine ⟨fun o g₁ g₂ => agrees_apply hp g₁ g₂ o, ?_,
    fun o e h => unaltered_of_refusal hp.distinct h,
    fun name expanded e h => setExpanded_eq_error hp h⟩
  intro g' e hfail o f hf hc f' hf' hk i hi j hj hv
  exact info_apply_failing (p := p.apply (.service g')) ⟨hp.distinct, hp.members⟩ hproper hfail o
    hf hc hf' hk hi hj hv

/-- a service that does not answer in time -/
def late : Gateway := { store := twoRuns, failure := some (.timeout "late") }

/-- a run chosen with what is known about it, before the service fails -/
def knownRun : List Operation :=
  [.addFacet (.run .baseline), .addGroup ⟨"baseline", ["run"], true⟩,
    .request (.select "run" "alpha" ⟨some 1, [1]⟩), .service late]

/-- the run is chosen again, with another count, its candidates are asked for, and a group is opened
that there is not -/
theorem failures_contained_knownRun :
    let p := ({} : Panel).applyAll knownRun
    let again : Operation := .request (.select "run" "alpha" ⟨some 7, []⟩)
    ((p.apply (.service late)).apply again).Agrees
        ((p.apply (.service { store := twoRuns })).apply again) ∧
      (∀ f' ∈ ((p.apply (.service late)).apply again).facets, f'.kind = .run .baseline →
        ∀ j ∈ f'.selection.items, j.value = "alpha" → j.info = ⟨some 7, [1]⟩) ∧
      p.Unaltered (p.apply (.request (.candidatesFor "run" {}))) ∧
      ∀ group ∈ p.groups, group.name ≠ "report" := by
  intro p again
  obtain ⟨hagree, hinfo, hrefused, hgroup⟩ := failures_contained {} {} none knownRun
  obtain ⟨f, hfacets, hitems, hkind⟩ : ∃ f : Facet, p.facets = [f] ∧
      f.selection.items = [⟨"alpha", ⟨some 1, [1]⟩⟩] ∧ f.kind = .run .baseline :=
    ⟨_, rfl, by decide +kernel, rfl⟩
  refine ⟨hagree again late { store := twoRuns }, fun f' hf' hk j hj hv => ?_,
    hrefused _ (.gateway (.timeout "late")) (by decide +kernel),
    (hgroup "report" true (.unknownGroup "report") (by rfl)).2⟩
  have h := hinfo late _ rfl again f (hfacets ▸ List.mem_singleton_self f) (by rw [hkind]; rfl)
    f' hf' (hk.trans hkind.symm) _ (hitems ▸ List.mem_singleton_self _) j hj hv
  rw [h, Operation.claimed, show f.id = "run" from congrArg FacetKind.id hkind, hkind]
  decide +kernel

end Panel
end Triage
