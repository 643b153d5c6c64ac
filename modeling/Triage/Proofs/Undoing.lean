import Triage.Proofs.Offered
import Triage.Proofs.Registration
import Triage.Proofs.Replies
import Triage.Proofs.ShareLinks

/-!
# Taking a choice back

A value is selected and taken out again, in any spelling, whatever the service answers meanwhile.

* `Facet.values_undone`    a facet for several values has its values back, in their order, and
                           `Facet.values_again`: a second choice of a value changes none;
* `Panel.mirrored_of_ready`   a ready panel has the history that its facets write;
* `Operation.Answered`     a run in which the service answers from one store and nothing is selected
                           with knowledge keeps all names looked up (`Informed.applyAll`);
* `Facet.ResolvedBut`      all names but one value have been looked up: so it is after a choice with
                           any knowledge, and taking out this value makes it so for all;
* `deselect_undoes_select`   values, history and results come back.
-/

namespace Triage

namespace Selection

theorem mem_values_select_self (s : Selection) (v : String) (info : ValueInfo) :
    v ∈ (s.select v info).values := by
  by_cases hv : v ∈ s.values
  · rwa [values_select_of_mem hv]
  · cases hm : s.mode with
    | single =>
      rw [values_select_single hm hv]
      exact List.mem_singleton_self v
    | multi =>
      rw [values_select_multi hm hv]
      exact List.mem_append_right _ (List.mem_singleton_self v)

/-- a choice says something about the value that is chosen only -/
theorem mem_items_select {s : Selection} {v : String} {info : ValueInfo} {i : Choice}
    (h : i ∈ (s.select v info).items) : i ∈ s.items ∨ i.value = v := by
  unfold select at h
  split at h
  · obtain ⟨j, hj, rfl⟩ := List.mem_map.1 h
    by_cases hv : j.value = v
    · rw [if_pos hv]
      exact .inr hv
    · rw [if_neg hv]
      exact .inl hj
  · split at h
    · rw [List.mem_singleton.1 h]
      exact .inr rfl
    · rcases List.mem_append.1 h with h | h
      · exact .inl h
      · rw [List.mem_singleton.1 h]
        exact .inr rfl

end Selection

namespace Facet

/-! ## one facet -/

variable {f g : Facet} {raw raw' : String} {info : ValueInfo}

/-- what is selected is spelled as it would be selected -/
theorem canonical_of_mem (h : f.Proper) {v : String} (hv : v ∈ f.values) :
    f.kind.canonical v = some v := (spelled_of_mem h hv).canonical

theorem select_of_none (h : f.kind.canonical raw = none) (info : ValueInfo) :
    f.select raw info = f := by
  rw [select, h]

theorem select_of_some {v : String} (h : f.kind.canonical raw = some v) (info : ValueInfo) :
    f.select raw info = { f with selection := f.selection.select v info } := by
  rw [select, h]

/-- the spelling that a value to be taken out is looked for in -/
def soughtValue (k : FacetKind) (raw : String) : String := (k.canonical raw).getD raw

theorem values_deselect (f : Facet) (raw : String) :
    (f.deselect raw).values = f.values.filter (· != soughtValue f.kind raw) := by
  show List.map _ (List.filter _ _) = List.filter _ (List.map _ _)
  rw [List.filter_map]
  rfl

/-- A facet for several values that selects a new one and takes it out again has its values back. A
text that cannot be selected is none of them. -/
theorem values_undone (h : f.Proper) (hm : f.kind.mode = .multi)
    (hsame : f.kind.canonical raw' = f.kind.canonical raw)
    (hnew : ∀ v, f.kind.canonical raw = some v → v ∉ f.values) (info : ValueInfo) :
    (f.select raw info).values.filter (· != soughtValue f.kind raw') = f.values := by
  have hothers : ∀ v, v ∉ f.values → f.values.filter (· != v) = f.values := fun v hv =>
    List.filter_eq_self.2 fun w hw => bne_iff_ne.2 fun e => hv (e ▸ hw)
  cases hc : f.kind.canonical raw with
  | none =>
    rw [select_of_none hc, soughtValue, hsame, hc]
    refine hothers raw' fun hv => ?_
    rw [canonical_of_mem h hv, hc] at hsame
    cases hsame
  | some v =>
    have hv := hnew v hc
    have hvalues : (f.select raw info).values = f.values ++ [v] := by
      rw [select_of_some hc]
      exact Selection.values_select_multi (h.mode.trans hm) hv info
    rw [hvalues, soughtValue, hsame, hc, List.filter_append, Option.getD_some, hothers v hv]
    simp

/-- a value that is selected already -/
theorem values_again (hsame : f.kind.canonical raw' = f.kind.canonical raw)
    (hg : g.pick = (f.select raw info).pick) (info' : ValueInfo) :
    (g.select raw' info').values = g.values := by
  have hk : g.kind = f.kind := (congrArg Prod.fst hg).trans (Panel.kind_select f raw info)
  have hv : g.values = (f.select raw info).values := congrArg Prod.snd hg
  cases hc : f.kind.canonical raw with
  | none =>
    rw [select_of_none]
    rw [hk, hsame, hc]
  | some v =>
    have hmem : v ∈ g.values := by
      rw [hv, select_of_some hc]
      exact f.selection.mem_values_select_self v info
    rw [select_of_some (v := v)]
    · exact Selection.values_select_of_mem hmem info'
    · rw [hk, hsame, hc]

end Facet

namespace Panel

variable {p q : Panel} {f : Facet} {raw raw' : String} {info : ValueInfo}

/-! ## two requests -/

/-- what an accepted request leaves -/
theorem eq_accepted (p : Panel) {x : Except Refusal (Summary × Panel)} (h : ∃ r, x = .ok r) :
    ∃ t, x = .ok (t, p.accepted x) := by
  obtain ⟨⟨t, q⟩, rfl⟩ := h
  exact ⟨t, rfl⟩

theorem select_eq_apply (hd : Distinct p.facets) (hf : f ∈ p.facets) (raw : String)
    (info : ValueInfo) :
    ∃ t, p.select f.id raw info = .ok (t, p.apply (.request (.select f.id raw info))) := by
  refine p.eq_accepted ?_
  rw [select, facet_of_mem hd hf]
  exact ⟨_, rfl⟩

theorem deselect_eq_apply (hd : Distinct p.facets) (hf : f ∈ p.facets) (raw : String) :
    ∃ t, p.deselect f.id raw = .ok (t, p.apply (.request (.deselect f.id raw))) := by
  refine p.eq_accepted ?_
  rw [deselect, facet_of_mem hd hf]
  exact ⟨_, rfl⟩

theorem picks_select (hd : Distinct p.facets) (id raw : String) (info : ValueInfo) :
    (p.apply (.request (.select id raw info))).facets.map Facet.pick =
      p.facets.map fun f => (if f.id = id then f.select raw info else f).pick := by
  rw [picks_apply hd]
  show ((p.facets.map _) ++ []).map _ = _
  rw [List.append_nil, List.map_map]
  rfl

/-- the pick of a facet after a value is taken out of one -/
def takenOut (id raw : String) (c : FacetKind × List String) : FacetKind × List String :=
  if c.1.id = id then (c.1, c.2.filter (· != Facet.soughtValue c.1 raw)) else c

theorem takenOut_pick {id : String} (h : f.id = id) : takenOut id raw f.pick =
    (f.kind, f.values.filter (· != Facet.soughtValue f.kind raw)) := if_pos h

theorem takenOut_pick_of_ne {id : String} (h : f.id ≠ id) : takenOut id raw f.pick = f.pick :=
  if_neg h

theorem picks_deselect (hd : Distinct p.facets) (id raw : String) :
    (p.apply (.request (.deselect id raw))).facets.map Facet.pick =
      (p.facets.map Facet.pick).map (takenOut id raw) := by
  rw [picks_apply hd, List.map_map]
  show ((p.facets.map _) ++ []).map _ = _
  rw [List.append_nil, List.map_map]
  refine List.map_congr_left fun f _ => ?_
  show (if f.id = id then f.deselect raw else f).pick = takenOut id raw f.pick
  by_cases h : f.id = id
  · rw [if_pos h, takenOut_pick h]
    exact congrArg (Prod.mk f.kind) (f.values_deselect raw)
  · rw [if_neg h, takenOut_pick_of_ne h]

/-- a choice and its undoing leave all values, in their order -/
theorem picks_undone (hd : Distinct p.facets) (hf : f ∈ p.facets) (hproper : f.Proper)
    (hm : f.kind.mode = .multi) (hsame : f.kind.canonical raw' = f.kind.canonical raw)
    (hnew : ∀ v, f.kind.canonical raw = some v → v ∉ f.values)
    (hdq : Distinct q.facets) (hq : q.facets.map Facet.pick =
      (p.apply (.request (.select f.id raw info))).facets.map Facet.pick) :
    (q.apply (.request (.deselect f.id raw'))).facets.map Facet.pick =
      p.facets.map Facet.pick := by
  rw [picks_deselect hdq, hq, picks_select hd, List.map_map]
  refine List.map_congr_left fun g hg => ?_
  show takenOut f.id raw' (if g.id = f.id then g.select raw info else g).pick = g.pick
  by_cases h : g.id = f.id
  · obtain rfl : g = f := hd.eq_of_id hf hg h
    have hk := kind_select g raw info
    have hid : (g.select raw info).id = g.id := congrArg FacetKind.id hk
    rw [if_pos rfl, takenOut_pick hid, hk, Facet.values_undone hproper hm hsame hnew]
    rfl
  · rw [if_neg h, takenOut_pick_of_ne h]

/-- a second choice of a value changes none -/
theorem picks_again (hd : Distinct p.facets) (hf : f ∈ p.facets)
    (hsame : f.kind.canonical raw' = f.kind.canonical raw) (info' : ValueInfo)
    (hdq : Distinct q.facets) (hq : q.facets.map Facet.pick =
      (p.apply (.request (.select f.id raw info))).facets.map Facet.pick) :
    (q.apply (.request (.select f.id raw' info'))).facets.map Facet.pick =
      q.facets.map Facet.pick := by
  rw [picks_select hdq]
  refine List.map_congr_left fun g hg => ?_
  by_cases h : g.id = f.id
  · have hpick : g.pick ∈ p.facets.map fun e =>
        (if e.id = f.id then e.select raw info else e).pick := by
      rw [← picks_select hd, ← hq]
      exact List.mem_map_of_mem hg
    obtain ⟨e, he, hpick⟩ := List.mem_map.1 hpick
    have hkind : (if e.id = f.id then e.select raw info else e).kind = e.kind := by
      split
      · exact kind_select e raw info
      · rfl
    have hge : g.kind = e.kind := (congrArg Prod.fst hpick).symm.trans hkind
    have hid : e.id = f.id := (congrArg FacetKind.id hge).symm.trans h
    obtain rfl : e = f := hd.eq_of_id hf he hid
    rw [if_pos rfl] at hpick
    rw [if_pos h, Facet.pick, kind_select, Facet.values_again hsame hpick.symm]
    rfl
  · rw [if_neg h]

/-! ## the history -/

/-- a panel becomes ready by writing its history -/
theorem mirrored_of_ready (config : Config) (g : Gateway) (tab : String) (os : List Operation) :
    ((standard config g tab).applyAll os).phase = .ready →
      ((standard config g tab).applyAll os).Mirrored := by
  induction os using List.reverseRecOn with
  | nil => exact nofun
  | append_singleton os o ih =>
    have hp := registered_applyAll os (registered_standard config g tab)
    rw [applyAll_append]
    intro h
    have hphase := (books_apply hp o).phase
    cases ht : ((standard config g tab).applyAll os).takenFrom o with
    | some taken => exact mirrored_of_writes hp (of_takenFrom ht).2.1
    | none =>
      rw [ht] at hphase
      exact mirrored_apply hp (ih (hphase.symm.trans h)) o

/-- two histories of the same values in their order -/
theorem Mirrored.history_eq {q : Panel} (hp : p.Mirrored) (hq : q.Mirrored) (ht : q.tab = p.tab)
    (h : q.facets.map Facet.pick = p.facets.map Facet.pick) : q.history = p.history := by
  have hpicks : q.facets.map Facet.pick = (p.facets ++ []).map Facet.pick := by
    rw [List.append_nil]
    exact h
  have himage : q.image = p.image := image_of_picks ht hpicks fun _ hf => nomatch hf
  have hentries : q.history.entries = p.history.entries := hq.trans (himage.trans hp.symm)
  cases hqh : q.history
  cases hph : p.history
  rw [hqh, hph] at hentries
  exact congrArg History.mk hentries

/-- the facet of a name after an operation -/
theorem exists_apply (hd : Distinct p.facets) (hf : f ∈ p.facets) (o : Operation) :
    ∃ g ∈ (p.apply o).facets, g.id = f.id := by
  obtain ⟨g, hg, -⟩ := find?_apply hd o (find?_of_mem hd hf)
  exact ⟨g, mem_of_find? hg⟩

/-- a value selected while the service is another one -/
theorem exists_selected (hp : p.Registered) (hf : f ∈ p.facets) (raw : String) (info : ValueInfo)
    (g : Gateway) :
    let q := (p.apply (.service g)).apply (.request (.select f.id raw info))
    (∃ t, (p.apply (.service g)).select f.id raw info = .ok (t, q)) ∧ q.Registered ∧ q.Mirrored ∧
      ∃ e ∈ q.facets, e.id = f.id := by
  intro q
  have hp₁ := registered_apply hp (.service g)
  have hf₁ : f ∈ (p.apply (.service g)).facets := hf
  exact ⟨select_eq_apply hp₁.distinct hf₁ raw info, registered_apply hp₁ _,
    mirrored_of_writes hp₁ (writes_known hf₁), exists_apply hp₁.distinct hf₁ _⟩

/-- both requests are accepted, and values and history come back -/
theorem exists_undone (hp : p.Registered) (hmirrored : p.Mirrored) (hf : f ∈ p.facets)
    (hproper : f.Proper) (hm : f.kind.mode = .multi)
    (hsame : f.kind.canonical raw' = f.kind.canonical raw)
    (hnew : ∀ v, f.kind.canonical raw = some v → v ∉ f.values) (info : ValueInfo)
    (g₁ g₂ : Gateway) :
    ∃ t q t' r, (p.apply (.service g₁)).select f.id raw info = .ok (t, q) ∧
      (q.apply (.service g₂)).deselect f.id raw' = .ok (t', r) ∧
      r.facets.map Facet.pick = p.facets.map Facet.pick ∧ r.history = p.history := by
  obtain ⟨⟨t, hselect⟩, hq, -, e, he, hid⟩ := exists_selected hp hf raw info g₁
  have hq₂ := registered_apply hq (.service g₂)
  have he₂ : e ∈ (((p.apply (.service g₁)).apply (.request (.select f.id raw info))).apply
    (.service g₂)).facets := he
  obtain ⟨t', hdeselect⟩ := deselect_eq_apply hq₂.distinct he₂ raw'
  have hr := mirrored_of_writes hq₂ (o := .request (.deselect e.id raw')) (writes_known he₂)
  rw [hid] at hdeselect hr
  have hpicks := picks_undone (p := p.apply (.service g₁)) hp.distinct hf hproper hm hsame hnew
    hq₂.distinct rfl
  refine ⟨t, _, t', _, hselect, hdeselect, hpicks, hmirrored.history_eq hr ?_ hpicks⟩
  exact tab_applyAll [.service g₁, .request (.select f.id raw info), .service g₂,
    .request (.deselect f.id raw')] hp.distinct

/-- a second choice changes nothing that is selected, nor the history -/
theorem exists_again (hp : p.Registered) (hf : f ∈ p.facets)
    (hsame : f.kind.canonical raw' = f.kind.canonical raw) (info info' : ValueInfo)
    (g₁ g₂ : Gateway) :
    ∃ t q t' r, (p.apply (.service g₁)).select f.id raw info = .ok (t, q) ∧
      (q.apply (.service g₂)).select f.id raw' info' = .ok (t', r) ∧
      r.facets.map Facet.pick = q.facets.map Facet.pick ∧ r.history = q.history := by
  obtain ⟨⟨t, hselect⟩, hq, hmirrored, e, he, hid⟩ := exists_selected hp hf raw info g₁
  obtain ⟨⟨t', hagain⟩, -, hr, -⟩ := exists_selected hq he raw' info' g₂
  rw [hid] at hagain hr
  have hpicks := picks_again (p := p.apply (.service g₁)) hp.distinct hf hsame info'
    (registered_apply hq (.service g₂)).distinct rfl
  refine ⟨t, _, t', _, hselect, hagain, hpicks, hmirrored.history_eq hr ?_ hpicks⟩
  exact tab_applyAll [.service g₂, .request (.select f.id raw' info')] hq.distinct

end Panel

/-! ## names that have been looked up -/

/-- the service answers from one store, and nothing is selected with knowledge -/
def Operation.Answered (s : Store) : Operation → Prop
  | .service g => g.store = s ∧ g.failure = none
  | .request a => a.isPlain = true
  | _ => True

namespace Panel

variable {s : Store} {p q : Panel}

theorem resolved_of_quiet (h : ∀ f ∈ p.facets, f.Resolved s) (hq : p.Quiet q) :
    ∀ f ∈ q.facets, f.Resolved s := by
  intro g hg
  obtain ⟨f, hf, hk, hs⟩ := exists_of_forall₂_right hq.forall₂ hg
  exact (h f hf).of_selection hk hs

/-- a panel whose service answers from a store and whose names have all been looked up -/
structure Informed (s : Store) (p : Panel) : Prop extends Serving s p where
  resolved : ∀ f ∈ p.facets, f.Resolved s

theorem Informed.of_quiet (hp : p.Informed s) (hq : p.Quiet q) : q.Informed s :=
  ⟨hq.serving hp.toServing, resolved_of_quiet hp.resolved hq⟩

theorem Informed.of_move (hp : p.Informed s) {a : Action} (ha : a.isPlain = true)
    (h : Move s p a q) : q.Informed s :=
  ⟨(kept_of_move h).serving hp.toServing, resolved_of_move ha hp.resolved h⟩

/-- a new facet has nothing selected -/
theorem Informed.addFacet (hp : p.Informed s) (kind : FacetKind) :
    (p.apply (.addFacet kind)).Informed s := by
  have hd := distinct_apply hp.distinct (.addFacet kind)
  rw [apply_addFacet] at hd ⊢
  cases h : p.addFacet kind with
  | error e => exact hp
  | ok q =>
    rw [h] at hd
    obtain ⟨-, rfl⟩ := addFacet_eq_ok h
    refine ⟨⟨hd, hp.store, hp.answers⟩, List.forall_mem_append.2 ⟨hp.resolved, ?_⟩⟩
    exact List.forall_mem_singleton.2 fun _ i hi => nomatch hi

/-- an answered operation leaves no name behind that has not been looked up -/
theorem Informed.apply (hp : p.Informed s) {o : Operation} (ho : o.Answered s) :
    (p.apply o).Informed s := by
  cases o with
  | request a => exact hp.of_move ho (move_perform hp.toServing a)
  | load h origin =>
    exact hp.of_move (a := .appear h origin) rfl (move_load hp.toServing rfl h origin)
  | openFetch id r =>
    show (p.stepped (p.openFetch id r)).Informed s
    cases h : p.openFetch id r with
    | error e => exact hp
    | ok opened => exact hp.of_quiet (quiet_openFetch hp.distinct h)
  | runFetch fetch => exact hp.of_quiet (quiet_runFetch p fetch)
  | closeFetch fetch answer =>
    show (p.stepped (p.closeFetch fetch answer)).Informed s
    cases h : p.closeFetch fetch answer with
    | error e => exact hp
    | ok closed => exact hp.of_quiet (quiet_closeFetch hp.distinct h)
  | addFacet kind => exact hp.addFacet kind
  | addGroup g =>
    show ((p.addGroup g).toOption.getD p).Informed s
    cases h : p.addGroup g with
    | error e => exact hp
    | ok q =>
      obtain ⟨-, rfl⟩ := addGroup_eq_ok h
      exact ⟨⟨hp.distinct, hp.store, hp.answers⟩, hp.resolved⟩
  | service g => exact ⟨⟨hp.distinct, ho.1, ho.2⟩, hp.resolved⟩

theorem Informed.applyAll {os : List Operation} (hos : ∀ o ∈ os, o.Answered s) :
    ∀ {p : Panel}, p.Informed s → (p.applyAll os).Informed s := by
  induction os with
  | nil => exact fun hp => hp
  | cons o os ih =>
    obtain ⟨ho, hos⟩ := List.forall_mem_cons.1 hos
    exact fun hp => ih hos (hp.apply ho)

theorem informed_standard (config : Config) {g : Gateway} (tab : String) (hs : g.store = s)
    (ha : g.failure = none) : (standard config g tab).Informed s := by
  refine ⟨⟨.of_all (kinds_standard config g tab), hs, ha⟩, fun f hf => ?_⟩
  obtain ⟨k, -, rfl⟩ := List.mem_map.1 hf
  exact fun _ i hi => nomatch hi

end Panel

/-- every selected name has its ids, but perhaps one value of one facet -/
def Facet.ResolvedBut (s : Store) (k : FacetKind) (v : String) (f : Facet) : Prop :=
  f.kind.isName = true → ∀ i ∈ f.selection.items,
    f.kind = k ∧ i.value = v ∨ SameIds i.info.ids (f.kind.namedIds s i.value)

namespace Facet

variable {s : Store} {k : FacetKind} {v : String} {f : Facet}

theorem Resolved.but (h : f.Resolved s) : f.ResolvedBut s k v := fun hn i hi => .inr (h hn i hi)

theorem ResolvedBut.resolved_of_ne (h : f.ResolvedBut s k v) (hk : f.kind ≠ k) : f.Resolved s :=
  fun hn i hi => (h hn i hi).resolve_left fun e => hk e.1

/-- without the value -/
theorem ResolvedBut.deselect {raw : String} (h : f.ResolvedBut s f.kind (soughtValue f.kind raw)) :
    (f.deselect raw).Resolved s := by
  intro hn i hi
  obtain ⟨hi, hv⟩ := List.mem_filter.1 hi
  exact (h hn i hi).resolve_left fun e => bne_iff_ne.1 hv e.2

theorem resolvedBut_turn (closed : String → Bool) (except : List String) (scope : Scope)
    (h : f.ResolvedBut s k v) : (Panel.turn s closed except scope f).ResolvedBut s k v := by
  unfold Panel.turn
  split
  · exact h
  · split
    · intro hn i hi
      rw [f.kind_forget] at hn ⊢
      rw [f.selection_forget] at hi
      exact h hn i hi
    · exact (f.forget.resolved_refreshed s scope).but

/-- after a choice with any knowledge, all other names are as before -/
theorem resolvedBut_chosen (h : f.Resolved s) (scope : Scope) {raw raw' : String}
    (hsame : f.kind.canonical raw' = f.kind.canonical raw) (info : ValueInfo) :
    (Panel.chosen s scope f raw info).ResolvedBut s f.kind (soughtValue f.kind raw') := by
  unfold Panel.chosen
  split
  · exact ((f.select raw info).resolved_refreshed s scope).but
  · cases hc : f.kind.canonical raw with
    | none =>
      rw [select_of_none hc]
      exact h.but
    | some v =>
      rw [select_of_some hc, soughtValue, hsame, hc]
      intro hn i hi
      rcases Selection.mem_items_select hi with hi | hv
      · exact .inr (h hn i hi)
      · exact .inl ⟨rfl, hv⟩

end Facet

namespace Panel

variable {s : Store} {p q r : Panel} {f : Facet} {raw raw' : String} {info : ValueInfo}
  {t t' : Summary}

/-- Once all names have been looked up, so they are after a choice with any knowledge that is taken
back. -/
theorem Informed.undone (hp : p.Informed s) (hf : f ∈ p.facets)
    (hsame : f.kind.canonical raw' = f.kind.canonical raw)
    (hselect : p.select f.id raw info = .ok (t, q)) {g : Gateway} (hg : g.store = s)
    (ha : g.failure = none)
    (hdeselect : ({ q with gateway := g } : Panel).deselect f.id raw' = .ok (t', r)) :
    ∀ f ∈ r.facets, f.Resolved s := by
  obtain ⟨f', hf', hid, n, hq⟩ := select_eq_ok hp.toServing hselect
  obtain rfl : f' = f := hp.distinct.eq_of_id hf hf' hid
  have hbut : ∀ e ∈ q.facets, e.ResolvedBut s f'.kind (Facet.soughtValue f'.kind raw') := by
    rw [hq]
    refine forall_turns _ _ _ (fun e scope h => Facet.resolvedBut_turn _ _ scope h)
      (forall_putIn (fun e he => (hp.resolved e he).but) ?_)
    exact Facet.resolvedBut_chosen (hp.resolved f' hf) _ hsame info
  have hdq : Distinct q.facets := by
    rw [hq]
    exact hp.distinct.of_kinds (kept_of_move (.selected hf raw info n)).kinds
  have hserving : ({ q with gateway := g } : Panel).Serving s := ⟨hdq, hg, ha⟩
  obtain ⟨e, he, hid', m, hr⟩ := deselect_eq_ok hserving hdeselect
  have hek : e.kind = f'.kind := FacetKind.id_inj hid'
  rw [hr]
  refine resolved_turns fun x hx => ?_
  rcases mem_putIn hx with rfl | ⟨hx, hne⟩
  · exact Facet.ResolvedBut.deselect (hek ▸ hbut e he)
  · exact (hbut x hx).resolved_of_ne fun hk => hne (hk.trans hek.symm)

/-- panels of the same values whose names have all been looked up show the same results -/
theorem results_of_picks (hp : ∀ f ∈ p.facets, f.Resolved s) (hq : ∀ f ∈ q.facets, f.Resolved s)
    (h : q.facets.map Facet.pick = p.facets.map Facet.pick) :
    s.results q.query.scope = s.results p.query.scope := by
  refine Store.results_congr s (Query.Alike.scope (queryOf_congr ?_))
  exact forall₂_of_picks h fun g hg f hf hk hv =>
    Facet.alike_of_resolved (hq g hg) (hp f hf) hk hv

/-! ## the law -/

/-- Deselecting undoes selecting. On a ready panel, a facet for several values that has a value not
selected selects it, under any spelling and with any knowledge, and takes it out again, under any
spelling of the same value: both requests are accepted, whatever the service does, and the values of
all facets in their order and the history are those from before. A text that is no value of the facet
changes neither. If throughout the service answers from one store and nothing was selected with
knowledge before, the results come back as well. A value that is selected twice, under any spellings,
is selected as by the first time. -/
theorem deselect_undoes_select (config : Config) (g : Gateway) (tab : String)
    (os : List Operation) :
    let p := (standard config g tab).applyAll os
    ∀ k raw raw', FacetKind.canonical k raw' = FacetKind.canonical k raw → ∀ info g₁ g₂,
    (p.phase = .ready → k.mode = .multi →
      (∀ v, k.canonical raw = some v → v ∉ p.valuesOf k) →
      ∃ t q t' r, (p.apply (.service g₁)).select k.id raw info = .ok (t, q) ∧
        (q.apply (.service g₂)).deselect k.id raw' = .ok (t', r) ∧
        r.facets.map Facet.pick = p.facets.map Facet.pick ∧ r.history = p.history ∧
        ∀ s, (∀ o ∈ .service g :: os ++ [.service g₁, .service g₂], o.Answered s) →
          s.results r.query.scope = s.results p.query.scope) ∧
    ∀ info', ∃ t q t' r, (p.apply (.service g₁)).select k.id raw info = .ok (t, q) ∧
      (q.apply (.service g₂)).select k.id raw' info' = .ok (t', r) ∧
      r.facets.map Facet.pick = q.facets.map Facet.pick ∧ r.history = q.history := by
  intro p k raw raw' hsame info g₁ g₂
  have hreg : p.Registered := registered_applyAll os (registered_standard config g tab)
  have hd := hreg.distinct
  obtain ⟨f, hf, rfl, hvalues⟩ := exists_valuesOf (complete_standard config g tab os).kinds k
  refine ⟨fun hready hm hnew => ?_, fun info' => exists_again hreg hf hsame info info' g₁ g₂⟩
  rw [hvalues] at hnew
  have hmirrored := mirrored_of_ready config g tab os hready
  have hproper := proper_applyAll config g tab os f hf
  obtain ⟨t, q, t', r, hselect, hdeselect, hpicks, hhistory⟩ :=
    exists_undone hreg hmirrored hf hproper hm hsame hnew info g₁ g₂
  refine ⟨t, q, t', r, hselect, hdeselect, hpicks, hhistory, fun s hs => ?_⟩
  obtain ⟨hg, hs⟩ := List.forall_mem_cons.1 hs
  obtain ⟨hos, hs⟩ := List.forall_mem_append.1 hs
  have hinformed : p.Informed s := (informed_standard config tab hg.1 hg.2).applyAll hos
  have hinformed₁ : (p.apply (.service g₁)).Informed s :=
    hinformed.apply (hs _ List.mem_cons_self)
  have hg₂ := hs (.service g₂) (List.mem_cons_of_mem _ List.mem_cons_self)
  exact results_of_picks hinformed.resolved
    (hinformed₁.undone hf hsame hselect hg₂.1 hg₂.2 hdeselect) hpicks

/-- a run chosen, its group collapsed -/
def collapsedRuns : List Operation :=
  [.request (.appear {} .deepLink), .request (.select "run" "beta" {}),
    .request (.setExpanded "baseline" false)]

theorem deselect_undoes_select_collapsedRuns :
    let p := (standard {} { store := twoRuns } "reports").applyAll collapsedRuns
    p.phase = .ready ∧
    ∃ t q t' r, (p.apply (.service { store := twoRuns })).select "run" " alpha " ⟨some 7, [9]⟩ =
        .ok (t, q) ∧
      (q.apply (.service { store := twoRuns })).deselect "run" "alpha" = .ok (t', r) ∧
      r.facets.map Facet.pick = p.facets.map Facet.pick ∧
      r.history.entries = [("tab", ["reports"]), ("run", ["beta"])] ∧
      twoRuns.results r.query.scope = twoRuns.results p.query.scope := by
  intro p
  have hready : p.phase = .ready := by decide +kernel
  have hnew : ∀ v, FacetKind.canonical (.run .baseline) " alpha " = some v →
      v ∉ p.valuesOf (.run .baseline) := by
    have halpha : FacetKind.canonical (.run .baseline) " alpha " = some "alpha" := by
      decide +kernel
    rintro v hv
    cases halpha.symm.trans hv
    decide +kernel
  obtain ⟨t, q, t', r, hselect, hdeselect, hpicks, hhistory, hresults⟩ :=
    (deselect_undoes_select {} { store := twoRuns } "reports" collapsedRuns (.run .baseline)
      " alpha " "alpha" (by decide +kernel) ⟨some 7, [9]⟩ { store := twoRuns }
      { store := twoRuns }).1 hready rfl hnew
  refine ⟨hready, t, q, t', r, hselect, hdeselect, hpicks, ?_, hresults twoRuns ?_⟩
  · rw [hhistory]
    decide +kernel
  · simp [collapsedRuns, Operation.Answered, Action.isPlain, ValueInfo.isEmpty]

end Panel
end Triage
