import Triage.Panel.Lifecycle
import Triage.Panel.Selecting
import Triage.Proofs.Resolution

/-!
# One round over the facets

A round visits the facets in their order, each under the conditions of the others as they are by
then: earlier facets have had their turn, later ones have not.

* `Panel.turn`           a facet after its turn, when the service answers (`visit_eq`);
* `Panel.turns`          the facets after their turns (`round_eq`, `refreshAll_eq`);
* `map_turns`, `forall_turns`   what every turn keeps, a round keeps;
* `turns_resolved`       if every name was looked up before, all turns take place under one and the
                         same scope, up to the order of ids.
-/

namespace Triage

theorem FacetKind.ofId?_id (k : FacetKind) : FacetKind.ofId? k.id = some k := by
  cases k with
  | run side => cases side <;> rfl
  | runTag side => cases side <;> rfl
  | date field => cases field <;> rfl
  | text field => cases field <;> rfl
  | _ => rfl

theorem FacetKind.id_inj {k l : FacetKind} (h : k.id = l.id) : k = l := by
  have e := FacetKind.ofId?_id k
  rw [h, FacetKind.ofId?_id l] at e
  exact (Option.some.inj e).symm

theorem exists_of_forall₂_right {α β : Type} {R : α → β → Prop} {as : List α} {bs : List β}
    (h : List.Forall₂ R as bs) {b : β} (hb : b ∈ bs) : ∃ a ∈ as, R a b := by
  induction h with
  | nil => cases hb
  | @cons a b' as bs hab _ ih =>
    rcases List.mem_cons.1 hb with rfl | hb
    · exact ⟨a, List.mem_cons_self, hab⟩
    · obtain ⟨a', ha', h'⟩ := ih hb
      exact ⟨a', List.mem_cons_of_mem _ ha', h'⟩

namespace Panel

/-- no two facets are of one kind -/
def Distinct (facets : List Facet) : Prop := (facets.map (·.kind)).Nodup

theorem Distinct.of_kinds {fs gs : List Facet} (h : Distinct fs)
    (k : gs.map (·.kind) = fs.map (·.kind)) : Distinct gs := by
  rw [Distinct, k]
  exact h

/-! ## replacing one facet -/

/-- the facet of a kind replaced, in a list -/
def putIn (g : Facet) (facets : List Facet) : List Facet :=
  facets.map fun f => if f.kind = g.kind then g else f

theorem put_facets (p : Panel) (g : Facet) : (p.put g).facets = putIn g p.facets := rfl

theorem putIn_of_notMem {g : Facet} {fs : List Facet} (h : g.kind ∉ fs.map (·.kind)) :
    putIn g fs = fs := by
  rw [putIn]
  refine (List.map_congr_left fun f hf => if_neg fun e => ?_).trans (List.map_id' fs)
  exact h (List.mem_map.2 ⟨f, hf, e⟩)

theorem putIn_split {done rest : List Facet} {f g : Facet} (hd : Distinct (done ++ f :: rest))
    (hg : g.kind = f.kind) : putIn g (done ++ f :: rest) = done ++ g :: rest := by
  rw [Distinct, List.map_append, List.map_cons] at hd
  have hn := List.nodup_append.1 hd
  have h1 : g.kind ∉ done.map (·.kind) := fun hm =>
    hn.2.2 _ hm _ List.mem_cons_self hg
  have h2 : g.kind ∉ rest.map (·.kind) := hg ▸ (List.nodup_cons.1 hn.2.1).1
  show List.map _ _ = _
  rw [List.map_append, List.map_cons, if_pos hg.symm]
  show putIn g done ++ g :: putIn g rest = _
  rw [putIn_of_notMem h1, putIn_of_notMem h2]

theorem kinds_putIn (g : Facet) (fs : List Facet) :
    (putIn g fs).map (·.kind) = fs.map (·.kind) := by
  rw [putIn, List.map_map]
  refine List.map_congr_left fun f _ => ?_
  show (if f.kind = g.kind then g else f).kind = f.kind
  split
  · next h => exact h.symm
  · rfl

theorem mem_putIn {g h : Facet} {fs : List Facet} (hh : h ∈ putIn g fs) :
    h = g ∨ (h ∈ fs ∧ h.kind ≠ g.kind) := by
  obtain ⟨f, hf, rfl⟩ := List.mem_map.1 hh
  by_cases e : f.kind = g.kind
  · rw [if_pos e]
    exact .inl rfl
  · rw [if_neg e]
    exact .inr ⟨hf, e⟩

theorem forall_putIn {P : Facet → Prop} {g : Facet} {fs : List Facet} (h : ∀ f ∈ fs, P f)
    (hg : P g) : ∀ f ∈ putIn g fs, P f := by
  intro f hf
  rcases mem_putIn hf with rfl | ⟨hf, -⟩
  · exact hg
  · exact h f hf

/-- a facet's own condition is not part of its scope -/
theorem scopeOf_putIn (g : Facet) (fs : List Facet) :
    scopeOf (putIn g fs) g.id = scopeOf fs g.id := by
  have e : (putIn g fs).filter (·.id != g.id) = fs.filter (·.id != g.id) := by
    induction fs with
    | nil => rfl
    | cons f fs ih =>
      show ((if f.kind = g.kind then g else f) :: putIn g fs).filter _ = _
      by_cases hk : f.kind = g.kind
      · have hi : f.id = g.id := congrArg FacetKind.id hk
        rw [if_pos hk, List.filter_cons, List.filter_cons, hi, ih]
        simp
      · rw [if_neg hk, List.filter_cons, List.filter_cons, ih]
  rw [scopeOf, scopeOf, e]

/-! ## the turn of a facet -/

/-- in a collapsed group -/
def closedIn (groups : List Group) (id : String) : Bool :=
  groups.any fun g => !g.expanded && g.members.contains id

theorem inClosedGroup_eq (p : Panel) (id : String) :
    p.inClosedGroup id = closedIn p.groups id := rfl

variable (s : Store) (closed : String → Bool) (except : List String)

/-- the facet after its turn, when the service answers -/
def turn (scope : Scope) (f : Facet) : Facet :=
  if except.contains f.id then f
  else if closed f.id then f.forget
  else f.forget.refreshed s scope

/-- the facets still to be visited after their turns, behind those that have been visited -/
def turns : List Facet → List Facet → List Facet
  | _, [] => []
  | done, f :: rest =>
    let f' := turn s closed except (scopeOf (done ++ f :: rest) f.id) f
    f' :: turns (done ++ [f']) rest

theorem turns_nil (done : List Facet) : turns s closed except done [] = [] := rfl

theorem turns_cons (done : List Facet) (f : Facet) (rest : List Facet) :
    turns s closed except done (f :: rest) =
      turn s closed except (scopeOf (done ++ f :: rest) f.id) f ::
        turns s closed except
          (done ++ [turn s closed except (scopeOf (done ++ f :: rest) f.id) f]) rest := rfl

theorem steady_turn (scope : Scope) (f : Facet) : f.Steady (turn s closed except scope f) := by
  unfold turn
  split
  · exact .refl f
  · split
    · exact f.steady_forget
    · exact f.steady_forget.trans (f.forget.steady_refreshed s scope)

variable {s closed except}

theorem turn_of_except {f : Facet} (h : except.contains f.id = true) (scope : Scope) :
    turn s closed except scope f = f := if_pos h

theorem resolved_turn (scope : Scope) {f : Facet} (h : f.Resolved s) :
    (turn s closed except scope f).Resolved s := by
  unfold turn
  split
  · exact h
  · split
    · exact h.of_selection f.steady_forget.kind f.selection_forget
    · exact f.forget.resolved_refreshed s scope

/-- a facet that is visited and not in a collapsed group has its names looked up -/
theorem resolved_turn_of_open (scope : Scope) {f : Facet} (he : except.contains f.id = false)
    (hc : closed f.id = false) : (turn s closed except scope f).Resolved s := by
  rw [turn, he, hc]
  exact f.forget.resolved_refreshed s scope

theorem counted_turn_of_open (scope : Scope) {f : Facet} (he : except.contains f.id = false)
    (hc : closed f.id = false) (hk : f.kind.isCountSensitive = true) :
    (turn s closed except scope f).Counted s scope := by
  rw [turn, he, hc]
  exact f.forget.counted_refreshed s scope (f.steady_forget.kind ▸ hk)

/-! ## visits and rounds -/

/-- the same panel with other facets, and with some calls made -/
def withFacets (p : Panel) (facets : List Facet) (n : Nat) : Panel :=
  { p with facets, gateway := { p.gateway with calls := p.gateway.calls + n } }

theorem withFacets_self (p : Panel) : p.withFacets p.facets 0 = p := rfl

theorem withFacets_withFacets (p : Panel) (fs gs : List Facet) (m n : Nat) :
    (p.withFacets fs m).withFacets gs n = p.withFacets gs (m + n) := by
  show Panel.mk _ _ _ _ _ _ _ = Panel.mk _ _ _ _ _ _ _
  simp only [withFacets, Nat.add_assoc]

/-- asking for the counts of a facet of the panel -/
theorem refreshOne_eq {p : Panel} {f : Facet} (ha : p.gateway.failure = none) :
    ∃ outcome n, p.refreshOne f = (outcome, p.withFacets
      (putIn (f.refreshed p.gateway.store (scopeOf p.facets f.id)) p.facets) n) := by
  unfold refreshOne
  rw [Facet.refresh_run f _ ha, scopeWithout_eq]
  by_cases h : f.hasCounts = true
  · simp only [h, if_true]
    exact ⟨_, f.kind.calls (scopeOf p.facets f.id), rfl⟩
  · simp only [h, if_false, Bool.false_eq_true]
    exact ⟨_, 0, rfl⟩

theorem visit_eq {p : Panel} {done rest : List Facet} {f : Facet} (ha : p.gateway.failure = none)
    (hd : Distinct p.facets) (hp : p.facets = done ++ f :: rest) (except : List String) :
    ∃ outcome n, p.visit except f = (outcome, p.withFacets
      (done ++ turn p.gateway.store p.inClosedGroup except (scopeOf p.facets f.id) f :: rest) n) := by
  have hk := f.steady_forget.kind
  have hput : putIn f.forget p.facets = done ++ f.forget :: rest := by
    rw [hp] at hd ⊢
    exact putIn_split hd hk
  have hd' : Distinct (done ++ f.forget :: rest) := hput ▸ hd.of_kinds (kinds_putIn _ _)
  unfold visit turn
  cases he : except.contains f.id with
  | true =>
    refine ⟨.skipped, 0, ?_⟩
    simp only [if_true]
    rw [← hp, withFacets_self]
  | false =>
    simp only [Bool.false_eq_true, if_false]
    show ∃ outcome n, (if p.inClosedGroup f.id = true then _ else _) = _
    cases hc : p.inClosedGroup f.id with
    | true =>
      simp only [if_true]
      refine ⟨.skipped, 0, ?_⟩
      rw [← hput]
      rfl
    | false =>
      simp only [Bool.false_eq_true, if_false]
      obtain ⟨outcome, n, h⟩ := refreshOne_eq (p := p.put f.forget) (f := f.forget) ha
      refine ⟨outcome, n, ?_⟩
      have hs : scopeOf (p.put f.forget).facets f.forget.id = scopeOf p.facets f.id := by
        rw [put_facets, scopeOf_putIn]
        exact congrArg _ f.steady_forget.id_eq
      rw [h, hs, put_facets, hput]
      rw [putIn_split hd' (f.forget.steady_refreshed _ _).kind]
      rfl

/-- the facets still to come after a round over them -/
theorem round_eq (except : List String) (rest : List Facet) :
    ∀ (done : List Facet) (p : Panel) (t : Summary), p.gateway.failure = none →
      Distinct p.facets → p.facets = done ++ rest →
      ∃ t' n, round except rest t p = (t', p.withFacets
        (done ++ turns p.gateway.store p.inClosedGroup except done rest) n) := by
  induction rest with
  | nil =>
    intro done p t _ _ hp
    refine ⟨t, 0, ?_⟩
    rw [turns_nil, ← hp, withFacets_self]
    rfl
  | cons f rest ih =>
    intro done p t ha hd hp
    obtain ⟨outcome, m, hv⟩ := visit_eq ha hd hp except
    have hkf := (steady_turn p.gateway.store p.inClosedGroup except
      (scopeOf p.facets f.id) f).kind
    rw [round, hv]
    dsimp only
    have hd' : Distinct (done ++ turn p.gateway.store p.inClosedGroup except
        (scopeOf p.facets f.id) f :: rest) := by
      refine hd.of_kinds ?_
      rw [hp, List.map_append, List.map_append, List.map_cons, List.map_cons, ← hp, hkf]
    obtain ⟨t', n, hr⟩ := ih (done ++ [turn p.gateway.store p.inClosedGroup except
        (scopeOf p.facets f.id) f])
      (p.withFacets (done ++ turn p.gateway.store p.inClosedGroup except
        (scopeOf p.facets f.id) f :: rest) m) (t.add outcome) ha hd'
      (by rw [List.append_assoc]; rfl)
    refine ⟨t', m + n, ?_⟩
    rw [hr, withFacets_withFacets, turns_cons, ← hp, List.append_assoc]
    rfl

theorem refreshAll_eq {p : Panel} (ha : p.gateway.failure = none) (hd : Distinct p.facets)
    (except : List String) :
    ∃ t n, p.refreshAll except = (t, (p.withFacets
      (turns p.gateway.store p.inClosedGroup except [] p.facets) n).writeHistory) := by
  obtain ⟨t, n, h⟩ := round_eq except p.facets [] p {} ha hd rfl
  refine ⟨t, n, ?_⟩
  rw [refreshAll, h]
  rfl

/-! ## the scope of each turn -/

theorem alike_turn {f : Facet} (h : f.Resolved s) (scope : Scope) :
    (turn s closed except scope f).Alike f :=
  Facet.alike_of_resolved (resolved_turn scope h) h (steady_turn _ _ _ scope f).kind
    (steady_turn _ _ _ scope f).values

theorem forall₂_alike_replace (before after : List Facet) {f g : Facet} (h : f.Alike g) :
    List.Forall₂ Facet.Alike (before ++ f :: after) (before ++ g :: after) := by
  have hr : ∀ l : List Facet, List.Forall₂ Facet.Alike l l := fun l =>
    List.forall₂_same.2 fun f _ => .refl f
  exact List.rel_append (hr before) (.cons h (hr after))

variable (s closed except)

theorem turns_forall₂ (rest : List Facet) : ∀ done : List Facet,
    List.Forall₂ (fun f f' => ∃ scope, f' = turn s closed except scope f) rest
      (turns s closed except done rest) := by
  induction rest with
  | nil => intro done; exact .nil
  | cons f rest ih => intro done; exact .cons ⟨_, rfl⟩ (ih _)

/-- a reading that every turn keeps, a round keeps -/
theorem map_turns {α : Type} (read : Facet → α)
    (hturn : ∀ (f : Facet) (scope : Scope), read (turn s closed except scope f) = read f)
    (done rest : List Facet) : (turns s closed except done rest).map read = rest.map read := by
  have h := turns_forall₂ s closed except rest done
  generalize turns s closed except done rest = after at h
  induction h with
  | nil => rfl
  | cons hf _ ih =>
    obtain ⟨scope, rfl⟩ := hf
    rw [List.map_cons, List.map_cons, ih, hturn]

/-- what every turn keeps, a round keeps -/
theorem forall_turns {P : Facet → Prop}
    (hturn : ∀ (f : Facet) (scope : Scope), P f → P (turn s closed except scope f))
    {done rest : List Facet} (h : ∀ f ∈ rest, P f) :
    ∀ f ∈ turns s closed except done rest, P f := by
  intro g hg
  obtain ⟨f, hf, scope, rfl⟩ := exists_of_forall₂_right
    (turns_forall₂ s closed except rest done) hg
  exact hturn f scope (h f hf)

/-- Once every name has been looked up, all turns see the same scope up to the order of ids. -/
theorem turns_resolved (rest : List Facet) : ∀ done : List Facet,
    (∀ f ∈ rest, f.Resolved s) →
    List.Forall₂ (fun f f' => ∃ scope, scope.Alike (scopeOf (done ++ rest) f.id) ∧
      f' = turn s closed except scope f) rest (turns s closed except done rest) := by
  induction rest with
  | nil => intro done _; exact .nil
  | cons f rest ih =>
    intro done hr
    refine .cons ⟨_, .refl _, rfl⟩ ((ih _ fun g hg => hr g (List.mem_cons_of_mem _ hg)).imp ?_)
    rintro g g' ⟨scope, hs, rfl⟩
    refine ⟨scope, hs.trans ?_, rfl⟩
    rw [List.append_assoc]
    exact scopeOf_congr
      (forall₂_alike_replace done rest (alike_turn (hr f List.mem_cons_self) _)) g.id

theorem alike_turns (done rest : List Facet) (hr : ∀ f ∈ rest, f.Resolved s) :
    List.Forall₂ Facet.Alike (turns s closed except done rest) rest := by
  have h := turns_forall₂ s closed except rest done
  generalize turns s closed except done rest = after at h
  induction h with
  | nil => exact .nil
  | cons hf _ ih =>
    obtain ⟨scope, rfl⟩ := hf
    exact .cons (alike_turn (hr _ List.mem_cons_self) scope)
      (ih fun g hg => hr g (List.mem_cons_of_mem _ hg))

end Panel

end Triage
