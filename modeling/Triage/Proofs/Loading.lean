import Triage.Proofs.Coherence

/-!
# Counts after a load

A load refreshes the facets one after the other while names of runs and tags are still being looked
up, so the count of a name may belong to a query that the panel leaves behind at once:

* `Facet.shownCounts`      the selected values with their counts;
* `Facet.lookedUp`         the facet with the ids of all its names;
* `Panel.scopesOnTurn`     the scope at the turn of each facet (`mem_scopesOnTurn`);
* `Panel.InTime`           no name has another count because names behind it are not looked up yet;
* `Panel.resolved_loaded`  after a load all names have been looked up;
* `counts_after_load_iff`  asking again for all counts after a load changes none of them exactly when
                           the names were looked up in time.
-/

namespace Triage

namespace Facet

/-- the selected values with the counts they are shown with -/
def shownCounts (f : Facet) : List (String × Option Nat) :=
  f.selection.items.map fun i => (i.value, i.info.count)

/-- the facet with the ids of all its names -/
def lookedUp (s : Store) (f : Facet) : Facet :=
  { f with selection := { f.selection with
      items := f.selection.items.map fun i =>
        { i with info := { i.info with ids := f.kind.namedIds s i.value } } } }

theorem values_lookedUp (s : Store) (f : Facet) : (f.lookedUp s).values = f.values := by
  show List.map _ (List.map _ _) = List.map _ _
  rw [List.map_map]
  rfl

theorem resolved_lookedUp (s : Store) (f : Facet) : (f.lookedUp s).Resolved s := by
  intro _ i hi
  obtain ⟨j, -, rfl⟩ := List.mem_map.1 hi
  exact .refl _

theorem alike_lookedUp {s : Store} {f g : Facet} (hg : g.Resolved s) (hk : g.kind = f.kind)
    (hv : g.values = f.values) : g.Alike (f.lookedUp s) :=
  alike_of_resolved hg (f.resolved_lookedUp s) hk (hv.trans (f.values_lookedUp s).symm)

end Facet

namespace Panel

variable {s : Store} {closed : String → Bool}

/-! ## what a turn shows -/

theorem shownCounts_refreshed {f : Facet} (scope : Scope) (hk : f.kind.isCountSensitive = true) :
    (f.refreshed s scope).shownCounts =
      f.values.map fun v => (v, (f.kind.finding s scope v).count) := by
  have hc := f.counted_refreshed s scope hk
  have hst := f.steady_refreshed s scope
  have hv : f.values = (f.refreshed s scope).selection.items.map (·.value) := hst.values.symm
  rw [hv, Facet.shownCounts, List.map_map]
  refine List.map_congr_left fun i hi => ?_
  show (i.value, i.info.count) = (i.value, _)
  rw [(hc i hi).count, hst.kind]

/-- a facet in a collapsed group has nothing selected -/
def EmptyWhenClosed (closed : String → Bool) (f : Facet) : Prop :=
  closed f.id = true → f.selection.items = []

theorem shownCounts_turn {f : Facet} (h : EmptyWhenClosed closed f) (scope : Scope) :
    (turn s closed [] scope f).shownCounts =
      if f.kind.isCountSensitive = true
      then f.values.map fun v => (v, (f.kind.finding s scope v).count)
      else f.shownCounts := by
  have hsel := f.selection_forget
  have hkind := f.steady_forget.kind
  have hvals : f.forget.values = f.values := f.steady_forget.values
  have hturn : turn s closed [] scope f =
      if closed f.id then f.forget else f.forget.refreshed s scope := if_neg (by simp)
  rw [hturn]
  by_cases hc : closed f.id = true
  · have hi : f.selection.items = [] := h hc
    rw [if_pos hc, Facet.shownCounts, hsel, hi, Facet.shownCounts, Facet.values, Selection.values,
      hi]
    split <;> rfl
  · rw [if_neg hc]
    by_cases hk : f.kind.isCountSensitive = true
    · rw [if_pos hk, shownCounts_refreshed scope (by rw [hkind]; exact hk), hvals, hkind]
    · have hn : f.forget.hasCounts = false := by
        rw [Facet.hasCounts, hkind, Bool.eq_false_iff.2 hk, Bool.false_and]
      rw [if_neg hk, Facet.refreshed, hn]
      show f.forget.shownCounts = f.shownCounts
      rw [Facet.shownCounts, hsel, Facet.shownCounts]

theorem resolved_turn_of_emptyWhenClosed {f : Facet} (h : EmptyWhenClosed closed f)
    (scope : Scope) : (turn s closed [] scope f).Resolved s := by
  cases hc : closed f.id with
  | false => exact resolved_turn_of_open scope rfl hc
  | true =>
    refine resolved_turn scope fun _ i hi => ?_
    rw [h hc] at hi
    cases hi

/-! ## the scope at each turn -/

/-- the facets with the scopes of their turns: the names before are looked up, those behind are as
they were -/
def scopesOnTurn (s : Store) : List Facet → List Facet → List (Facet × Scope)
  | _, [] => []
  | done, f :: rest =>
    (f, scopeOf (done ++ f :: rest) f.id) :: scopesOnTurn s (done ++ [f.lookedUp s]) rest

theorem mem_scopesOnTurn {x : Facet × Scope} (rest : List Facet) : ∀ done : List Facet,
    x ∈ scopesOnTurn s done rest ↔ ∃ before f after, rest = before ++ f :: after ∧
      x = (f, scopeOf (done ++ before.map (Facet.lookedUp s) ++ f :: after) f.id) := by
  induction rest with
  | nil =>
    intro done
    constructor
    · intro h
      cases h
    · rintro ⟨before, f, after, h, -⟩
      cases before <;> cases h
  | cons g rest ih =>
    intro done
    rw [scopesOnTurn, List.mem_cons, ih]
    constructor
    · rintro (rfl | ⟨before, f, after, rfl, rfl⟩)
      · exact ⟨[], g, rest, rfl, by rw [List.map_nil, List.append_nil]⟩
      · refine ⟨g :: before, f, after, rfl, ?_⟩
        rw [List.map_cons, List.append_assoc done, List.append_assoc done, List.append_assoc done]
        rfl
    · rintro ⟨before, f, after, h, rfl⟩
      cases before with
      | nil =>
        cases h
        exact .inl (by rw [List.map_nil, List.append_nil])
      | cons b before =>
        cases h
        refine .inr ⟨before, f, after, rfl, ?_⟩
        rw [List.map_cons, List.append_assoc done, List.append_assoc done, List.append_assoc done]
        rfl

/-- the turns of a round take place under these scopes, up to the order of ids -/
theorem turns_scopesOnTurn (rest : List Facet) : ∀ done done' : List Facet,
    List.Forall₂ Facet.Alike done done' → (∀ f ∈ rest, EmptyWhenClosed closed f) →
    List.Forall₂ (fun x g => EmptyWhenClosed closed x.1 ∧
        ∃ scope, scope.Alike x.2 ∧ g = turn s closed [] scope x.1)
      (scopesOnTurn s done' rest) (turns s closed [] done rest) := by
  induction rest with
  | nil => intro done done' _ _; exact .nil
  | cons f rest ih =>
    intro done done' hd he
    have hf := he f List.mem_cons_self
    have hsame : List.Forall₂ Facet.Alike (f :: rest) (f :: rest) :=
      List.forall₂_same.2 fun g _ => .refl g
    have hr := resolved_turn_of_emptyWhenClosed (s := s) hf (scopeOf (done ++ f :: rest) f.id)
    have hst := steady_turn s closed [] (scopeOf (done ++ f :: rest) f.id) f
    refine .cons ⟨hf, _, scopeOf_congr (List.rel_append hd hsame) f.id, rfl⟩ (ih _ _ ?_ ?_)
    · exact List.rel_append hd (.cons (Facet.alike_lookedUp hr hst.kind hst.values) .nil)
    · exact fun g hg => he g (List.mem_cons_of_mem _ hg)

/-- two readings of lists that are related in two steps agree when they agree everywhere -/
theorem map_eq_map_iff_of_forall₂ {α β γ δ : Type} {R : α → β → Prop} {S : β → γ → Prop}
    {P : α → Prop} {b : β → δ} {c : γ → δ}
    (h : ∀ x y z, R x y → S y z → (c z = b y ↔ P x)) {xs : List α} {ys : List β}
    (hr : List.Forall₂ R xs ys) : ∀ {zs : List γ}, List.Forall₂ S ys zs →
      (zs.map c = ys.map b ↔ ∀ x ∈ xs, P x) := by
  induction hr with
  | nil =>
    intro zs hs
    cases hs
    exact ⟨fun _ x hx => absurd hx List.not_mem_nil, fun _ => rfl⟩
  | cons hxy _ ih =>
    intro zs hs
    cases hs with
    | cons hyz hs =>
      rw [List.map_cons, List.map_cons, List.cons.injEq, h _ _ _ hxy hyz, ih hs,
        List.forall_mem_cons]

/-! ## after a load -/

theorem emptyWhenClosed_takingOver (p : Panel) (h : History) :
    ∀ f ∈ (p.takingOver h).facets, EmptyWhenClosed (p.takingOver h).inClosedGroup f := by
  intro f hf hc
  have hc' : closedIn (p.takingOver h).groups f.id = true := hc
  rw [closedIn, List.any_eq_true] at hc'
  obtain ⟨g', hg', hm⟩ := hc'
  rw [Bool.and_eq_true, Bool.not_eq_true'] at hm
  obtain ⟨hclosed, hmem⟩ := hm
  obtain ⟨g, -, rfl⟩ := List.mem_map.1 hg'
  -- a group with a selected member has been opened
  by_cases ha : g.members.any (isActive { p with facets := p.facets.map fun f => f.load h }) = true
  · rw [if_pos ha] at hclosed
    cases hclosed
  · rw [if_neg ha] at hmem
    by_contra hne
    refine ha (List.any_eq_true.2 ⟨f.id, List.contains_iff_mem.1 hmem, ?_⟩)
    refine List.any_eq_true.2 ⟨f, hf, ?_⟩
    rw [Bool.and_eq_true, Bool.not_eq_true']
    refine ⟨beq_self_eq_true _, ?_⟩
    rw [Selection.isEmpty, List.isEmpty_eq_false_iff]
    exact hne

/-- after a load all names have been looked up, whatever was known before -/
theorem resolved_loaded (p : Panel) (h : History) (n : Nat) :
    ∀ f ∈ (loaded s p h n).facets, f.Resolved s := by
  intro g hg
  obtain ⟨f, hf, scope, rfl⟩ := exists_of_forall₂_right
    (turns_forall₂ s (p.takingOver h).inClosedGroup [] (p.takingOver h).facets []) hg
  exact resolved_turn_of_emptyWhenClosed (emptyWhenClosed_takingOver p h f hf) scope

/-! ## names stay looked up -/

theorem resolved_turns {except : List String} {done rest : List Facet}
    (h : ∀ f ∈ rest, f.Resolved s) : ∀ f ∈ turns s closed except done rest, f.Resolved s :=
  forall_turns s closed except (fun _ scope hf => resolved_turn scope hf) h

theorem resolved_deselect {f : Facet} (h : f.Resolved s) (raw : String) :
    (f.deselect raw).Resolved s := fun hn i hi => h hn i (mem_items_deselect hi)

theorem resolved_clear (f : Facet) : f.clear.Resolved s := by
  intro _ i hi
  cases hi

/-- no request that claims no knowledge leaves a name behind that has not been looked up -/
theorem resolved_of_move {p q : Panel} {a : Action} (ha : a.isPlain = true)
    (h : ∀ f ∈ p.facets, f.Resolved s) (hm : Move s p a q) : ∀ f ∈ q.facets, f.Resolved s := by
  cases hm with
  | refused => exact h
  | quiet _ hq =>
    intro g hg
    obtain ⟨f, hf, hk, hs⟩ := exists_of_forall₂_right hq.forall₂ hg
    exact (h f hf).of_selection hk hs
  | loaded _ h n => exact resolved_loaded p h n
  | selected _ raw info n => exact resolved_turns (forall_putIn h (resolved_chosen _ raw ha))
  | deselected hf raw n => exact resolved_turns (forall_putIn h (resolved_deselect (h _ hf) raw))
  | cleared hf n => exact resolved_turns (forall_putIn h (resolved_clear _))
  | reset =>
    intro g hg
    obtain ⟨f, -, rfl⟩ := List.mem_map.1 hg
    exact resolved_clear f
  | refreshed except n => exact resolved_turns h
  | grouped hg n =>
    exact forall_membersTurned (fun f scope _ => f.resolved_refreshed s scope) _ h

/-! ## in time -/

/-- no name has another count because names behind it have not been looked up yet -/
def InTime (s : Store) (fs : List Facet) : Prop :=
  ∀ before f after, fs = before ++ f :: after → f.kind.isName = true → ∀ v ∈ f.values,
    (f.kind.finding s (scopeOf (before.map (Facet.lookedUp s) ++ f :: after) f.id) v).count =
      (f.kind.finding s (scopeOf (fs.map (Facet.lookedUp s)) f.id) v).count

theorem emptyWhenClosed_turn {f : Facet} (h : EmptyWhenClosed closed f) (scope : Scope) :
    EmptyWhenClosed closed (turn s closed [] scope f) := by
  have hst := steady_turn s closed [] scope f
  intro hc
  rw [hst.id_eq] at hc
  have hv : (turn s closed [] scope f).values = [] := by
    rw [hst.values, Facet.values, Selection.values, h hc]
    rfl
  exact List.map_eq_nil_iff.1 hv

/-- a round looks every name up -/
theorem alike_turns_lookedUp (rest : List Facet) : ∀ done : List Facet,
    (∀ f ∈ rest, EmptyWhenClosed closed f) →
    List.Forall₂ Facet.Alike (turns s closed [] done rest) (rest.map (Facet.lookedUp s)) := by
  induction rest with
  | nil => intro done _; exact .nil
  | cons f rest ih =>
    intro done he
    have hst := steady_turn s closed [] (scopeOf (done ++ f :: rest) f.id) f
    refine .cons (Facet.alike_lookedUp ?_ hst.kind hst.values)
      (ih _ fun g hg => he g (List.mem_cons_of_mem _ hg))
    exact resolved_turn_of_emptyWhenClosed (he f List.mem_cons_self) _

/-- a second turn shows the same counts when the first saw those of the second scope -/
theorem shownCounts_turn_turn_iff {f : Facet} (h : EmptyWhenClosed closed f) {a b a' b' : Scope}
    (ha : a.Alike a') (hb : b.Alike b') :
    (turn s closed [] b (turn s closed [] a f)).shownCounts =
        (turn s closed [] a f).shownCounts ↔
      (f.kind.isCountSensitive = true → ∀ v ∈ f.values,
        (f.kind.finding s a' v).count = (f.kind.finding s b' v).count) := by
  have hst := steady_turn s closed [] a f
  rw [shownCounts_turn (emptyWhenClosed_turn h a) b, hst.kind, hst.values]
  by_cases hk : f.kind.isCountSensitive = true
  · rw [if_pos hk, shownCounts_turn h a, if_pos hk, List.map_inj_left]
    have he : ∀ v, ((v, (f.kind.finding s b v).count) = (v, (f.kind.finding s a v).count)) ↔
        (f.kind.finding s a' v).count = (f.kind.finding s b' v).count := by
      intro v
      rw [← (f.kind.finding_congr hk s ha v).count, ← (f.kind.finding_congr hk s hb v).count,
        Prod.mk.injEq, eq_self_iff_true, true_and]
      exact eq_comm
    constructor
    · exact fun hm _ v hv => (he v).1 (hm v hv)
    · exact fun hm v hv => (he v).2 (hm hk v hv)
  · rw [if_neg hk]
    exact ⟨fun _ hk' => absurd hk' hk, fun _ => rfl⟩

/-- a second round shows the same counts when each turn of the first saw those of the scope that
the facets end up with -/
theorem shownCounts_turns_iff {fs : List Facet} (he : ∀ f ∈ fs, EmptyWhenClosed closed f) :
    (turns s closed [] [] (turns s closed [] [] fs)).map Facet.shownCounts =
        (turns s closed [] [] fs).map Facet.shownCounts ↔
      ∀ x ∈ scopesOnTurn s [] fs, x.1.kind.isCountSensitive = true → ∀ v ∈ x.1.values,
        (x.1.kind.finding s x.2 v).count =
          (x.1.kind.finding s (scopeOf (fs.map (Facet.lookedUp s)) x.1.id) v).count := by
  have h1 := turns_scopesOnTurn (s := s) fs [] [] .nil he
  have hlook := alike_turns_lookedUp (s := s) fs [] he
  have hres : ∀ g ∈ turns s closed [] [] fs, g.Resolved s := by
    intro g hg
    obtain ⟨f, hf, scope, rfl⟩ := exists_of_forall₂_right (turns_forall₂ s closed [] fs []) hg
    exact resolved_turn_of_emptyWhenClosed (he f hf) scope
  have h2 := turns_resolved s closed [] (turns s closed [] [] fs) [] hres
  rw [List.nil_append] at h2
  refine map_eq_map_iff_of_forall₂ ?_ h1 h2
  rintro ⟨f, scope⟩ g k ⟨hf, a, ha, rfl⟩ ⟨b, hb, rfl⟩
  have hid := (steady_turn s closed [] a f).id_eq
  rw [hid] at hb
  exact shownCounts_turn_turn_iff hf ha (hb.trans (scopeOf_congr hlook f.id))

/-! ## names come first -/

/-- behind a facet that is no name there is none -/
theorem isName_of_all {before after : List Facet} {f g : Facet}
    (hk : (before ++ f :: after).map (·.kind) = FacetKind.all) (hg : g ∈ after)
    (hn : g.kind.isName = true) : f.kind.isName = true := by
  have hp : FacetKind.all.Pairwise fun a b => b.isName = true → a.isName = true := by decide
  rw [← hk, List.map_append, List.map_cons, List.pairwise_append, List.pairwise_cons] at hp
  exact hp.2.1.1 _ (List.mem_map.2 ⟨g, hg, rfl⟩) hn

/-- so only names can have a turn under another scope than the last -/
theorem scopesOnTurn_iff_inTime {fs : List Facet} (hk : fs.map (·.kind) = FacetKind.all) :
    (∀ x ∈ scopesOnTurn s [] fs, x.1.kind.isCountSensitive = true → ∀ v ∈ x.1.values,
        (x.1.kind.finding s x.2 v).count =
          (x.1.kind.finding s (scopeOf (fs.map (Facet.lookedUp s)) x.1.id) v).count) ↔
      InTime s fs := by
  constructor
  · rintro h before f after rfl hn v hv
    exact h _ ((mem_scopesOnTurn _ _).2 ⟨before, f, after, rfl, rfl⟩)
      (FacetKind.isCountSensitive_of_isName hn) v hv
  · intro h x hx hc v hv
    obtain ⟨before, f, after, rfl, rfl⟩ := (mem_scopesOnTurn _ _).1 hx
    rw [List.nil_append]
    by_cases hn : f.kind.isName = true
    · exact h before f after rfl hn v hv
    · have hlate : List.Forall₂ Facet.Alike (f :: after) ((f :: after).map (Facet.lookedUp s)) := by
        rw [List.forall₂_map_right_iff, List.forall₂_same]
        intro g hg
        have hno : g.kind.isName ≠ true := by
          rcases List.mem_cons.1 hg with rfl | hg
          · exact hn
          · exact fun hgn => hn (isName_of_all hk hg hgn)
        exact ⟨rfl, (g.values_lookedUp s).symm, fun hgn => absurd hgn hno⟩
      have hsame : List.Forall₂ Facet.Alike (before.map (Facet.lookedUp s))
          (before.map (Facet.lookedUp s)) := List.forall₂_same.2 fun g _ => .refl g
      have ha : (scopeOf (before.map (Facet.lookedUp s) ++ f :: after) f.id).Alike
          (scopeOf (before.map (Facet.lookedUp s) ++ (f :: after).map (Facet.lookedUp s)) f.id) :=
        scopeOf_congr (List.rel_append hsame hlate) f.id
      rw [← List.map_append] at ha
      exact (f.kind.finding_congr hc s ha v).count

/-! ## deep links -/

/-- one of the three ways in has taken the selections from a history -/
inductive Loads (p : Panel) (h : History) : Origin → Panel → Prop where
  | start {t : Summary} {q : Panel} (hq : p.start h = some (t, q)) : Loads p h .deepLink q
  | appear {origin : Origin} {t : Summary} {q : Panel} (hq : p.appear h origin = some (t, q)) :
    Loads p h origin q
  | navigate {t : Summary} {q : Panel} (hq : p.navigate h = some (t, q)) : Loads p h .deepLink q

theorem Loads.eq_load {p q : Panel} {h : History} {origin : Origin} (hl : Loads p h origin q) :
    q = (p.load h origin).2 := by
  have hsome : ∀ {c : Prop} [Decidable c] {r : Summary × Panel} {t : Summary} {q : Panel},
      (if c then some r else none) = some (t, q) → q = r.2 := by
    intro c _ r t q hq
    split at hq
    · cases hq
      rfl
    · cases hq
  cases hl with
  | start hq => exact hsome hq
  | appear hq => exact hsome hq
  | navigate hq => exact hsome hq

/-- Asking again for all counts right after a load changes none of them exactly when no name was
counted before names behind it were looked up. -/
theorem counts_after_load_iff (config : Config) (s : Store) (tab : String) (as : List Action)
    {h : History} {origin : Origin} {q : Panel}
    (hl : Loads ((standard config { store := s } tab).run as) h origin q) :
    let p := (standard config { store := s } tab).run as
    (q.refreshAll []).2.facets.map Facet.shownCounts = q.facets.map Facet.shownCounts ↔
      InTime s (p.takingOver (p.asked h origin)).facets := by
  intro p
  obtain ⟨hp, hkinds⟩ := standard_run config s tab as
  obtain ⟨n, hload⟩ := load_eq hp h origin
  have hq : q = loaded s p (p.asked h origin) n := hl.eq_load.trans hload
  have hdistinct : Distinct (loaded s p (p.asked h origin) n).facets :=
    hp.distinct.of_kinds ((kinds_turns _ _ _ _).trans (kinds_takingOver p _))
  obtain ⟨t, m, hagain⟩ := refreshAll_eq (p := loaded s p (p.asked h origin) n) hp.answers
    hdistinct []
  rw [hq, hagain, ← scopesOnTurn_iff_inTime ((kinds_takingOver p _).trans hkinds),
    ← shownCounts_turns_iff (emptyWhenClosed_takingOver p _)]
  show (turns p.gateway.store _ _ _ _).map _ = _ ↔ _
  rw [hp.store]
  exact Iff.rfl

/-- a link to a baseline run and a run to compare it with -/
def comparisonLink : History :=
  ⟨[("tab", ["reports"]), ("run", ["alpha"]), ("newcheck", ["beta"])]⟩

theorem counts_after_load_iff_comparisonLink :
    ∃ q, Loads ((standard {} { store := twoRuns } "reports").run []) comparisonLink .deepLink q ∧
      let p := (standard {} { store := twoRuns } "reports").run []
      ((q.refreshAll []).2.facets.map Facet.shownCounts = q.facets.map Facet.shownCounts ↔
        InTime twoRuns (p.takingOver (p.asked comparisonLink .deepLink)).facets) :=
  ⟨_, .start rfl, counts_after_load_iff {} twoRuns "reports" [] (.start rfl)⟩

/-- The baseline run is counted while the other run still stands for no run at all. -/
theorem stale_after_comparisonLink :
    ∃ t q, (standard {} { store := twoRuns } "reports").start comparisonLink = some (t, q) ∧
      ((q.find? "run").map Facet.shownCounts = some [("alpha", some 0)] ∧
        ((q.refreshAll []).2.find? "run").map Facet.shownCounts = some [("alpha", some 1)]) ∧
      (q.refreshAll []).2.facets.map Facet.shownCounts ≠ q.facets.map Facet.shownCounts :=
  ⟨_, _, rfl, by decide +kernel, by decide +kernel⟩

end Panel
end Triage
