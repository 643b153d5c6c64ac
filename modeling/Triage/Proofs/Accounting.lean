import Triage.Proofs.Failures

/-!
# The account of a round

Whether the service answers or fails, a facet that asks it makes one call at its turn, and every
facet has one of three results.

* `Facet.refresh_spec`       a refresh makes one call, or none if there are no counts to ask for;
* `Panel.asks p except f`    the facet asks at its turn, and `Panel.turnResult` is what comes of it;
* `Facet.Turned`             what a turn may change of a facet, and what it must (`visit_spec`);
* `Panel.round_spec`         so the facets, the calls and the summary after any part of a round;
* `Panel.select_spec`        a selection asks once more before its round, or not at all;
* `Panel.round_accounted`    all this for a panel with no two facets of one kind.
-/

namespace Triage

open List (Forall₂)

/-- every facet with counts gets them with one call -/
theorem FacetKind.calls_of_countSensitive {k : FacetKind} (hk : k.isCountSensitive = true)
    (scope : Scope) : k.calls scope = 1 := by
  cases k with
  | run _ | runTag _ | reviewStatus | detectionStatus | severity | text _ | component => rfl
  | _ => cases hk

namespace Facet

variable {f g : Facet}

/-- what comes of asking for the counts of a facet -/
def refreshResult (f : Facet) (g : Gateway) : RefreshResult :=
  if f.hasCounts then if g.failure.isNone then .refreshed else .failed else .skipped

/-- the same facet with the same values, candidates and tickets; what is known about the values may
have changed, if they were refreshed -/
structure Recounted (r : RefreshResult) (f g : Facet) : Prop extends Steady f g where
  candidates : g.candidates = f.candidates
  tickets : g.tickets = f.tickets
  learned : g.selection ≠ f.selection → r = .refreshed

theorem Recounted.refl (r : RefreshResult) (f : Facet) : Recounted r f f :=
  ⟨.refl f, rfl, rfl, fun h => absurd rfl h⟩

theorem refresh_spec (f : Facet) (scope : Scope) (g : Gateway) :
    ∃ f', f.refresh scope g = (f.refreshResult g, f',
        { g with calls := g.calls + if f.hasCounts then 1 else 0 }) ∧
      Recounted (f.refreshResult g) f f' := by
  unfold refreshResult
  by_cases hc : f.hasCounts = true
  · have hk : f.kind.isCountSensitive = true := ((hasCounts_iff f).1 hc).1
    rw [if_pos hc, if_pos hc]
    by_cases hg : g.failure = none
    · have hanswers : g.failure.isNone = true := Option.isNone_iff_eq_none.2 hg
      rw [if_pos hanswers]
      refine ⟨f.refreshed g.store scope, ?_, f.steady_refreshed _ _, f.candidates_refreshed _ _,
        f.tickets_refreshed _ _, fun _ => rfl⟩
      rw [refresh_run f scope hg, FacetKind.calls_of_countSensitive hk, if_pos hc, if_pos hc]
    · obtain ⟨e, he⟩ := Option.ne_none_iff_exists'.1 hg
      rw [if_neg (mt Option.isNone_iff_eq_none.1 hg)]
      refine ⟨f, ?_, .refl _ f⟩
      unfold refresh
      rw [if_pos hc, FacetKind.offers_failing hk _ _ he]
      rfl
  · refine ⟨f, ?_, .refl _ f⟩
    unfold refresh
    rw [if_neg hc, if_neg hc, if_neg hc]
    rfl

/-! ## what a turn does -/

/-- the facet after its turn: fetches under way are superseded and candidates dropped, unless it is
excepted or has no counts -/
structure Turned (excepted : Bool) (r : RefreshResult) (f g : Facet) : Prop
    extends Steady f g where
  learned : g.selection ≠ f.selection → r = .refreshed
  dropped : excepted = false → f.kind.isCountSensitive = true → g.candidates = []
  superseded : excepted = false → f.kind.isCountSensitive = true →
    ∀ ticket ≤ f.tickets.latest, ∀ items, g.store? ticket items = none
  kept : excepted = true ∨ f.kind.isCountSensitive = false →
    g.candidates = f.candidates ∧ g.tickets = f.tickets

theorem Turned.excepted (r : RefreshResult) (f : Facet) : Turned true r f f :=
  ⟨.refl f, fun h => absurd rfl h, nofun, nofun, fun _ => ⟨rfl, rfl⟩⟩

/-- a facet that is forgotten and then perhaps counted again -/
theorem Turned.of_forget {r : RefreshResult} (h : Recounted r f.forget g) : Turned false r f g := by
  have hdropped (hk : f.kind.isCountSensitive = true) :
      f.forget = { f with candidates := [], tickets := f.tickets.advance } := if_pos hk
  refine ⟨f.steady_forget.trans h.toSteady, fun hne => h.learned ?_, fun _ hk => ?_, fun _ hk => ?_,
    fun hor => ?_⟩
  · rw [f.selection_forget]
    exact hne
  · rw [h.candidates, hdropped hk]
  · intro ticket hle items
    have hlate : g.tickets.isLatest ticket = false := by
      rw [h.tickets, hdropped hk]
      exact Tickets.not_isLatest_of_next hle
    rw [store?, hlate]
    rfl
  · have hk : f.kind.isCountSensitive = false := hor.resolve_left Bool.false_ne_true
    have hsame : f.forget = f := if_neg (by rw [hk]; decide)
    rw [h.candidates, h.tickets, hsame]
    exact ⟨rfl, rfl⟩

theorem hasCounts_forget (f : Facet) : f.forget.hasCounts = f.hasCounts := by
  rw [hasCounts, hasCounts, f.steady_forget.kind, f.selection_forget]

end Facet

namespace Panel

variable {p : Panel} {done rest : List Facet} {f : Facet}

/-- the facet asks the service at its turn -/
def asks (p : Panel) (except : List String) (f : Facet) : Bool :=
  !except.contains f.id && !p.inClosedGroup f.id && f.hasCounts

/-- what comes of its turn -/
def turnResult (p : Panel) (except : List String) (f : Facet) : RefreshResult :=
  if p.asks except f then if p.gateway.failure.isNone then .refreshed else .failed else .skipped

theorem refreshOne_spec (hd : Distinct p.facets) (hp : p.facets = done ++ f :: rest) :
    ∃ g, p.refreshOne f = (f.refreshResult p.gateway,
        p.withFacets (done ++ g :: rest) (if f.hasCounts then 1 else 0)) ∧
      Facet.Recounted (f.refreshResult p.gateway) f g := by
  obtain ⟨g, hr, hg⟩ := f.refresh_spec (p.scopeWithout f.id) p.gateway
  refine ⟨g, ?_, hg⟩
  have hput : (p.put g).facets = done ++ g :: rest := by
    rw [put_facets, hp]
    exact putIn_split (hp ▸ hd) hg.kind
  unfold refreshOne
  rw [hr]
  show (_, ({ p.put g with gateway := _ } : Panel)) = _
  rw [withFacets, ← hput]
  rfl

/-- one turn: one call if the facet asks, and none otherwise -/
theorem visit_spec (hd : Distinct p.facets) (hp : p.facets = done ++ f :: rest)
    (except : List String) :
    ∃ g, p.visit except f = (p.turnResult except f,
        p.withFacets (done ++ g :: rest) (if p.asks except f then 1 else 0)) ∧
      f.Turned (except.contains f.id) (p.turnResult except f) g := by
  unfold visit turnResult asks
  cases he : except.contains f.id with
  | true =>
    refine ⟨f, ?_, .excepted _ f⟩
    simp only [if_true, Bool.not_true, Bool.false_and, Bool.false_eq_true, if_false]
    rw [← hp, withFacets_self]
  | false =>
    have hput : (p.put f.forget).facets = done ++ f.forget :: rest := by
      rw [put_facets, hp]
      exact putIn_split (hp ▸ hd) f.steady_forget.kind
    simp only [Bool.false_eq_true, if_false, Bool.not_false, Bool.true_and]
    show ∃ g, (if p.inClosedGroup f.id = true then _ else _) = _ ∧ _
    cases hc : p.inClosedGroup f.id with
    | true =>
      -- in a collapsed group it is only forgotten
      refine ⟨f.forget, ?_, .of_forget (.refl _ _)⟩
      simp only [if_true, Bool.not_true, Bool.false_and, Bool.false_eq_true, if_false]
      rw [← hput]
      rfl
    | false =>
      -- otherwise its counts are asked for as well, with the same selection
      have hd' : Distinct (p.put f.forget).facets := hd.of_kinds (kinds_putIn _ _)
      obtain ⟨g, hr, hg⟩ := refreshOne_spec hd' hput
      simp only [Bool.false_eq_true, if_false, Bool.not_false, Bool.true_and]
      rw [Facet.refreshResult, f.hasCounts_forget] at hr hg
      exact ⟨g, hr, .of_forget hg⟩

/-! ## a round -/

/-- the summary of the turns of some facets -/
def tally (p : Panel) (except : List String) (fs : List Facet) (t : Summary) : Summary :=
  fs.foldl (fun t f => t.add (p.turnResult except f)) t

theorem Distinct.replaced {g : Facet} (hd : Distinct (done ++ f :: rest)) (hk : g.kind = f.kind) :
    Distinct (done ++ g :: rest) := by
  refine hd.of_kinds ?_
  rw [List.map_append, List.map_append, List.map_cons, List.map_cons, hk]

/-- what a part of a round comes to -/
theorem round_spec (except : List String) (seen rest : List Facet) : ∀ (done : List Facet)
    {p : Panel} (t : Summary), Distinct p.facets → p.facets = done ++ (seen ++ rest) →
    ∃ seen', Forall₂ (fun f g => f.Turned (except.contains f.id) (p.turnResult except f) g)
        seen seen' ∧
      round except seen t p = (p.tally except seen t,
        p.withFacets (done ++ (seen' ++ rest)) (seen.countP (p.asks except))) := by
  induction seen with
  | nil =>
    intro done p t _ hp
    refine ⟨[], .nil, ?_⟩
    rw [← hp, List.countP_nil, withFacets_self]
    rfl
  | cons f seen ih =>
    intro done p t hd hp
    rw [List.cons_append] at hp
    obtain ⟨g, hv, hg⟩ := visit_spec hd hp except
    have hd' : Distinct (done ++ g :: (seen ++ rest)) := (hp ▸ hd).replaced hg.kind
    obtain ⟨seen', hseen, hr⟩ := ih (done ++ [g])
      (p := p.withFacets (done ++ g :: (seen ++ rest)) (if p.asks except f then 1 else 0))
      (t.add (p.turnResult except f)) hd' (List.append_cons done g _)
    refine ⟨g :: seen', .cons hg hseen, ?_⟩
    rw [round, hv]
    dsimp only
    rw [hr, withFacets_withFacets, List.append_assoc, List.countP_cons, Nat.add_comm]
    rfl

section
variable (p : Panel) (except : List String)

theorem turnResult_of_not_asks (h : p.asks except f = false) :
    p.turnResult except f = .skipped := by
  rw [turnResult, h]
  rfl

theorem turnResult_of_asks (h : p.asks except f = true) :
    p.turnResult except f = if p.gateway.failure.isNone then .refreshed else .failed := by
  rw [turnResult, if_pos h]

theorem total_tally (fs : List Facet) : ∀ t : Summary,
    (p.tally except fs t).total = t.total + fs.length := by
  induction fs with
  | nil => exact fun t => rfl
  | cons f fs ih =>
    intro t
    rw [tally, List.foldl_cons, ← tally, ih, Summary.total_add, List.length_cons]
    omega

/-- as many facets are refreshed or fail as have asked, all of them alike -/
theorem asked_tally (fs : List Facet) : ∀ t : Summary,
    (p.tally except fs t).refreshed =
        t.refreshed + (if p.gateway.failure.isNone then fs.countP (p.asks except) else 0) ∧
      (p.tally except fs t).failed =
        t.failed + (if p.gateway.failure.isNone then 0 else fs.countP (p.asks except)) := by
  induction fs with
  | nil => intro t; split <;> exact ⟨rfl, rfl⟩
  | cons f fs ih =>
    intro t
    obtain ⟨hrefreshed, hfailed⟩ := ih (t.add (p.turnResult except f))
    rw [tally, List.foldl_cons, ← tally, hrefreshed, hfailed, List.countP_cons]
    cases ha : p.asks except f with
    | false =>
      rw [turnResult_of_not_asks p except ha]
      exact ⟨rfl, rfl⟩
    | true =>
      rw [turnResult_of_asks p except ha]
      split
      · exact ⟨by simp only [Summary.add, if_true]; omega, rfl⟩
      · exact ⟨rfl, by simp only [Summary.add, if_true]; omega⟩

end

/-! ## selecting -/

/-- a facet in the place of one of its kind that is excepted makes no other facet ask -/
theorem countP_asks_replaced (p : Panel) (done rest : List Facet) {id : String} {g : Facet}
    (hf : f.id = id) (hg : g.id = id) : (done ++ g :: rest).countP (p.asks [id]) =
      (done ++ f :: rest).countP (p.asks [id]) := by
  have hexcepted : ∀ {h : Facet}, h.id = id → p.asks [id] h = false := fun he => by
    rw [asks, he, List.contains_iff_mem.2 (List.mem_singleton_self id)]
    rfl
  simp only [List.countP_append, List.countP_cons, hexcepted hf, hexcepted hg]

/-- A selection puts the facet in its place and asks for it or not; then comes the round. -/
theorem select_spec (hd : Distinct p.facets) {id : String} (h : p.facet id = .ok f)
    (value : String) (info : ValueInfo) :
    ∃ g done rest,
      p.facets = done ++ f :: rest ∧ g.kind = f.kind ∧ g.values = (f.select value info).values ∧
      p.select id value info = .ok ((p.withFacets (done ++ g :: rest)
        (if info.isEmpty && (f.select value info).hasCounts then 1 else 0)).refreshAll [id]) := by
  obtain ⟨hf, -⟩ := facet_eq_ok h
  obtain ⟨done, rest, hp⟩ := List.append_of_mem hf
  have hkind := kind_select f value info
  have hput : (p.put (f.select value info)).facets = done ++ f.select value info :: rest := by
    rw [put_facets, hp]
    exact putIn_split (hp ▸ hd) hkind
  have hselect : p.select id value info = .ok ((if info.isEmpty &&
      (f.select value info).kind.isCountSensitive then
        ((p.put (f.select value info)).refreshOne (f.select value info)).2
      else p.put (f.select value info)).refreshAll [id]) := by
    rw [select, h]
    rfl
  rw [hselect]
  by_cases ha : (info.isEmpty && (f.select value info).kind.isCountSensitive) = true
  · have hd' : Distinct (p.put (f.select value info)).facets := hd.of_kinds (kinds_putIn _ _)
    obtain ⟨g, hr, hg⟩ := refreshOne_spec hd' hput
    refine ⟨g, done, rest, hp, hg.kind.trans hkind, hg.values, ?_⟩
    rw [if_pos ha, hr, ((Bool.and_eq_true _ _).mp ha).1, Bool.true_and]
    rfl
  · have hidle : (info.isEmpty && (f.select value info).hasCounts) = false := by
      rw [Facet.hasCounts, ← Bool.and_assoc, Bool.eq_false_iff.2 ha]
      rfl
    refine ⟨f.select value info, done, rest, hp, hkind, rfl, ?_⟩
    rw [if_neg ha, hidle, ← hput]
    rfl

/-! ## the account -/

/-- The account of a round: every facet is in the summary; those that asked are refreshed if the
service answers, and have failed otherwise, at one call each; nothing has changed but the history
and the facets, as their turns have left them. -/
structure Account (p : Panel) (except : List String) (t : Summary) (q : Panel) : Prop where
  total : t.total = p.facets.length
  asked : t.refreshed + t.failed = p.facets.countP (p.asks except)
  answered : p.gateway.failure = none → t.failed = 0
  unanswered : p.gateway.failure ≠ none → t.refreshed = 0
  facets : Forall₂ (fun f g => f.Turned (except.contains f.id) (p.turnResult except f) g)
    p.facets q.facets
  others : q = { p.withFacets q.facets (p.facets.countP (p.asks except)) with history := q.history }

theorem account_refreshAll (hd : Distinct p.facets) (except : List String) :
    p.Account except (p.refreshAll except).1 (p.refreshAll except).2 := by
  obtain ⟨facets, hturned, hr⟩ :=
    round_spec except p.facets [] [] {} hd (List.append_nil _).symm
  rw [List.nil_append, List.append_nil] at hr
  rw [refreshAll, hr]
  obtain ⟨hrefreshed, hfailed⟩ := p.asked_tally except p.facets {}
  refine ⟨?_, ?_, fun hg => ?_, fun hg => ?_, hturned, rfl⟩
  · exact (p.total_tally except p.facets {}).trans (Nat.zero_add _)
  · rw [hrefreshed, hfailed]
    split <;> simp only [Nat.zero_add, Nat.add_zero]
  · rw [hfailed, if_pos (Option.isNone_iff_eq_none.2 hg)]
  · rw [hrefreshed, if_neg (mt Option.isNone_iff_eq_none.1 hg)]

/-- Also part of the way through a round, as many calls have been made as facets have asked -/
theorem calls_of_prefix (hd : Distinct p.facets) (except : List String) {seen : List Facet}
    (h : seen <+: p.facets) :
    (round except seen {} p).2.gateway.calls =
      p.gateway.calls + seen.countP (p.asks except) := by
  obtain ⟨rest, hp⟩ := h
  obtain ⟨facets, -, hr⟩ := round_spec except seen rest [] {} hd hp.symm
  rw [hr]
  rfl

/-- No two facets of a standard panel are of one kind, whatever has been done with it
(`complete_standard`). -/
theorem round_accounted (hd : Distinct p.facets) :
    (∀ except : List String, p.Account except (p.refreshAll except).1 (p.refreshAll except).2 ∧
      ∀ seen, seen <+: p.facets → (round except seen {} p).2.gateway.calls =
        p.gateway.calls + seen.countP (p.asks except)) ∧
    (∀ id f value info, p.facet id = .ok f → ∃ g done rest p',
      p.facets = done ++ f :: rest ∧ g.kind = f.kind ∧
      g.values = (f.select value info).values ∧
      p' = p.withFacets (done ++ g :: rest)
        (if info.isEmpty && (f.select value info).hasCounts then 1 else 0) ∧
      p.select id value info = .ok (p'.refreshAll [id]) ∧
      p'.Account [id] (p'.refreshAll [id]).1 (p'.refreshAll [id]).2 ∧
      (p'.refreshAll [id]).2.gateway.calls =
        p'.gateway.calls + p.facets.countP (p.asks [id])) ∧
    (∀ id value info e, p.facet id = .error e → p.select id value info = .error e) ∧
    p.reset.gateway = p.gateway := by
  refine ⟨fun except => ⟨account_refreshAll hd except, fun seen => calls_of_prefix hd except⟩,
    fun id f value info h => ?_, fun id value info e h => ?_, rfl⟩
  · obtain ⟨g, done, rest, hp, hkind, hvalues, hselect⟩ := select_spec hd h value info
    have hd' : Distinct (done ++ g :: rest) := (hp ▸ hd).replaced hkind
    have hid : f.id = id := (facet_eq_ok h).2
    have hround := account_refreshAll (p := p.withFacets (done ++ g :: rest)
      (if info.isEmpty && (f.select value info).hasCounts then 1 else 0)) hd' [id]
    refine ⟨g, done, rest, _, hp, hkind, hvalues, rfl, hselect, hround, ?_⟩
    have hcalls := p.countP_asks_replaced done rest hid ((congrArg FacetKind.id hkind).trans hid)
    rw [hround.others, hp, ← hcalls]
    rfl
  · rw [select, h]
    rfl

/-- a run, a severity and a run to compare with chosen on a standard panel, whose group of the
comparison is collapsed, before the service fails -/
def threeChoices : List Operation :=
  [.request (.select "run" "alpha" {}), .request (.select "severity" "low" {}),
    .request (.select "newcheck" "beta" {}), .service late]

/-- the run does not ask as it is excepted, and neither does the collapsed one -/
theorem round_accounted_threeChoices :
    let p := (standard {} { store := twoRuns } "reports").applyAll threeChoices
    Distinct p.facets ∧
      (p.refreshAll ["run"]).1 = ⟨0, 16, 1⟩ ∧
      (p.refreshAll ["run"]).2.gateway.calls = p.gateway.calls + 1 ∧
      ∃ p' : Panel, p.select "run" "beta" {} = .ok (p'.refreshAll ["run"]) ∧
        p'.gateway.calls = p.gateway.calls + 1 := by
  intro p
  have hd : Distinct p.facets := (complete_standard {} { store := twoRuns } "reports" _).distinct
  have hasks : p.facets.countP (p.asks ["run"]) = 1 := by decide +kernel
  have hfailure : p.gateway.failure ≠ none := by decide +kernel
  have hlength : p.facets.length = 17 := by decide +kernel
  have hrun : (p.find? "run").map (fun f => (f.select "beta" {}).hasCounts) = some true := by
    decide +kernel
  obtain ⟨f, hf, hcounts⟩ := Option.map_eq_some_iff.1 hrun
  have hfacet : p.facet "run" = .ok f := by rw [facet, hf]
  obtain ⟨hround, hselect, -⟩ := round_accounted hd
  obtain ⟨htotal, hasked, -, hunanswered, -, hothers⟩ := (hround ["run"]).1
  obtain ⟨g, done, rest, p', -, -, -, hp', hok, -⟩ := hselect "run" f "beta" {} hfacet
  refine ⟨hd, ?_, ?_, p', hok, ?_⟩
  · have hnone := hunanswered hfailure
    rw [hnone, hasks, Nat.zero_add] at hasked
    rw [Summary.total, hnone, hasked, hlength] at htotal
    have hskipped : (p.refreshAll ["run"]).1.skipped = 16 := by omega
    rw [← hnone, ← hskipped, ← hasked]
  · rw [hothers, ← hasks]
    rfl
  · rw [hp', hcounts]
    rfl

end Panel

end Triage
