import Triage.Panel.Items
import Triage.Panel.Standard
import Triage.Proofs.Rounds

/-!
# Runs of a panel

* `Action`               one request to a panel, and `Panel.perform` the panel after it;
* `Panel.run`            the panel after a list of requests;
* `Panel.Serving s p`    the panel has no two facets of one kind, and its service answers from the
                         store `s`;
* `Panel.Quiet p q`      the same selections, groups, phase and history;
* `Panel.Move s p a q`   everything that a request can do to a serving panel (`move_perform`): it is
                         refused or quiet, changes one facet and makes a round, makes a round, takes
                         all selections from a history, clears them, or changes a group;
* `Panel.Kept p q`       what no request changes (`kept_of_move`, `kept_run`);
* `run_induction`        what every move keeps, a run keeps.
-/

namespace Triage

inductive Action where
  | start (h : History)
  | appear (h : History) (origin : Origin)
  | navigate (h : History)
  | select (id value : String) (info : ValueInfo)
  | deselect (id value : String)
  | clear (id : String)
  | reset
  | setExpanded (name : String) (expanded : Bool)
  | refreshAll (except : List String)
  | candidatesFor (id : String) (r : ItemsRequest)
  | typeText (id text : String) (now : Nat)
  | runSearches (now : Nat)
deriving DecidableEq, Repr

namespace Action

/-- takes the selections from a history -/
def isLoading : Action → Bool
  | start _ | appear _ _ | navigate _ => true
  | _ => false

/-- touches no selection and no count -/
def isQuiet : Action → Bool
  | candidatesFor _ _ | typeText _ _ _ | runSearches _ => true
  | _ => false

/-- claims no knowledge about a value -/
def isPlain : Action → Bool
  | select _ _ info => info.isEmpty
  | _ => true

end Action

namespace Panel

/-- the panel after a request that may be refused -/
def accepted (p : Panel) : Except Refusal (Summary × Panel) → Panel
  | .ok (_, q) => q
  | .error _ => p

/-- the panel after a load that may not be called for -/
def loadedOr (p : Panel) : Option (Summary × Panel) → Panel
  | some (_, q) => q
  | none => p

def perform (p : Panel) : Action → Panel
  | .start h => p.loadedOr (p.start h)
  | .appear h origin => p.loadedOr (p.appear h origin)
  | .navigate h => p.loadedOr (p.navigate h)
  | .select id value info => p.accepted (p.select id value info)
  | .deselect id value => p.accepted (p.deselect id value)
  | .clear id => p.accepted (p.clear id)
  | .reset => p.reset
  | .setExpanded name expanded => p.accepted (p.setExpanded name expanded)
  | .refreshAll except => (p.refreshAll except).2
  | .candidatesFor id r => (p.candidatesFor id r).2
  | .typeText id text now => (p.typeText id text now).toOption.getD p
  | .runSearches now => (p.runSearches now).2

def run (p : Panel) (as : List Action) : Panel := as.foldl perform p

theorem run_cons (p : Panel) (a : Action) (as : List Action) :
    p.run (a :: as) = (p.perform a).run as := rfl

/-- no two facets of one kind, and a service that answers from one store -/
structure Serving (s : Store) (p : Panel) : Prop where
  distinct : Distinct p.facets
  store : p.gateway.store = s
  answers : p.gateway.failure = none

theorem serving_standard (config : Config) (s : Store) (tab : String) :
    (standard config { store := s } tab).Serving s := by
  refine ⟨?_, rfl, rfl⟩
  show ((FacetKind.all.map fun k => Facet.make k config.searchDebounceMs).map (·.kind)).Nodup
  rw [List.map_map]
  show (FacetKind.all.map fun k => k).Nodup
  rw [List.map_id']
  decide

/-! ## what a request leaves alone -/

/-- what no request changes -/
structure Kept (p q : Panel) : Prop where
  config : q.config = p.config
  tab : q.tab = p.tab
  kinds : q.facets.map (·.kind) = p.facets.map (·.kind)
  store : q.gateway.store = p.gateway.store
  failure : q.gateway.failure = p.gateway.failure

namespace Kept

theorem refl (p : Panel) : p.Kept p := ⟨rfl, rfl, rfl, rfl, rfl⟩

theorem trans {p q r : Panel} (h : p.Kept q) (k : q.Kept r) : p.Kept r :=
  ⟨k.config.trans h.config, k.tab.trans h.tab, k.kinds.trans h.kinds, k.store.trans h.store,
    k.failure.trans h.failure⟩

theorem serving {s : Store} {p q : Panel} (h : p.Kept q) (k : p.Serving s) : q.Serving s :=
  ⟨k.distinct.of_kinds h.kinds, h.store.trans k.store, h.failure.trans k.answers⟩

end Kept

/-- the kind and the selection of a facet -/
def core (f : Facet) : FacetKind × Selection := (f.kind, f.selection)

/-- the same selections, groups, phase and history: only candidates, tickets, search boxes and the
number of calls may differ -/
structure Quiet (p q : Panel) : Prop extends Kept p q where
  cores : q.facets.map core = p.facets.map core
  groups : q.groups = p.groups
  phase : q.phase = p.phase
  history : q.history = p.history

namespace Quiet

theorem refl (p : Panel) : p.Quiet p := ⟨.refl p, rfl, rfl, rfl, rfl⟩

theorem trans {p q r : Panel} (h : p.Quiet q) (k : q.Quiet r) : p.Quiet r :=
  ⟨h.toKept.trans k.toKept, k.cores.trans h.cores, k.groups.trans h.groups,
    k.phase.trans h.phase, k.history.trans h.history⟩

/-- a facet replaced by one with the same selection, and calls made -/
theorem of_facets {p q : Panel} (hc : q.facets.map core = p.facets.map core)
    (hr : ∃ n, q = p.withFacets q.facets n) : p.Quiet q := by
  obtain ⟨n, hq⟩ := hr
  have hk : q.facets.map (·.kind) = p.facets.map (·.kind) := by
    have e := congrArg (List.map Prod.fst) hc
    rw [List.map_map, List.map_map] at e
    exact e
  rw [hq] at hc hk ⊢
  exact ⟨⟨rfl, rfl, hk, rfl, rfl⟩, hc, rfl, rfl, rfl⟩

theorem forall₂ {p q : Panel} (h : p.Quiet q) :
    List.Forall₂ (fun f g : Facet => g.kind = f.kind ∧ g.selection = f.selection)
      p.facets q.facets := by
  have e : List.Forall₂ Eq (p.facets.map core) (q.facets.map core) := by
    rw [h.cores]
    exact List.forall₂_same.2 fun _ _ => rfl
  rw [List.forall₂_map_left_iff, List.forall₂_map_right_iff] at e
  exact e.imp fun _ _ k => ⟨(congrArg Prod.fst k).symm, (congrArg Prod.snd k).symm⟩

end Quiet

/-- a facet replaced by one that reads the same -/
theorem map_putIn {α : Type} (read : Facet → α) {f g : Facet} {fs : List Facet} (hd : Distinct fs)
    (hf : f ∈ fs) (hk : g.kind = f.kind) (h : read g = read f) :
    (putIn g fs).map read = fs.map read := by
  obtain ⟨before, after, rfl⟩ := List.append_of_mem hf
  rw [putIn_split hd hk, List.map_append, List.map_append, List.map_cons, List.map_cons, h]

theorem facet_eq_ok {p : Panel} {id : String} {f : Facet} (h : p.facet id = .ok f) :
    f ∈ p.facets ∧ f.id = id := by
  unfold facet at h
  split at h
  · next g hg =>
    cases h
    exact ⟨List.mem_of_find?_eq_some hg, by simpa using List.find?_some hg⟩
  · cases h

/-! ## fetches and searches -/

theorem quiet_put {p : Panel} {f g : Facet} (hd : Distinct p.facets) (hf : f ∈ p.facets)
    (h : core g = core f) : p.Quiet (p.put g) :=
  .of_facets (map_putIn core hd hf (congrArg Prod.fst h) h) ⟨0, rfl⟩

theorem openFetch_eq_ok {p q : Panel} {id : String} {r : ItemsRequest} {fetch : Pending}
    (h : p.openFetch id r = .ok (fetch, q)) :
    ∃ f ∈ p.facets, f.id = id ∧
      fetch = ⟨f.kind, f.tickets.latest + 1, scopeOf p.facets f.id, r⟩ ∧
      q = p.put { f with tickets := f.tickets.advance } := by
  unfold openFetch at h
  cases hf : p.facet id with
  | error e => rw [hf] at h; cases h
  | ok f =>
    obtain ⟨hm, rfl⟩ := facet_eq_ok hf
    rw [hf] at h
    cases h
    exact ⟨f, hm, rfl, rfl, rfl⟩

theorem runFetch_eq {p : Panel} (ha : p.gateway.failure = none) (fetch : Pending) :
    ∃ n, p.runFetch fetch =
      (.ok (fetch.kind.answer p.gateway.store fetch.scope fetch.request),
        p.withFacets p.facets n) := by
  refine ⟨fetch.kind.calls fetch.scope, ?_⟩
  rw [runFetch, FacetKind.offers_run _ _ _ ha]
  rfl

theorem closeFetch_eq_ok {p q : Panel} {fetch : Pending}
    {answer : Except GatewayError (List Candidate)} {items : List Candidate}
    (h : p.closeFetch fetch answer = .ok (items, q)) :
    ∃ f ∈ p.facets, f.id = fetch.kind.id ∧ answer = .ok items ∧
      f.tickets.latest = fetch.ticket ∧ q = p.put { f with candidates := items } := by
  unfold closeFetch at h
  cases hf : p.facet fetch.kind.id with
  | error e => rw [hf] at h; cases h
  | ok f =>
    obtain ⟨hm, hid⟩ := facet_eq_ok hf
    rw [hf] at h
    cases answer with
    | error e => cases h
    | ok found =>
      cases ht : f.tickets.isLatest fetch.ticket with
      | false =>
        have hs : f.store? fetch.ticket found = none := by rw [Facet.store?, ht]; rfl
        simp only [bind, Except.bind, hs] at h
        cases h
      | true =>
        have hs : f.store? fetch.ticket found = some { f with candidates := found } := by
          rw [Facet.store?, ht]; rfl
        simp only [bind, Except.bind, hs] at h
        cases h
        exact ⟨f, hm, hid, rfl, by simpa [Tickets.isLatest] using ht, rfl⟩

theorem quiet_openFetch {p q : Panel} {id : String} {r : ItemsRequest} {fetch : Pending}
    (hd : Distinct p.facets) (h : p.openFetch id r = .ok (fetch, q)) : p.Quiet q := by
  obtain ⟨f, hf, -, -, rfl⟩ := openFetch_eq_ok h
  exact quiet_put hd hf rfl

/-- asking for candidates changes the number of calls and nothing else -/
theorem runFetch_snd (p : Panel) (fetch : Pending) :
    ∃ n, (p.runFetch fetch).2 = p.withFacets p.facets n := by
  obtain ⟨n, h⟩ := fetch.kind.onlyCounts_offers fetch.scope fetch.request p.gateway
  exact ⟨n, congrArg (fun g => ({ p with gateway := g } : Panel)) h⟩

theorem quiet_runFetch (p : Panel) (fetch : Pending) : p.Quiet (p.runFetch fetch).2 := by
  obtain ⟨n, h⟩ := runFetch_snd p fetch
  rw [h]
  exact .of_facets rfl ⟨n, rfl⟩

theorem quiet_closeFetch {p q : Panel} {fetch : Pending}
    {answer : Except GatewayError (List Candidate)} {items : List Candidate}
    (hd : Distinct p.facets) (h : p.closeFetch fetch answer = .ok (items, q)) : p.Quiet q := by
  obtain ⟨f, hf, -, -, -, rfl⟩ := closeFetch_eq_ok h
  exact quiet_put hd hf rfl

theorem Quiet.distinct {p q : Panel} (h : p.Quiet q) (hd : Distinct p.facets) :
    Distinct q.facets := hd.of_kinds h.kinds

theorem quiet_candidatesFor {p : Panel} (hd : Distinct p.facets) (id : String)
    (r : ItemsRequest) : p.Quiet (p.candidatesFor id r).2 := by
  unfold candidatesFor
  cases ho : p.openFetch id r with
  | error e => exact .refl p
  | ok opened =>
    obtain ⟨fetch, q⟩ := opened
    have hr := (quiet_openFetch hd ho).trans (quiet_runFetch q fetch)
    dsimp only
    cases hc : (q.runFetch fetch).2.closeFetch fetch (q.runFetch fetch).1 with
    | error e => exact hr
    | ok closed => exact hr.trans (quiet_closeFetch (hr.distinct hd) hc)

theorem quiet_typeText {p q : Panel} {id text : String} {now : Nat} (hd : Distinct p.facets)
    (h : p.typeText id text now = .ok q) : p.Quiet q := by
  unfold typeText at h
  cases hf : p.facet id with
  | error e => rw [hf] at h; cases h
  | ok f =>
    obtain ⟨hm, -⟩ := facet_eq_ok hf
    rw [hf] at h
    cases hs : f.search with
    | none => simp only [bind, Except.bind, hs] at h; cases h
    | some box =>
      simp only [bind, Except.bind, hs] at h
      cases h
      exact quiet_put hd hm rfl

theorem quiet_fetchEach (page : Page) (searches : List (String × String)) :
    ∀ {p : Panel}, Distinct p.facets → p.Quiet (fetchEach page searches p).2 := by
  induction searches with
  | nil => intro p _; exact .refl p
  | cons search rest ih =>
    intro p hd
    obtain ⟨id, text⟩ := search
    have h := quiet_candidatesFor hd id (.ofText text page)
    exact h.trans (ih (h.distinct hd))

theorem quiet_takeSearch (p : Panel) (now : Nat) :
    p.Quiet { p with facets := p.facets.map (takeSearch now) } := by
  refine .of_facets ?_ ⟨0, rfl⟩
  show List.map core (p.facets.map (takeSearch now)) = _
  rw [List.map_map]
  rfl

theorem quiet_runSearches {p : Panel} (hd : Distinct p.facets) (now : Nat) :
    p.Quiet (p.runSearches now).2 := by
  have h := quiet_takeSearch p now
  exact h.trans (quiet_fetchEach _ _ (h.distinct hd))

variable {s : Store}

/-! ## changing one facet -/

theorem putIn_putIn {g h : Facet} (hk : g.kind = h.kind) (fs : List Facet) :
    putIn h (putIn g fs) = putIn h fs := by
  rw [putIn, putIn, putIn, List.map_map]
  refine List.map_congr_left fun f _ => ?_
  show (if (if f.kind = g.kind then g else f).kind = h.kind then h else _) = _
  by_cases e : f.kind = g.kind
  · rw [if_pos e, if_pos hk, if_pos (e.trans hk)]
  · rw [if_neg e]

/-- one facet changed, and a round over the others -/
def changed (s : Store) (p : Panel) (g : Facet) (n : Nat) : Panel :=
  (p.withFacets (turns s p.inClosedGroup [g.id] [] (putIn g p.facets)) n).writeHistory

theorem put_refreshAll {p : Panel} (hp : p.Serving s) (g : Facet) (m : Nat) :
    ∃ n, ((p.withFacets (putIn g p.facets) m).refreshAll [g.id]).2 = changed s p g n := by
  obtain ⟨t, n, h⟩ := refreshAll_eq (p := p.withFacets (putIn g p.facets) m) hp.answers
    (hp.distinct.of_kinds (kinds_putIn g _)) [g.id]
  refine ⟨m + n, ?_⟩
  rw [h]
  show (((p.withFacets _ m).withFacets (turns p.gateway.store _ _ _ _) n).writeHistory) = _
  rw [withFacets_withFacets, hp.store]
  rfl

/-- a facet with one more value: its own counts are asked for when nothing is known about it -/
def chosen (s : Store) (scope : Scope) (f : Facet) (raw : String) (info : ValueInfo) : Facet :=
  if info.isEmpty && f.kind.isCountSensitive then (f.select raw info).refreshed s scope
  else f.select raw info

theorem kind_select (f : Facet) (raw : String) (info : ValueInfo) :
    (f.select raw info).kind = f.kind := by
  unfold Facet.select
  split <;> rfl

theorem kind_chosen (scope : Scope) (f : Facet) (raw : String) (info : ValueInfo) :
    (chosen s scope f raw info).kind = f.kind := by
  unfold chosen
  split
  · exact ((f.select raw info).steady_refreshed s scope).kind.trans (kind_select f raw info)
  · exact kind_select f raw info

/-- the panel of the round after a selection -/
theorem put_chosen {p : Panel} (hp : p.Serving s) (f : Facet) (raw : String) (info : ValueInfo) :
    ∃ n, (if (info.isEmpty && f.kind.isCountSensitive) = true
      then ((p.put (f.select raw info)).refreshOne (f.select raw info)).2
      else p.put (f.select raw info)) =
      p.withFacets (putIn (chosen s (scopeOf p.facets f.id) f raw info) p.facets) n := by
  have hid : (f.select raw info).id = f.id := congrArg FacetKind.id (kind_select f raw info)
  unfold chosen
  by_cases he : (info.isEmpty && f.kind.isCountSensitive) = true
  · obtain ⟨outcome, n, hr⟩ := refreshOne_eq (p := p.put (f.select raw info))
      (f := f.select raw info) hp.answers
    refine ⟨n, ?_⟩
    rw [if_pos he, if_pos he, hr, put_facets, scopeOf_putIn, hid,
      putIn_putIn ((f.select raw info).steady_refreshed _ _).kind.symm]
    show (p.withFacets _ 0).withFacets _ n = _
    rw [withFacets_withFacets, Nat.zero_add, ← hp.store]
    rfl
  · rw [if_neg he, if_neg he]
    exact ⟨0, rfl⟩

theorem select_eq_ok {p q : Panel} {id raw : String} {info : ValueInfo} {t : Summary}
    (hp : p.Serving s) (h : p.select id raw info = .ok (t, q)) :
    ∃ f ∈ p.facets, f.id = id ∧
      ∃ n, q = changed s p (chosen s (scopeOf p.facets f.id) f raw info) n := by
  unfold select at h
  cases hf : p.facet id with
  | error e => rw [hf] at h; cases h
  | ok f =>
    obtain ⟨hm, rfl⟩ := facet_eq_ok hf
    rw [hf] at h
    refine ⟨f, hm, rfl, ?_⟩
    obtain ⟨m, hput⟩ := put_chosen hp f raw info
    obtain ⟨n, hn⟩ := put_refreshAll hp (chosen s (scopeOf p.facets f.id) f raw info) m
    have hid : (chosen s (scopeOf p.facets f.id) f raw info).id = f.id :=
      congrArg FacetKind.id (kind_chosen _ f raw info)
    rw [← kind_select f raw info] at hput
    refine ⟨n, ?_⟩
    rw [← hn, ← hput, hid]
    exact (congrArg Prod.snd (Except.ok.inj h)).symm

theorem deselect_eq_ok {p q : Panel} {id raw : String} {t : Summary} (hp : p.Serving s)
    (h : p.deselect id raw = .ok (t, q)) :
    ∃ f ∈ p.facets, f.id = id ∧ ∃ n, q = changed s p (f.deselect raw) n := by
  unfold deselect at h
  cases hf : p.facet id with
  | error e => rw [hf] at h; cases h
  | ok f =>
    obtain ⟨hm, rfl⟩ := facet_eq_ok hf
    rw [hf] at h
    obtain ⟨n, hn⟩ := put_refreshAll hp (f.deselect raw) 0
    exact ⟨f, hm, rfl, n, (congrArg Prod.snd (Except.ok.inj h)).symm.trans hn⟩

theorem clear_eq_ok {p q : Panel} {id : String} {t : Summary} (hp : p.Serving s)
    (h : p.clear id = .ok (t, q)) :
    ∃ f ∈ p.facets, f.id = id ∧ ∃ n, q = changed s p f.clear n := by
  unfold clear at h
  cases hf : p.facet id with
  | error e => rw [hf] at h; cases h
  | ok f =>
    obtain ⟨hm, rfl⟩ := facet_eq_ok hf
    rw [hf] at h
    obtain ⟨n, hn⟩ := put_refreshAll hp f.clear 0
    exact ⟨f, hm, rfl, n, (congrArg Prod.snd (Except.ok.inj h)).symm.trans hn⟩

/-! ## loading -/

/-- the facets with the selections of a history, and the groups that hold one opened -/
def takingOver (p : Panel) (h : History) : Panel :=
  openActive { p with facets := p.facets.map fun f => f.load h }

/-- the panel after a load -/
def loaded (s : Store) (p : Panel) (h : History) (n : Nat) : Panel :=
  { ((p.takingOver h).withFacets
      (turns s (p.takingOver h).inClosedGroup [] [] (p.takingOver h).facets) n).writeHistory with
    phase := .ready }

theorem kinds_takingOver (p : Panel) (h : History) :
    (p.takingOver h).facets.map (·.kind) = p.facets.map (·.kind) := by
  show (p.facets.map fun f => f.load h).map (·.kind) = _
  rw [List.map_map]
  rfl

/-- the history that a load takes the selections from: the defaults come in the first time -/
def asked (p : Panel) (h : History) (origin : Origin) : History :=
  if p.phase = .uninitialized ∧ origin = .userNavigation then p.withDefaults h else h

theorem load_eq {p : Panel} (hp : p.Serving s) (h : History) (origin : Origin) :
    ∃ n, (p.load h origin).2 = loaded s p (p.asked h origin) n := by
  obtain ⟨t, n, hr⟩ := refreshAll_eq (p := p.takingOver (p.asked h origin)) hp.answers
    (hp.distinct.of_kinds (kinds_takingOver p _)) []
  refine ⟨n, ?_⟩
  rw [load]
  show { (refreshAll (p.takingOver (p.asked h origin)) []).2 with phase := Phase.ready } = _
  rw [hr, loaded, ← hp.store]
  rfl

/-! ## groups -/

/-- the members of a group asked for their counts, one after the other -/
def membersTurned (s : Store) : List String → List Facet → List Facet
  | [], fs => fs
  | m :: ms, fs =>
    match fs.find? (·.id == m) with
    | some f => membersTurned s ms (putIn (f.refreshed s (scopeOf fs f.id)) fs)
    | none => membersTurned s ms fs

theorem refreshMembers_eq_ok (ms : List String) :
    ∀ {p q : Panel} {t t' : Summary}, p.Serving s → refreshMembers ms t p = .ok (t', q) →
      ∃ n, q = p.withFacets (membersTurned s ms p.facets) n := by
  induction ms with
  | nil =>
    intro p q t t' _ h
    cases h
    exact ⟨0, rfl⟩
  | cons m ms ih =>
    intro p q t t' hp h
    unfold refreshMembers at h
    unfold facet find? at h
    rw [membersTurned]
    cases hf : p.facets.find? (·.id == m) with
    | none => rw [hf] at h; cases h
    | some f =>
      rw [hf] at h
      obtain ⟨outcome, n, hr⟩ := refreshOne_eq (p := p) (f := f) hp.answers
      simp only [bind, Except.bind, hr] at h
      have hk : (p.withFacets (putIn (f.refreshed p.gateway.store (scopeOf p.facets f.id))
          p.facets) n).Serving s := ⟨hp.distinct.of_kinds (kinds_putIn _ _), hp.store, hp.answers⟩
      obtain ⟨n', hq⟩ := ih hk h
      refine ⟨n + n', ?_⟩
      rw [hq, withFacets_withFacets, hp.store]
      rfl

/-- the members that a group change asks for their counts: those of a group that opens -/
def opening (p : Panel) (old : Group) (expanded : Bool) : List String :=
  if expanded && !old.expanded && p.phase == .ready then old.members else []

theorem setExpanded_eq_ok {p q : Panel} {name : String} {expanded : Bool} {t : Summary}
    (hp : p.Serving s) (h : p.setExpanded name expanded = .ok (t, q)) :
    ∃ old groups n, setFirst name expanded p.groups = some (old, groups) ∧
      q = { p.withFacets (membersTurned s (p.opening old expanded) p.facets) n with groups } := by
  unfold setExpanded at h
  cases hg : setFirst name expanded p.groups with
  | none => rw [hg] at h; cases h
  | some found =>
    obtain ⟨old, groups⟩ := found
    rw [hg] at h
    dsimp only at h
    have hs : ({ p with groups } : Panel).Serving s := ⟨hp.distinct, hp.store, hp.answers⟩
    by_cases he : (expanded && !old.expanded && p.phase == .ready) = true
    · have ho : p.opening old expanded = old.members := if_pos he
      rw [if_pos he] at h
      obtain ⟨n, hq⟩ := refreshMembers_eq_ok old.members hs h
      exact ⟨old, groups, n, rfl, ho ▸ hq⟩
    · have ho : p.opening old expanded = [] := if_neg he
      rw [if_neg he] at h
      cases h
      exact ⟨old, groups, 0, rfl, ho ▸ rfl⟩

/-! ## everything that a request can do -/

inductive Move (s : Store) (p : Panel) : Action → Panel → Prop where
  | refused (a : Action) : Move s p a p
  | quiet {a : Action} {q : Panel} (ha : a.isQuiet = true) (h : p.Quiet q) : Move s p a q
  | loaded {a : Action} (ha : a.isLoading = true) (h : History) (n : Nat) :
    Move s p a (p.loaded s h n)
  | selected {f : Facet} (hf : f ∈ p.facets) (raw : String) (info : ValueInfo) (n : Nat) :
    Move s p (.select f.id raw info)
      (changed s p (chosen s (scopeOf p.facets f.id) f raw info) n)
  | deselected {f : Facet} (hf : f ∈ p.facets) (raw : String) (n : Nat) :
    Move s p (.deselect f.id raw) (changed s p (f.deselect raw) n)
  | cleared {f : Facet} (hf : f ∈ p.facets) (n : Nat) :
    Move s p (.clear f.id) (changed s p f.clear n)
  | reset : Move s p .reset p.reset
  | refreshed (except : List String) (n : Nat) :
    Move s p (.refreshAll except)
      (p.withFacets (turns s p.inClosedGroup except [] p.facets) n).writeHistory
  | grouped {name : String} {expanded : Bool} {old : Group} {groups : List Group}
    (hg : setFirst name expanded p.groups = some (old, groups)) (n : Nat) :
    Move s p (.setExpanded name expanded)
      { p.withFacets (membersTurned s (p.opening old expanded) p.facets) n with groups }

theorem move_load {p : Panel} (hp : p.Serving s) {a : Action} (ha : a.isLoading = true)
    (h : History) (origin : Origin) : Move s p a (p.load h origin).2 := by
  obtain ⟨n, hl⟩ := load_eq hp h origin
  rw [hl]
  exact .loaded ha _ n

theorem move_perform {p : Panel} (hp : p.Serving s) (a : Action) : Move s p a (p.perform a) := by
  cases a with
  | start h =>
    show Move s p _ (p.loadedOr (p.start h))
    unfold start
    split
    · exact move_load hp rfl h .deepLink
    · exact .refused _
  | appear h origin =>
    show Move s p _ (p.loadedOr (p.appear h origin))
    unfold appear
    split
    · exact move_load hp rfl h origin
    · exact .refused _
  | navigate h =>
    show Move s p _ (p.loadedOr (p.navigate h))
    unfold navigate
    split
    · exact move_load hp rfl h .deepLink
    · exact .refused _
  | select id raw info =>
    show Move s p _ (p.accepted (p.select id raw info))
    cases h : p.select id raw info with
    | error e => exact .refused _
    | ok r =>
      obtain ⟨f, hf, rfl, n, hq⟩ := select_eq_ok hp h
      show Move s p _ r.2
      rw [hq]
      exact .selected hf raw info n
  | deselect id raw =>
    show Move s p _ (p.accepted (p.deselect id raw))
    cases h : p.deselect id raw with
    | error e => exact .refused _
    | ok r =>
      obtain ⟨f, hf, rfl, n, hq⟩ := deselect_eq_ok hp h
      show Move s p _ r.2
      rw [hq]
      exact .deselected hf raw n
  | clear id =>
    show Move s p _ (p.accepted (p.clear id))
    cases h : p.clear id with
    | error e => exact .refused _
    | ok r =>
      obtain ⟨f, hf, rfl, n, hq⟩ := clear_eq_ok hp h
      show Move s p _ r.2
      rw [hq]
      exact .cleared hf n
  | reset => exact .reset
  | setExpanded name expanded =>
    show Move s p _ (p.accepted (p.setExpanded name expanded))
    cases h : p.setExpanded name expanded with
    | error e => exact .refused _
    | ok r =>
      obtain ⟨old, groups, n, hg, hq⟩ := setExpanded_eq_ok hp h
      show Move s p _ r.2
      rw [hq]
      exact .grouped hg n
  | refreshAll except =>
    obtain ⟨t, n, h⟩ := refreshAll_eq hp.answers hp.distinct except
    show Move s p _ (p.refreshAll except).2
    rw [h, hp.store]
    exact .refreshed except n
  | candidatesFor id r => exact .quiet rfl (quiet_candidatesFor hp.distinct id r)
  | typeText id text now =>
    show Move s p _ ((p.typeText id text now).toOption.getD p)
    cases h : p.typeText id text now with
    | error e => exact .refused _
    | ok q => exact .quiet rfl (quiet_typeText hp.distinct h)
  | runSearches now => exact .quiet rfl (quiet_runSearches hp.distinct now)

/-! ## what no request changes -/

theorem kinds_turns (closed : String → Bool) (except : List String) (done rest : List Facet) :
    (turns s closed except done rest).map (·.kind) = rest.map (·.kind) :=
  map_turns s closed except (·.kind) (fun f scope => (steady_turn s closed except scope f).kind)
    done rest

theorem kinds_membersTurned (ms : List String) :
    ∀ fs : List Facet, (membersTurned s ms fs).map (·.kind) = fs.map (·.kind) := by
  induction ms with
  | nil => intro fs; rfl
  | cons m ms ih =>
    intro fs
    rw [membersTurned]
    split
    · rw [ih, kinds_putIn]
    · exact ih fs

/-- what asking a facet for its counts keeps, opening a group keeps -/
theorem forall_membersTurned {P : Facet → Prop}
    (href : ∀ (f : Facet) (scope : Scope), P f → P (f.refreshed s scope)) (ms : List String) :
    ∀ {fs : List Facet}, (∀ f ∈ fs, P f) → ∀ f ∈ membersTurned s ms fs, P f := by
  induction ms with
  | nil => intro fs h; exact h
  | cons m ms ih =>
    intro fs h
    rw [membersTurned]
    split
    · next f hf => exact ih (forall_putIn h (href f _ (h f (List.mem_of_find?_eq_some hf))))
    · exact ih h

theorem kept_of_move {p q : Panel} {a : Action} (h : Move s p a q) : p.Kept q := by
  have hc : ∀ g n, p.Kept (changed s p g n) := fun g n =>
    ⟨rfl, rfl, (kinds_turns _ _ _ _).trans (kinds_putIn g _), rfl, rfl⟩
  cases h with
  | refused => exact .refl p
  | quiet _ h => exact h.toKept
  | loaded _ h n => exact ⟨rfl, rfl, (kinds_turns _ _ _ _).trans (kinds_takingOver p h), rfl, rfl⟩
  | selected => exact hc _ _
  | deselected => exact hc _ _
  | cleared => exact hc _ _
  | reset =>
    refine ⟨rfl, rfl, ?_, rfl, rfl⟩
    show (p.facets.map Facet.clear).map (·.kind) = _
    rw [List.map_map]
    rfl
  | refreshed => exact ⟨rfl, rfl, kinds_turns _ _ _ _, rfl, rfl⟩
  | grouped => exact ⟨rfl, rfl, kinds_membersTurned _ _, rfl, rfl⟩

theorem serving_perform {p : Panel} (hp : p.Serving s) (a : Action) : (p.perform a).Serving s :=
  (kept_of_move (move_perform hp a)).serving hp

theorem kept_run {p : Panel} (hp : p.Serving s) (as : List Action) : p.Kept (p.run as) := by
  induction as generalizing p with
  | nil => exact .refl p
  | cons a as ih => exact (kept_of_move (move_perform hp a)).trans (ih (serving_perform hp a))

/-- what a run leaves of the standard panel -/
theorem standard_run (config : Config) (s : Store) (tab : String) (as : List Action) :
    ((standard config { store := s } tab).run as).Serving s ∧
      ((standard config { store := s } tab).run as).facets.map (·.kind) = FacetKind.all := by
  have h0 := serving_standard config s tab
  have hk := kept_run h0 as
  refine ⟨hk.serving h0, hk.kinds.trans ?_⟩
  show (FacetKind.all.map fun k => Facet.make k config.searchDebounceMs).map (·.kind) = _
  rw [List.map_map]
  exact List.map_id' _

/-- two runs with one report each -/
def twoRuns : Store where
  runs := [⟨1, "alpha"⟩, ⟨2, "beta"⟩]
  reports :=
    [{ id := 1, runId := 1, bugHash := "h1", filePath := "/a.c", checkerName := "c",
       severity := .unspecified, detectedAt := 0 },
     { id := 2, runId := 2, bugHash := "h2", filePath := "/b.c", checkerName := "c",
       severity := .unspecified, detectedAt := 0 }]

/-- an invariant of all moves that some requests can do is one of all runs of such requests -/
theorem run_induction {I : Panel → Prop} {P : Action → Prop}
    (step : ∀ p a q, p.Serving s → P a → I p → Move s p a q → I q) (as : List Action) :
    ∀ {p : Panel}, p.Serving s → (∀ a ∈ as, P a) → I p → (p.run as).Serving s ∧ I (p.run as) := by
  induction as with
  | nil => intro p hp _ hi; exact ⟨hp, hi⟩
  | cons a as ih =>
    intro p hp hok hi
    have hm := move_perform hp a
    rw [run_cons]
    exact ih (serving_perform hp a) (fun b hb => hok b (List.mem_cons_of_mem _ hb))
      (step p a _ hp (hok a List.mem_cons_self) hi hm)

/-- an invariant of all moves is one of all runs -/
theorem invariant_run {I : Panel → Prop}
    (step : ∀ p a q, p.Serving s → I p → Move s p a q → I q) (as : List Action) {p : Panel}
    (hp : p.Serving s) (hi : I p) : (p.run as).Serving s ∧ I (p.run as) := by
  refine run_induction (P := fun _ => True) ?_ as hp (fun _ _ => trivial) hi
  exact fun p a q hs _ => step p a q hs

end Panel
end Triage
