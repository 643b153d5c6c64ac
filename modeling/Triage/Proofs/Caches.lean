import Triage.Proofs.Loading

/-!
# Cached candidates

A fetch may be under way while the panel changes.  A facet with counts drops its candidates and
supersedes its fetches whenever another facet may have changed:

* `Session`            a panel with the fetches that were begun on it, and for every kind of facet the
                       fetch that its cached candidates came from;
* `Event`              a request to the panel, a fetch, or one of its three steps
                       (`Session.items_eq_inSteps`);
* `Follows fs gs`      what every event does to the caches and tickets: they stay while the scope
                       stays, up to the order of ids (`follows_of_move`);
* `Session.Current`    the invariant of a run: fetches whose ticket is still the latest, and cached
                       candidates of facets with counts, belong to the scope of now
                       (`current_perform`);
* `caches_of_session`  cached candidates are what the service would answer now, except that those of
                       the comparison type are so exactly when the counts they show still are.
-/

namespace Triage

namespace Panel

variable {s : Store} {closed : String → Bool}

/-! ## what a change does to caches and tickets -/

/-- the scope of a facet with counts is the same in both lists -/
def SameScope (fs gs : List Facet) (f : Facet) : Prop :=
  f.kind.isCountSensitive = true → (scopeOf fs f.id).Alike (scopeOf gs f.id)

/-- a cache that is not dropped, and a ticket that is not superseded, keeps its scope -/
structure FollowsFrom (fs gs : List Facet) (f g : Facet) : Prop where
  kind : g.kind = f.kind
  cache : g.candidates = [] ∨ (g.candidates = f.candidates ∧ SameScope fs gs f)
  ticket : f.tickets.latest < g.tickets.latest ∨ (g.tickets = f.tickets ∧ SameScope fs gs f)

/-- every facet follows from one before the change -/
def Follows (fs gs : List Facet) : Prop := ∀ g ∈ gs, ∃ f ∈ fs, FollowsFrom fs gs f g

theorem follows_refl (fs : List Facet) : Follows fs fs := fun f hf =>
  ⟨f, hf, rfl, .inr ⟨rfl, fun _ => .refl _⟩, .inr ⟨rfl, fun _ => .refl _⟩⟩

/-- the cache is dropped and every fetch superseded -/
def Dropped (f g : Facet) : Prop := g.candidates = [] ∧ f.tickets.latest < g.tickets.latest

/-- the cache and the tickets are as before -/
def Untouched (f g : Facet) : Prop := g.candidates = f.candidates ∧ g.tickets = f.tickets

theorem Dropped.followsFrom {fs gs : List Facet} {f g : Facet} (hk : g.kind = f.kind)
    (h : Dropped f g) : FollowsFrom fs gs f g := ⟨hk, .inl h.1, .inl h.2⟩

theorem Untouched.followsFrom {fs gs : List Facet} {f g : Facet} (hk : g.kind = f.kind)
    (h : Untouched f g) (hs : SameScope fs gs f) : FollowsFrom fs gs f g :=
  ⟨hk, .inr ⟨h.1, hs⟩, .inr ⟨h.2, hs⟩⟩

theorem dropped_clear (f : Facet) : Dropped f f.clear := ⟨rfl, Nat.lt_succ_self _⟩

theorem untouched_select (f : Facet) (raw : String) (info : ValueInfo) :
    Untouched f (f.select raw info) := by
  unfold Facet.select
  split <;> exact ⟨rfl, rfl⟩

theorem untouched_refreshed (f : Facet) (scope : Scope) : Untouched f (f.refreshed s scope) :=
  ⟨f.candidates_refreshed s scope, f.tickets_refreshed s scope⟩

theorem untouched_chosen (f : Facet) (scope : Scope) (raw : String) (info : ValueInfo) :
    Untouched f (chosen s scope f raw info) := by
  have h1 := untouched_select f raw info
  unfold chosen
  split
  · have h2 := untouched_refreshed (s := s) (f.select raw info) scope
    exact ⟨h2.1.trans h1.1, h2.2.trans h1.2⟩
  · exact h1

/-- a visit drops what a facet with counts has cached, and a facet without counts keeps it -/
theorem turn_cache (s : Store) (closed : String → Bool) {except : List String} {f : Facet}
    (he : except.contains f.id = false) (scope : Scope) :
    if f.kind.isCountSensitive = true then Dropped f (turn s closed except scope f)
    else Untouched f (turn s closed except scope f) := by
  have hf : if f.kind.isCountSensitive = true then Dropped f f.forget
      else Untouched f f.forget := by
    unfold Facet.forget
    split
    · exact ⟨rfl, Nat.lt_succ_self _⟩
    · exact ⟨rfl, rfl⟩
  rw [turn, he]
  cases hc : closed f.id with
  | true => exact hf
  | false =>
    have hr := untouched_refreshed (s := s) f.forget scope
    split at hf
    · next hk =>
      rw [if_pos hk]
      exact ⟨hr.1.trans hf.1, hr.2 ▸ hf.2⟩
    · next hk =>
      rw [if_neg hk]
      exact ⟨hr.1.trans hf.1, hr.2.trans hf.2⟩

/-- a facet that is visited needs nothing about its scope -/
theorem followsFrom_turn {fs gs : List Facet} {except : List String} {f : Facet}
    (he : except.contains f.id = false) (scope : Scope) :
    FollowsFrom fs gs f (turn s closed except scope f) := by
  have hk := (steady_turn s closed except scope f).kind
  have h := turn_cache s closed he scope
  split at h
  · exact h.followsFrom hk
  · next hn => exact h.followsFrom hk fun hc => absurd hc hn

/-! ## requests -/

variable {fs : List Facet}

/-- one facet changed, and the others visited -/
theorem follows_changed (hr : ∀ f ∈ fs, f.Resolved s) {f g : Facet} (hf : f ∈ fs)
    (hk : g.kind = f.kind) (hg : g.Resolved s) (h : Dropped f g ∨ Untouched f g) :
    Follows fs (turns s closed [g.id] [] (putIn g fs)) := by
  have hid : g.id = f.id := congrArg FacetKind.id hk
  have ha := alike_turns s closed [g.id] [] (putIn g fs) (forall_putIn hr hg)
  have hs : SameScope fs (turns s closed [g.id] [] (putIn g fs)) f := fun _ => by
    rw [← hid, ← scopeOf_putIn]
    exact (scopeOf_congr ha g.id).symm
  intro k hkm
  obtain ⟨k₀, hk₀, scope, rfl⟩ := exists_of_forall₂_right
    (turns_forall₂ s closed [g.id] (putIn g fs) []) hkm
  rcases mem_putIn hk₀ with rfl | ⟨hmem, hne⟩
  · refine ⟨f, hf, ?_⟩
    rw [turn_of_except (by simp)]
    rcases h with h | h
    · exact h.followsFrom hk
    · exact h.followsFrom hk hs
  · have he : [g.id].contains k₀.id = false := by
      have : k₀.id ≠ g.id := fun e => hne (FacetKind.id_inj e)
      simpa using this
    exact ⟨k₀, hmem, followsFrom_turn he scope⟩

/-- a round over all facets but some -/
theorem follows_turns (hr : ∀ f ∈ fs, f.Resolved s) (except : List String) :
    Follows fs (turns s closed except [] fs) := by
  have ha := alike_turns s closed except [] fs hr
  intro g hg
  obtain ⟨f, hf, scope, rfl⟩ := exists_of_forall₂_right
    (turns_forall₂ s closed except fs []) hg
  refine ⟨f, hf, ?_⟩
  cases he : except.contains f.id with
  | true =>
    rw [turn_of_except he]
    exact Untouched.followsFrom rfl ⟨rfl, rfl⟩ fun _ => (scopeOf_congr ha f.id).symm
  | false => exact followsFrom_turn he scope

/-- selections taken from a history, and all facets visited -/
theorem follows_loaded (p : Panel) (h : History) (n : Nat) :
    Follows p.facets (loaded s p h n).facets := by
  intro g hg
  obtain ⟨k, hk, scope, rfl⟩ := exists_of_forall₂_right
    (turns_forall₂ s (p.takingOver h).inClosedGroup [] (p.takingOver h).facets []) hg
  obtain ⟨f, hf, rfl⟩ := List.mem_map.1 hk
  have hfrom : FollowsFrom p.facets (loaded s p h n).facets (f.load h)
      (turn s (p.takingOver h).inClosedGroup [] scope (f.load h)) := followsFrom_turn rfl scope
  exact ⟨f, hf, hfrom.kind, hfrom.cache, hfrom.ticket⟩

/-- a group that opens changes no scope -/
theorem scopeOf_membersTurned (ms : List String) : ∀ {fs : List Facet}, Distinct fs →
    (∀ f ∈ fs, f.Resolved s) →
      ∀ id, (scopeOf fs id).Alike (scopeOf (membersTurned s ms fs) id) := by
  induction ms with
  | nil => intro fs _ _ id; exact .refl _
  | cons m ms ih =>
    intro fs hd hr id
    rw [membersTurned]
    split
    · next f hx =>
      have hst := f.steady_refreshed s (scopeOf fs f.id)
      have hrf := f.resolved_refreshed s (scopeOf fs f.id)
      have hput := alike_putIn hd (List.mem_of_find?_eq_some hx)
        (Facet.alike_of_resolved (hr f (List.mem_of_find?_eq_some hx)) hrf hst.kind.symm
          hst.values.symm)
      exact (scopeOf_congr hput id).trans
        (ih (hd.of_kinds (kinds_putIn _ fs)) (forall_putIn hr hrf) id)
    · exact ih hd hr id

theorem untouched_membersTurned (ms : List String) : ∀ {fs : List Facet},
    ∀ g ∈ membersTurned s ms fs, ∃ f ∈ fs, g.kind = f.kind ∧ Untouched f g := by
  induction ms with
  | nil => intro fs g hg; exact ⟨g, hg, rfl, rfl, rfl⟩
  | cons m ms ih =>
    intro fs g hg
    rw [membersTurned] at hg
    split at hg
    · next f hx =>
      obtain ⟨k, hk, hkind, hc, ht⟩ := ih g hg
      rcases mem_putIn hk with rfl | ⟨hk, -⟩
      · have hu := untouched_refreshed (s := s) f (scopeOf fs f.id)
        exact ⟨f, List.mem_of_find?_eq_some hx,
          hkind.trans (f.steady_refreshed s (scopeOf fs f.id)).kind, hc.trans hu.1, ht.trans hu.2⟩
      · exact ⟨k, hk, hkind, hc, ht⟩
    · exact ih g hg

theorem follows_of_move {p q : Panel} {a : Action} (hp : p.Serving s)
    (ha : a.isPlain = true ∧ a.isQuiet = false) (hr : ∀ f ∈ p.facets, f.Resolved s)
    (hm : Move s p a q) : Follows p.facets q.facets := by
  cases hm with
  | refused => exact follows_refl _
  | quiet hq => exact absurd hq (by rw [ha.2]; decide)
  | loaded _ h n => exact follows_loaded p h n
  | @selected f hf raw info n =>
    exact follows_changed hr hf (kind_chosen _ f raw info) (resolved_chosen _ raw ha.1)
      (.inr (untouched_chosen f _ raw info))
  | @deselected f hf raw n =>
    exact follows_changed hr hf rfl (resolved_deselect (hr f hf) raw) (.inr ⟨rfl, rfl⟩)
  | @cleared f hf n => exact follows_changed hr hf rfl (resolved_clear f) (.inl (dropped_clear f))
  | reset =>
    intro g hg
    obtain ⟨f, hf, rfl⟩ := List.mem_map.1 hg
    exact ⟨f, hf, (dropped_clear f).followsFrom rfl⟩
  | refreshed except n => exact follows_turns hr except
  | grouped hg n =>
    intro g hg
    obtain ⟨f, hf, hk, hu⟩ := untouched_membersTurned _ g hg
    exact ⟨f, hf, hu.followsFrom hk fun _ => scopeOf_membersTurned _ hp.distinct hr f.id⟩

end Panel

/-! ## fetches under way -/

namespace Panel

/-- a facet with the same selection in the place of another changes no scope -/
theorem sameScope_putIn {fs : List Facet} (hd : Distinct fs) {f g : Facet} (hf : f ∈ fs)
    (h : core g = core f) (k : Facet) : SameScope fs (putIn g fs) k := by
  have hk : g.kind = f.kind := congrArg Prod.fst h
  have hs : g.selection = f.selection := congrArg Prod.snd h
  have ha : f.Alike g := ⟨hk.symm, congrArg Selection.values hs.symm, fun _ => hs ▸ .refl _⟩
  exact fun _ => scopeOf_congr (alike_putIn hd hf ha) k.id

theorem resolved_put {s : Store} {fs : List Facet} (hr : ∀ f ∈ fs, f.Resolved s) {f g : Facet}
    (hf : f ∈ fs) (h : core g = core f) : ∀ k ∈ putIn g fs, k.Resolved s :=
  forall_putIn hr ((hr f hf).of_selection (congrArg Prod.fst h) (congrArg Prod.snd h))

/-- a new ticket for one facet -/
theorem follows_ticket {fs : List Facet} (hd : Distinct fs) {f : Facet} (hf : f ∈ fs) :
    Follows fs (putIn { f with tickets := f.tickets.advance } fs) := by
  have hs := sameScope_putIn (g := { f with tickets := f.tickets.advance }) hd hf rfl
  intro k hk
  rcases mem_putIn hk with rfl | ⟨hk, -⟩
  · exact ⟨f, hf, rfl, .inr ⟨rfl, hs f⟩, .inl (Nat.lt_succ_self _)⟩
  · exact ⟨k, hk, rfl, .inr ⟨rfl, hs k⟩, .inr ⟨rfl, hs k⟩⟩

end Panel

/-- a panel with the fetches begun on it, their answers once they have been asked for, and the
fetches that the cached candidates came from -/
structure Session where
  panel : Panel
  fetches : List (Pending × Option (Except GatewayError (List Candidate))) := []
  origin : FacetKind → Option Pending := fun _ => none

/-- A request to the panel, a fetch, or a step of one; `answer` and `finish` name a fetch by its
place. -/
inductive Event where
  | request (a : Action)
  | begin (id : String) (r : ItemsRequest)
  | answer (n : Nat)
  | finish (n : Nat)
  | items (id : String) (r : ItemsRequest)
deriving DecidableEq, Repr

namespace Event

/-- a request that claims no knowledge and does not fetch by itself -/
def isPlain : Event → Bool
  | request a => a.isPlain && !a.isQuiet
  | _ => true

end Event

namespace Session

def begin (x : Session) (id : String) (r : ItemsRequest) : Session :=
  match x.panel.openFetch id r with
  | .ok (fetch, panel) => { x with panel, fetches := x.fetches ++ [(fetch, none)] }
  | .error _ => x

def answer (x : Session) (n : Nat) : Session :=
  match x.fetches[n]? with
  | some (fetch, _) =>
    let (found, panel) := x.panel.runFetch fetch
    { x with panel, fetches := x.fetches.set n (fetch, some found) }
  | none => x

def finish (x : Session) (n : Nat) : Session :=
  match x.fetches[n]? with
  | some (fetch, some found) =>
    match x.panel.closeFetch fetch found with
    | .ok (_, panel) =>
      { x with panel, origin := fun k => if k = fetch.kind then some fetch else x.origin k }
    | .error _ => x
  | _ => x

/-- the three steps in a row -/
def inSteps (x : Session) (id : String) (r : ItemsRequest) : Session :=
  ((x.begin id r).answer x.fetches.length).finish x.fetches.length

/-- the panel fetches at once; the fetch is noted as for the three steps -/
def items (x : Session) (id : String) (r : ItemsRequest) : Session :=
  { x.inSteps id r with panel := (x.panel.candidatesFor id r).2 }

def perform (x : Session) : Event → Session
  | .request a => { x with panel := x.panel.perform a }
  | .begin id r => x.begin id r
  | .answer n => x.answer n
  | .finish n => x.finish n
  | .items id r => x.items id r

def run (x : Session) (es : List Event) : Session := es.foldl perform x

theorem answer_eq {x : Session} {n : Nat} {fetch : Pending}
    {found : Option (Except GatewayError (List Candidate))}
    (h : x.fetches[n]? = some (fetch, found)) :
    x.answer n = { x with
      panel := (x.panel.runFetch fetch).2
      fetches := x.fetches.set n (fetch, some (x.panel.runFetch fetch).1) } := by
  rw [answer, h]

/-- the three steps in a row are what the panel does at once -/
theorem panel_inSteps (x : Session) (id : String) (r : ItemsRequest) :
    (x.inSteps id r).panel = (x.panel.candidatesFor id r).2 := by
  rw [inSteps, begin, Panel.candidatesFor]
  cases ho : x.panel.openFetch id r with
  | error e =>
    have hn : x.fetches[x.fetches.length]? = none := List.getElem?_eq_none (Nat.le_refl _)
    simp only [answer, finish, hn]
  | ok opened =>
    obtain ⟨fetch, p⟩ := opened
    dsimp only
    rw [answer_eq List.getElem?_concat_length, finish, List.getElem?_set_self (by simp)]
    dsimp only
    cases hc : (p.runFetch fetch).2.closeFetch fetch (p.runFetch fetch).1 with
    | error e => rfl
    | ok closed => rfl

theorem items_eq_inSteps (x : Session) (id : String) (r : ItemsRequest) :
    x.items id r = x.inSteps id r := by
  rw [items, ← panel_inSteps]

/-! ## the invariant -/

/-- what a fetch asked for still has the scope of now -/
def InScope (p : Panel) (fetch : Pending) : Prop :=
  fetch.kind.isCountSensitive = true →
    fetch.scope.Alike (Panel.scopeOf p.facets fetch.kind.id)

/-- the answer of the service to a fetch -/
def answerTo (s : Store) (fetch : Pending) : List Candidate :=
  fetch.kind.answer s fetch.scope fetch.request

structure Current (s : Store) (x : Session) : Prop where
  serving : x.panel.Serving s
  resolved : ∀ f ∈ x.panel.facets, f.Resolved s
  /-- answers that have come in are those of the service -/
  answered : ∀ e ∈ x.fetches, ∀ found, e.2 = some found → found = .ok (answerTo s e.1)
  /-- no ticket is later than the latest, and a fetch with the latest is in scope -/
  latest : ∀ e ∈ x.fetches, ∀ f ∈ x.panel.facets, f.kind = e.1.kind →
    e.1.ticket ≤ f.tickets.latest ∧ (f.tickets.latest = e.1.ticket → InScope x.panel e.1)
  /-- cached candidates are the answer to a fetch in scope -/
  cached : ∀ f ∈ x.panel.facets, f.candidates ≠ [] → ∃ fetch, x.origin f.kind = some fetch ∧
    fetch.kind = f.kind ∧ f.candidates = answerTo s fetch ∧ InScope x.panel fetch

variable {s : Store}

theorem InScope.mono {p q : Panel} {f : Facet} {fetch : Pending} (h : InScope p fetch)
    (hk : f.kind = fetch.kind) (hs : Panel.SameScope p.facets q.facets f) : InScope q fetch := by
  intro hc
  have hid : f.id = fetch.kind.id := congrArg FacetKind.id hk
  exact (h hc).trans (hid ▸ hs (hk ▸ hc))

/-- a panel that follows keeps the invariant -/
theorem Current.follow {x : Session} (h : Current s x) {q : Panel} (hq : q.Serving s)
    (hr : ∀ f ∈ q.facets, f.Resolved s) (hf : Panel.Follows x.panel.facets q.facets) :
    Current s { x with panel := q } where
  serving := hq
  resolved := hr
  answered := h.answered
  latest := by
    intro e he g hg hk
    obtain ⟨f, hfm, hfrom⟩ := hf g hg
    have hkf : f.kind = e.1.kind := hfrom.kind.symm.trans hk
    obtain ⟨hle, hin⟩ := h.latest e he f hfm hkf
    rcases hfrom.ticket with hlt | ⟨heq, hs⟩
    · refine ⟨by omega, fun heq => ?_⟩
      omega
    · rw [heq]
      exact ⟨hle, fun hl => (hin hl).mono hkf hs⟩
  cached := by
    intro g hg hne
    obtain ⟨f, hfm, hfrom⟩ := hf g hg
    rcases hfrom.cache with hnil | ⟨heq, hs⟩
    · exact absurd hnil hne
    · obtain ⟨fetch, ho, hk, hc, hin⟩ := h.cached f hfm (heq ▸ hne)
      exact ⟨fetch, hfrom.kind ▸ ho, hk.trans hfrom.kind.symm, heq.trans hc, hin.mono hk.symm hs⟩

theorem current_begin {x : Session} (h : Current s x) (id : String) (r : ItemsRequest) :
    Current s (x.begin id r) := by
  unfold begin
  cases ho : x.panel.openFetch id r with
  | error e => exact h
  | ok opened =>
    obtain ⟨fetch, q⟩ := opened
    have hq := (Panel.quiet_openFetch h.serving.distinct ho).serving h.serving
    obtain ⟨f, hf, -, rfl, rfl⟩ := Panel.openFetch_eq_ok ho
    have hfollow := h.follow hq (Panel.resolved_put h.resolved hf rfl)
      (Panel.follows_ticket h.serving.distinct hf)
    refine ⟨hfollow.serving, hfollow.resolved, ?_, ?_, hfollow.cached⟩
    · intro e he found hfound
      rcases List.mem_append.1 he with he | he
      · exact h.answered e he found hfound
      · cases List.mem_singleton.1 he
        cases hfound
    · intro e he g hg hk
      rcases List.mem_append.1 he with he | he
      · exact hfollow.latest e he g hg hk
      · cases List.mem_singleton.1 he
        rcases Panel.mem_putIn hg with rfl | ⟨-, hne⟩
        · exact ⟨Nat.le_refl _, fun _ => Panel.sameScope_putIn
            (g := { f with tickets := f.tickets.advance }) h.serving.distinct hf rfl f⟩
        · exact absurd hk hne

theorem current_answer {x : Session} (h : Current s x) (n : Nat) : Current s (x.answer n) := by
  unfold answer
  split
  · next fetch old hx =>
    obtain ⟨m, hrun⟩ := Panel.runFetch_eq h.serving.answers fetch
    have hmem := List.mem_of_getElem? hx
    have hfollow := h.follow (q := x.panel.withFacets x.panel.facets m)
      ⟨h.serving.distinct, h.serving.store, h.serving.answers⟩ h.resolved (Panel.follows_refl _)
    rw [hrun, h.serving.store]
    refine ⟨hfollow.serving, hfollow.resolved, ?_, ?_, hfollow.cached⟩
    · intro e he found hfound
      rcases List.mem_or_eq_of_mem_set he with he | rfl
      · exact h.answered e he found hfound
      · cases hfound
        rfl
    · intro e he
      rcases List.mem_or_eq_of_mem_set he with he | rfl
      · exact hfollow.latest e he
      · exact fun g hg hk => hfollow.latest (fetch, old) hmem g hg hk
  · exact h

theorem current_finish {x : Session} (h : Current s x) (n : Nat) : Current s (x.finish n) := by
  unfold finish
  split
  · next fetch found hx =>
    have hmem := List.mem_of_getElem? hx
    cases hc : x.panel.closeFetch fetch found with
    | error e => exact h
    | ok closed =>
      obtain ⟨items, q⟩ := closed
      have hq := (Panel.quiet_closeFetch h.serving.distinct hc).serving h.serving
      obtain ⟨f, hf, hid, hfound, hticket, rfl⟩ := Panel.closeFetch_eq_ok hc
      have hkind : f.kind = fetch.kind := FacetKind.id_inj hid
      have hitems : items = answerTo s fetch := by
        have ha := h.answered _ hmem found rfl
        rw [hfound] at ha
        exact Except.ok.inj ha
      have hs := Panel.sameScope_putIn (g := { f with candidates := items }) h.serving.distinct hf
        rfl
      have hin := (h.latest _ hmem f hf hkind).2 hticket
      refine ⟨hq, Panel.resolved_put h.resolved hf rfl, h.answered, ?_, ?_⟩
      · intro e he g hg hk
        rcases Panel.mem_putIn hg with rfl | ⟨hg, -⟩
        · have hl := h.latest e he f hf hk
          exact ⟨hl.1, fun ht => (hl.2 ht).mono hk (hs f)⟩
        · have hl := h.latest e he g hg hk
          exact ⟨hl.1, fun ht => (hl.2 ht).mono hk (hs g)⟩
      · intro g hg hne
        rcases Panel.mem_putIn hg with rfl | ⟨hg, hkne⟩
        · exact ⟨fetch, if_pos hkind, hkind.symm, hitems, hin.mono hkind (hs f)⟩
        · obtain ⟨old, ho, hk, hcand, hio⟩ := h.cached g hg hne
          have hno : g.kind ≠ fetch.kind := fun e => hkne (e.trans hkind.symm)
          exact ⟨old, (if_neg hno).trans ho, hk, hcand, hio.mono hk.symm (hs g)⟩
  · exact h

theorem current_perform {x : Session} (h : Current s x) {e : Event} (he : e.isPlain = true) :
    Current s (x.perform e) := by
  cases e with
  | request a =>
    have ha : a.isPlain = true ∧ a.isQuiet = false := by
      simpa [Event.isPlain] using he
    have hm := Panel.move_perform h.serving a
    exact h.follow (Panel.serving_perform h.serving a)
      (Panel.resolved_of_move ha.1 h.resolved hm)
      (Panel.follows_of_move h.serving ha h.resolved hm)
  | begin id r => exact current_begin h id r
  | answer n => exact current_answer h n
  | finish n => exact current_finish h n
  | items id r =>
    show Current s (x.items id r)
    rw [items_eq_inSteps]
    exact current_finish (current_answer (current_begin h id r) _) _

theorem current_run (es : List Event) : ∀ {x : Session}, Current s x →
    (∀ e ∈ es, e.isPlain = true) → Current s (x.run es) := by
  induction es with
  | nil => intro x h _; exact h
  | cons e es ih =>
    intro x h he
    exact ih (current_perform h (he e List.mem_cons_self))
      fun e' he' => he e' (List.mem_cons_of_mem _ he')

/-- the standard panel before anything has happened -/
def fresh (config : Config) (s : Store) (tab : String) : Session :=
  { panel := Panel.standard config { store := s } tab }

theorem current_fresh (config : Config) (s : Store) (tab : String) :
    Current s (fresh config s tab) := by
  have hempty : ∀ f ∈ (fresh config s tab).panel.facets,
      f.selection.items = [] ∧ f.candidates = [] := by
    intro f hf
    obtain ⟨k, -, rfl⟩ := List.mem_map.1 hf
    exact ⟨rfl, rfl⟩
  constructor
  · exact Panel.serving_standard config s tab
  · intro f hf _ i hi
    rw [(hempty f hf).1] at hi
    cases hi
  · intro e he
    cases he
  · intro e he
    cases he
  · intro f hf hne
    exact absurd (hempty f hf).2 hne

end Session

/-! ## candidates with a scope, and candidates without -/

namespace FacetKind

/-- the count that the comparison type shows for a member, if there is a comparison -/
def comparedCount (s : Store) (scope : Scope) (d : DiffType) : Option Nat :=
  scope.comparison.map fun c => diffTypeCount s scope c d

theorem diffTypeAnswer_eq (s : Store) (scope : Scope) :
    diffTypeAnswer s scope = (Coded.all : List DiffType).map fun d =>
      { value := Coded.label d, count := comparedCount s scope d } := by
  unfold diffTypeAnswer comparedCount
  cases scope.comparison <;> rfl

end FacetKind

/-- the request keeps a value -/
def ItemsRequest.keeps (r : ItemsRequest) (value : String) : Bool :=
  r.values.all fun values => anyGlob values value

theorem ItemsRequest.retain_eq (r : ItemsRequest) (items : List Candidate) :
    r.retain items = items.filter fun c => r.keeps c.value := by
  unfold retain keeps
  cases r.values with
  | none => exact (List.filter_eq_self.2 fun _ _ => rfl).symm
  | some values => rfl

namespace FacetKind

/-- The comparison type answers the same in two scopes when every member that the request keeps has
the same count. -/
theorem diffType_answer_iff (s : Store) (a b : Scope) (r : ItemsRequest) :
    FacetKind.diffType.answer s a r = FacetKind.diffType.answer s b r ↔
      ∀ d : DiffType, r.keeps (Coded.label d) = true → comparedCount s a d = comparedCount s b d := by
  have hall : ∀ d : DiffType, d ∈ (Coded.all : List DiffType) := fun d => by cases d <;> decide
  rw [answer, answer, diffTypeAnswer_eq, diffTypeAnswer_eq, ItemsRequest.retain_eq,
    ItemsRequest.retain_eq, List.filter_map, List.filter_map]
  show List.map _ ((Coded.all : List DiffType).filter fun d => r.keeps (Coded.label d)) =
    List.map _ ((Coded.all : List DiffType).filter fun d => r.keeps (Coded.label d)) ↔ _
  rw [List.map_inj_left]
  constructor
  · intro h d hd
    have hc := h d (List.mem_filter.2 ⟨hall d, hd⟩)
    exact congrArg Candidate.count hc
  · intro h d hd
    rw [h d (List.mem_filter.1 hd).2]

/-- apart from the comparison type, a facet without counts answers without looking at the scope -/
theorem answer_eq_of_not_countSensitive {k : FacetKind} (hk : k.isCountSensitive = false)
    (hd : k ≠ .diffType) (s : Store) (a b : Scope) (r : ItemsRequest) :
    k.answer s a r = k.answer s b r := by
  cases k with
  | diffType => exact absurd rfl hd
  | unique => rfl
  | pathLength => rfl
  | date field => rfl
  | reportHash => rfl
  | run side => cases hk
  | runTag side => cases hk
  | reviewStatus => cases hk
  | detectionStatus => cases hk
  | severity => cases hk
  | text field => cases hk
  | component => cases hk

end FacetKind

namespace Session

open Panel (twoRuns)

/-- Cached candidates came from the fetch that is noted for them, and they are what the service would
answer to the same request now; those of the comparison type are so exactly when every count they
show is still the count of now. -/
theorem caches_of_session (config : Config) (s : Store) (tab : String) (es : List Event)
    (hes : ∀ e ∈ es, e.isPlain = true) :
    let x := (fresh config s tab).run es
    ∀ f ∈ x.panel.facets, f.candidates ≠ [] →
      ∃ fetch, x.origin f.kind = some fetch ∧ fetch.kind = f.kind ∧
        (((f.kind.offers (x.panel.scopeWithout f.id) fetch.request).run.run x.panel.gateway).1 =
            .ok f.candidates ↔
          (f.kind = .diffType → ∀ d : DiffType, fetch.request.keeps (Coded.label d) = true →
            FacetKind.comparedCount s fetch.scope d =
              FacetKind.comparedCount s (x.panel.scopeWithout f.id) d)) := by
  intro x f hf hne
  have hx : Current s x := current_run es (current_fresh config s tab) hes
  obtain ⟨fetch, ho, hk, hc, hin⟩ := hx.cached f hf hne
  refine ⟨fetch, ho, hk, ?_⟩
  rw [FacetKind.offers_run _ _ _ hx.serving.answers, hx.serving.store, hc, answerTo, hk]
  show Except.ok _ = Except.ok _ ↔ _
  rw [Except.ok.injEq]
  by_cases hd : f.kind = .diffType
  · rw [hd, eq_comm, FacetKind.diffType_answer_iff]
    exact ⟨fun h _ => h, fun h => h rfl⟩
  · refine ⟨fun _ e => absurd e hd, fun _ => ?_⟩
    by_cases hs : f.kind.isCountSensitive = true
    · have ha := hin (hk ▸ hs)
      rw [hk] at ha
      exact (f.kind.answer_congr s ha fetch.request).symm
    · exact f.kind.answer_eq_of_not_countSensitive (Bool.eq_false_iff.2 hs) hd s _ _ _

/-- a fetch that is answered before another facet changes, and comes in after it -/
def inFlight : List Event :=
  [.request (.appear {} .deepLink), .begin "difftype" {}, .answer 0,
    .request (.select "run" "alpha" {}), .finish 0]

theorem caches_of_session_inFlight :
    (∀ e ∈ inFlight, e.isPlain = true) ∧
    let x := (fresh {} twoRuns "reports").run inFlight
    (x.panel.find? "difftype").map (·.candidates) =
        some [.plain "New", .plain "Resolved", .plain "Unresolved"] ∧
    ∀ f ∈ x.panel.facets, f.candidates ≠ [] →
      ∃ fetch, x.origin f.kind = some fetch ∧ fetch.kind = f.kind ∧
        (((f.kind.offers (x.panel.scopeWithout f.id) fetch.request).run.run x.panel.gateway).1 =
            .ok f.candidates ↔
          (f.kind = .diffType → ∀ d : DiffType, fetch.request.keeps (Coded.label d) = true →
            FacetKind.comparedCount twoRuns fetch.scope d =
              FacetKind.comparedCount twoRuns (x.panel.scopeWithout f.id) d)) :=
  ⟨by decide, by decide +kernel, caches_of_session {} twoRuns "reports" inFlight (by decide)⟩

/-- comparison types fetched before there is a comparison -/
def lateComparison : List Event :=
  [.request (.appear {} .deepLink), .items "difftype" {}, .request (.select "newcheck" "beta" {})]

/-- The cached comparison types still have no counts when the service has counts for them. -/
theorem stale_after_lateComparison :
    let x := (fresh {} twoRuns "reports").run lateComparison
    (x.panel.find? "difftype").map (·.candidates) =
        some [.plain "New", .plain "Resolved", .plain "Unresolved"] ∧
      (x.origin .diffType).map (·.request) = some {} ∧
      ((FacetKind.diffType.offers (x.panel.scopeWithout "difftype") {}).run.run x.panel.gateway).1 =
        .ok [.counted "New" 0, .counted "Resolved" 1, .counted "Unresolved" 1] := by
  decide +kernel

end Session
end Triage
