import Triage.Proofs.Fetches
import Triage.Proofs.Offered

/-!
# What a fetch brings

A fetch that nothing comes between hands on what the service replies.

* `IgnoresCalls m`        the answer does not depend on the number of calls so far;
* `Gateway.reply`         what the service answers for a facet under a scope, or why it fails
                          (`Gateway.reply_congr`);
* `candidatesFor_reply`   a fetch of a facet brings the reply under the conditions of the others;
* `candidatesFor_congr`   so that it depends on these conditions and on the service, and on nothing
                          else about the panel.
-/

namespace Triage

/-- the answer is the same however often the service was called before -/
def IgnoresCalls {α : Type} (m : Ask α) : Prop :=
  ∀ (g : Gateway) (n : Nat), (m.run.run { g with calls := n }).1 = (m.run.run g).1

theorem ignoresCalls_pure {α : Type} (a : α) : IgnoresCalls (pure a : Ask α) := fun _ _ => rfl

theorem ignoresCalls_ask {α : Type} (f : Store → α) : IgnoresCalls (Gateway.ask f) := by
  intro g n
  obtain ⟨store, failure, calls⟩ := g
  cases failure <;> rfl

theorem IgnoresCalls.bind {α β : Type} {m : Ask α} {f : α → Ask β} (hm : IgnoresCalls m)
    (hc : OnlyCounts m) (hf : ∀ a, IgnoresCalls (f a)) : IgnoresCalls (m >>= f) := by
  intro g n
  have hanswer := hm g n
  obtain ⟨k, hk⟩ := hc g
  obtain ⟨k', hk'⟩ := hc { g with calls := n }
  rw [Gateway.run_bind, Gateway.run_bind]
  -- both runs of `m` give one answer, and services that differ in the number of calls only
  cases hr : m.run.run g with
  | mk answer h =>
    cases hr' : m.run.run { g with calls := n } with
    | mk answer' h' =>
      rw [hr] at hk hanswer
      rw [hr'] at hk' hanswer
      dsimp only at hk hk' hanswer
      subst hk hk' hanswer
      cases answer' with
      | error e => rfl
      | ok a => exact (hf a g (n + k')).trans (hf a g (g.calls + k)).symm

namespace FacetKind

theorem ignoresCalls_countDiffTypes (scope : Scope) (c : Comparison) (ds : List DiffType) :
    IgnoresCalls (countDiffTypes scope c ds) := by
  induction ds with
  | nil => exact ignoresCalls_pure _
  | cons d ds ih =>
    refine (ignoresCalls_ask _).bind (onlyCounts_ask _) fun _ => ?_
    exact ih.bind (onlyCounts_countDiffTypes scope c ds) fun _ => ignoresCalls_pure _

theorem ignoresCalls_offers (k : FacetKind) (scope : Scope) (r : ItemsRequest) :
    IgnoresCalls (k.offers scope r) := by
  cases k with
  | run | runTag | reviewStatus | detectionStatus | severity | text | component =>
    exact (ignoresCalls_ask _).bind (onlyCounts_ask _) fun _ => ignoresCalls_pure _
  | unique | pathLength | date | reportHash => exact ignoresCalls_pure _
  | diffType =>
    obtain ⟨runIds, filter, comparison⟩ := scope
    cases comparison with
    | none => exact ignoresCalls_pure _
    | some c =>
      exact (ignoresCalls_countDiffTypes _ c _).bind (onlyCounts_countDiffTypes _ c _)
        fun _ => ignoresCalls_pure _

end FacetKind

namespace Gateway

/-- what the service answers for a facet -/
def reply (g : Gateway) (k : FacetKind) (scope : Scope) (r : ItemsRequest) :
    Except GatewayError (List Candidate) := ((k.offers scope r).run.run g).1

theorem reply_congr {g h : Gateway} (hs : h.store = g.store) (hf : h.failure = g.failure)
    (k : FacetKind) (scope : Scope) (r : ItemsRequest) : h.reply k scope r = g.reply k scope r := by
  have hh : h = { g with calls := h.calls } := by
    cases h
    cases hs
    cases hf
    rfl
  rw [hh]
  exact k.ignoresCalls_offers scope r g h.calls

end Gateway

namespace Panel

variable {p q : Panel}

theorem find?_of_mem (hd : Distinct p.facets) {f : Facet} (hf : f ∈ p.facets) :
    p.find? f.id = some f := find?_of_facet (facet_of_mem hd hf)

theorem find?_eq_none {id : String} (h : id ∉ p.facets.map Facet.id) : p.find? id = none :=
  List.find?_eq_none.2 fun f hf e => h (List.mem_map.2 ⟨f, hf, beq_iff_eq.1 e⟩)

/-- an answer of any kind for the fetch that was begun last -/
theorem closeFetch_latest (hd : Distinct p.facets) {fetch : Pending} {f : Facet}
    (h : p.find? fetch.kind.id = some f) (ht : f.tickets.latest = fetch.ticket)
    (answer : Except GatewayError (List Candidate)) :
    p.closeFetch fetch answer =
      (answer.map fun items => (items, p.storing fetch.kind items)).mapError .gateway := by
  cases answer with
  | error e => exact closeFetch_error_of_find? h e
  | ok items =>
    rw [closeFetch_of_find? hd h, if_pos ht]
    rfl

/-- a fetch brings what the service replies under the conditions of the other facets -/
theorem candidatesFor_reply (hd : Distinct p.facets) {f : Facet} (hf : f ∈ p.facets)
    (r : ItemsRequest) : (p.candidatesFor f.id r).1 =
      (p.gateway.reply f.kind (p.scopeWithout f.id) r).mapError .gateway := by
  obtain ⟨fetch, opened, hopen, hfetch⟩ : ∃ fetch opened,
      p.openFetch f.id r = .ok (fetch, opened) ∧
        fetch = ⟨f.kind, f.tickets.latest + 1, p.scopeWithout f.id, r⟩ := by
    rw [openFetch, facet_of_mem hd hf]
    exact ⟨_, _, rfl, rfl⟩
  obtain ⟨hid, g, hfind, -, hticket⟩ := openFetch_find? hd hopen
  have hquiet := quiet_openFetch hd hopen
  obtain ⟨n, hrun⟩ := runFetch_snd opened fetch
  have hanswer : (opened.runFetch fetch).1 = p.gateway.reply f.kind (p.scopeWithout f.id) r := by
    rw [hfetch]
    exact Gateway.reply_congr hquiet.store hquiet.failure _ _ _
  have hclose := closeFetch_latest (p := opened.withFacets opened.facets n) (hquiet.distinct hd)
    (hid ▸ hfind) hticket (opened.runFetch fetch).1
  rw [candidatesFor, hopen]
  dsimp only
  rw [hrun, hclose, hanswer]
  cases p.gateway.reply f.kind (p.scopeWithout f.id) r <;> rfl

theorem candidatesFor_unknown {id : String} (h : p.find? id = none) (r : ItemsRequest) :
    p.candidatesFor id r = (.error (.unknownFacet id), p) := by
  rw [candidatesFor, openFetch, facet, h]
  rfl

/-- A fetch depends on the kinds of the facets, on the conditions of the others and on the service. -/
theorem candidatesFor_congr (hd : Distinct p.facets)
    (hk : q.facets.map (·.kind) = p.facets.map (·.kind)) {id : String}
    (hscope : q.scopeWithout id = p.scopeWithout id)
    (hs : q.gateway.store = p.gateway.store) (hf : q.gateway.failure = p.gateway.failure)
    (r : ItemsRequest) : (q.candidatesFor id r).1 = (p.candidatesFor id r).1 := by
  have hids : q.facets.map Facet.id = p.facets.map Facet.id := ids_of_kinds hk
  by_cases hknown : id ∈ p.facets.map Facet.id
  · obtain ⟨f, hm, rfl⟩ := List.mem_map.1 hknown
    have hkind : f.kind ∈ q.facets.map (·.kind) := hk ▸ List.mem_map_of_mem hm
    obtain ⟨f', hm', hkind'⟩ := List.mem_map.1 hkind
    have hid : f'.id = f.id := congrArg FacetKind.id hkind'
    have hq := candidatesFor_reply (hd.of_kinds hk) hm' r
    rw [hid, hscope, hkind', Gateway.reply_congr hs hf] at hq
    exact hq.trans (candidatesFor_reply hd hm r).symm
  · rw [candidatesFor_unknown (find?_eq_none hknown),
      candidatesFor_unknown (find?_eq_none (hids ▸ hknown))]

theorem scopeWithout_of_cores (h : q.facets.map core = p.facets.map core) (id : String) :
    q.scopeWithout id = p.scopeWithout id := by
  refine congrArg Query.scope (queryOf_of_cores ?_)
  have hfilter : ∀ fs : List Facet, (fs.filter (·.id != id)).map core =
      (fs.map core).filter (·.1.id != id) := fun fs => by
    rw [List.filter_map]
    rfl
  rw [hfilter, hfilter, h]

/-- a quiet step does not matter to a fetch -/
theorem Quiet.candidatesFor (h : p.Quiet q) (hd : Distinct p.facets) (id : String)
    (r : ItemsRequest) : (q.candidatesFor id r).1 = (p.candidatesFor id r).1 :=
  candidatesFor_congr hd h.kinds (scopeWithout_of_cores h.cores id) h.store h.failure r

end Panel
end Triage
