import Mathlib.Data.List.Nodup
import Triage.Proofs.Runs

/-!
# Everything that can happen to a panel

What the service answers, and whether it answers at all, decides only what is known about the
selected values and which candidates are cached.  All else about the facets follows from what is
asked of the panel:

* `Operation`            a request, a step of a fetch, a registration, or another service;
* `Panel.applyAll`       the panel after a list of operations;
* `Facet.face`           a facet without its candidates and without what is known about its values;
* `Panel.edit`, `Panel.roundOf`   what an operation does to a facet by itself, and which facets the
                         round leaves out that it makes after that;
* `Panel.effect`         both together, and `Panel.Outcome` everything that an operation can do
                         (`outcome_apply`);
* `Panel.distinct_applyAll`, `Panel.forall_applyAll`, `Panel.find?_apply`   what all operations keep;
* `Panel.complete_standard`   what they leave of the standard panel, which operations make
                         (`standard_eq_applyAll`).
-/

namespace Triage

namespace Facet

/-- the facet without its candidates and without what is known about its values -/
def face (f : Facet) : Facet :=
  { f with
    selection := { f.selection with items := f.selection.items.map fun i => ⟨i.value, {}⟩ }
    candidates := [] }

theorem values_face (f : Facet) : f.face.values = f.values := by
  show List.map _ (List.map _ _) = List.map _ _
  rw [List.map_map]
  rfl

section
variable {f g : Facet} (h : g.face = f.face)
include h

theorem kind_of_face : g.kind = f.kind := by
  show g.face.kind = f.face.kind
  rw [h]

theorem mode_of_face : g.selection.mode = f.selection.mode := by
  show g.face.selection.mode = f.face.selection.mode
  rw [h]

theorem tickets_of_face : g.tickets = f.tickets := by
  show g.face.tickets = f.face.tickets
  rw [h]

theorem values_of_face : g.values = f.values := by
  rw [← g.values_face, ← f.values_face, h]

end

theorem face_reconcile (f : Facet) (items : List Candidate) :
    (f.reconcile items).face = f.face := by
  have hi : (f.reconcile items).selection.items.map (fun i => (⟨i.value, {}⟩ : Choice)) =
      f.selection.items.map fun i => ⟨i.value, {}⟩ := by
    rw [items_reconcile, List.map_map]
    rfl
  show ({ f with selection := { f.selection with items := _ }, candidates := [] } : Facet) = _
  rw [hi]
  rfl

/-- asking for counts may change what is known about the values, and the number of calls -/
theorem refresh_face (f : Facet) (scope : Scope) (g : Gateway) :
    (f.refresh scope g).2.1.face = f.face ∧
      ∃ n, (f.refresh scope g).2.2 = { g with calls := g.calls + n } := by
  obtain ⟨n, hn⟩ := f.kind.onlyCounts_offers scope (.ofValues f.values) g
  unfold refresh
  by_cases hc : f.hasCounts = true
  · rw [if_pos hc]
    cases hr : (f.kind.offers scope (.ofValues f.values)).run.run g with
    | mk answer g' =>
      rw [hr] at hn
      cases answer with
      | ok items => exact ⟨f.face_reconcile items, n, hn⟩
      | error e => exact ⟨rfl, n, hn⟩
  · rw [if_neg hc]
    exact ⟨rfl, 0, rfl⟩

/-- a facet in a round, apart from its counts -/
def visited (except : List String) (f : Facet) : Facet :=
  if except.contains f.id then f else f.forget

theorem face_forget (f : Facet) : f.forget.face = f.face.forget := by
  unfold forget
  show (if f.kind.isCountSensitive = true then _ else f).face =
    if f.kind.isCountSensitive = true then _ else f.face
  split <;> rfl

theorem face_visited (except : List String) (f : Facet) :
    (f.visited except).face = f.face.visited except := by
  unfold visited
  show (if except.contains f.id = true then f else f.forget).face =
    if except.contains f.id = true then f.face else f.face.forget
  split
  · rfl
  · exact f.face_forget

theorem kind_forget (f : Facet) : f.forget.kind = f.kind := f.steady_forget.kind

theorem kind_visited (except : List String) (f : Facet) : (f.visited except).kind = f.kind := by
  unfold visited
  split
  · rfl
  · exact f.kind_forget

/-! ## steps of fetches and searches -/

/-- a fetch begun -/
def fetching (f : Facet) : Facet := { f with tickets := f.tickets.advance }

/-- a fetch begun for the facets of some names -/
def fetchingIn (ids : List String) (f : Facet) : Facet := if f.id ∈ ids then f.fetching else f

theorem face_fetchingIn (ids : List String) (f : Facet) :
    (f.fetchingIn ids).face = f.face.fetchingIn ids := by
  unfold fetchingIn
  show (if f.id ∈ ids then f.fetching else f).face =
    if f.id ∈ ids then f.face.fetching else f.face
  split <;> rfl

theorem fetchingIn_cons {id : String} {ids : List String} (h : id ∉ ids) (f : Facet) :
    (if f.id = id then f.fetching else f).fetchingIn ids = f.fetchingIn (id :: ids) := by
  unfold fetchingIn
  by_cases e : f.id = id
  · have hid : f.fetching.id = id := e
    rw [if_pos e, hid, if_neg h, if_pos (List.mem_cons.2 (.inl e))]
  · have hm : f.id ∈ id :: ids ↔ f.id ∈ ids := by
      rw [List.mem_cons]
      exact or_iff_right e
    simp only [if_neg e, hm]

/-- a text typed, if the facet has a search box -/
def noting (text : String) (now : Nat) (f : Facet) : Facet :=
  { f with search := f.search.map (·.note text now) }

/-- the text that is due in the search box -/
def dueText (now : Nat) (f : Facet) : Option String := f.search.bind (·.due? now)

/-- the text that is due taken out, and a fetch begun for it -/
def searching (now : Nat) (f : Facet) : Facet :=
  if (f.dueText now).isSome then (Panel.takeSearch now f).fetching else f

/-- the selection taken over from a history, if there is one -/
def taking (h? : Option History) (f : Facet) : Facet :=
  match h? with
  | some h => f.load h
  | none => f

theorem kind_taking (h? : Option History) (f : Facet) : (f.taking h?).kind = f.kind := by
  cases h? <;> rfl

theorem tickets_taking (h? : Option History) (f : Facet) : (f.taking h?).tickets = f.tickets := by
  cases h? <;> rfl

theorem kind_searching (now : Nat) (f : Facet) : (f.searching now).kind = f.kind := by
  unfold searching
  split <;> rfl

end Facet

/-! ## operations -/

/-- anything that can happen to a panel or to its service -/
inductive Operation where
  | request (a : Action)
  | load (h : History) (origin : Origin)
  | openFetch (id : String) (r : ItemsRequest)
  | runFetch (fetch : Pending)
  | closeFetch (fetch : Pending) (answer : Except GatewayError (List Candidate))
  | addFacet (kind : FacetKind)
  | addGroup (g : Group)
  /-- other reports, another failure or none -/
  | service (g : Gateway)

namespace Panel

/-- the panel after a step that may be refused -/
def stepped {α : Type} (p : Panel) : Except Refusal (α × Panel) → Panel
  | .ok (_, q) => q
  | .error _ => p

def apply (p : Panel) : Operation → Panel
  | .request a => p.perform a
  | .load h origin => (p.load h origin).2
  | .openFetch id r => p.stepped (p.openFetch id r)
  | .runFetch fetch => (p.runFetch fetch).2
  | .closeFetch fetch answer => p.stepped (p.closeFetch fetch answer)
  | .addFacet kind => (p.addFacet kind).toOption.getD p
  | .addGroup g => (p.addGroup g).toOption.getD p
  | .service g => { p with gateway := g }

def applyAll (p : Panel) (os : List Operation) : Panel := os.foldl apply p

theorem applyAll_cons (p : Panel) (o : Operation) (os : List Operation) :
    p.applyAll (o :: os) = (p.apply o).applyAll os := rfl
theorem applyAll_append (p : Panel) (os os' : List Operation) :
    p.applyAll (os ++ os') = (p.applyAll os).applyAll os' := List.foldl_append

/-! ## what an operation asks for -/

/-- the history that an operation takes the selections from, if it is called for -/
def takenFrom (p : Panel) : Operation → Option History
  | .request (.start h) => (p.start h).map fun _ => h
  | .request (.appear h origin) => (p.appear h origin).map fun _ => p.asked h origin
  | .request (.navigate h) => (p.navigate h).map fun _ => h
  | .load h origin => some (p.asked h origin)
  | _ => none

/-- what an operation does to a facet by itself -/
def edit (p : Panel) (o : Operation) (f : Facet) : Facet :=
  match o with
  | .request (.select id raw info) => if f.id = id then f.select raw info else f
  | .request (.deselect id raw) => if f.id = id then f.deselect raw else f
  | .request (.clear id) => if f.id = id then f.clear else f
  | .request .reset => f.clear
  | .request (.typeText id text now) => if f.id = id then f.noting text now else f
  | .request (.runSearches now) => f.searching now
  | .request (.candidatesFor id _) | .openFetch id _ => if f.id = id then f.fetching else f
  | o => f.taking (p.takenFrom o)

/-- the facets that the round of an operation leaves out, if it makes a round -/
def roundOf (p : Panel) : Operation → Option (List String)
  | .request (.select id _ _) | .request (.deselect id _) | .request (.clear id) =>
    if (p.find? id).isSome then some [id] else none
  | .request (.refreshAll except) => some except
  | o => (p.takenFrom o).map fun _ => []

/-- what becomes of a facet, but for its candidates and what is known about its values -/
def effect (p : Panel) (o : Operation) (f : Facet) : Facet :=
  match p.roundOf o with
  | some except => (p.edit o f).visited except
  | none => p.edit o f

/-- the facets that an operation adds -/
def added (p : Panel) : Operation → List Facet
  | .addFacet kind =>
    match p.addFacet kind with
    | .ok _ => [.make kind p.config.searchDebounceMs]
    | .error _ => []
  | _ => []

/-- everything that an operation can do -/
structure Outcome (p : Panel) (o : Operation) (q : Panel) : Prop where
  config : q.config = p.config
  tab : q.tab = p.tab
  faces : q.facets.map Facet.face = (p.facets.map (p.effect o) ++ p.added o).map Facet.face

/-! ## rounds -/

section
variable {p : Panel}

theorem refreshOne_face (p : Panel) (f : Facet) :
    ∃ outcome g n, p.refreshOne f = (outcome, p.withFacets (putIn g p.facets) n) ∧
      g.face = f.face := by
  obtain ⟨hf, n, hn⟩ := f.refresh_face (p.scopeWithout f.id) p.gateway
  refine ⟨(f.refresh (p.scopeWithout f.id) p.gateway).1, _, n, ?_, hf⟩
  show (_, ({ p.put _ with gateway := (f.refresh (p.scopeWithout f.id) p.gateway).2.2 } : Panel)) =
    _
  rw [hn]
  rfl

theorem visit_face {done rest : List Facet} {f : Facet} (hd : Distinct p.facets)
    (hp : p.facets = done ++ f :: rest) (except : List String) :
    ∃ outcome g n, p.visit except f = (outcome, p.withFacets (done ++ g :: rest) n) ∧
      g.face = (f.visited except).face := by
  have hput : putIn f.forget p.facets = done ++ f.forget :: rest := by
    rw [hp] at hd ⊢
    exact putIn_split hd f.kind_forget
  have hd' : Distinct (done ++ f.forget :: rest) := hput ▸ hd.of_kinds (kinds_putIn _ _)
  unfold visit Facet.visited
  by_cases he : except.contains f.id = true
  · rw [if_pos he, if_pos he]
    exact ⟨.skipped, f, 0, by rw [← hp]; rfl, rfl⟩
  · rw [if_neg he, if_neg he]
    show ∃ outcome g n, (if p.inClosedGroup f.id = true then _ else _) = _ ∧ _
    by_cases hc : p.inClosedGroup f.id = true
    · rw [if_pos hc]
      exact ⟨.skipped, f.forget, 0, by rw [← hput]; rfl, rfl⟩
    · rw [if_neg hc]
      obtain ⟨outcome, g, n, hr, hg⟩ := refreshOne_face (p.put f.forget) f.forget
      refine ⟨outcome, g, n, ?_, hg⟩
      rw [hr, put_facets, hput, putIn_split hd' (Facet.kind_of_face hg)]
      rfl

theorem round_face (except : List String) (rest : List Facet) :
    ∀ (done : List Facet) (p : Panel) (t : Summary), Distinct p.facets →
      p.facets = done ++ rest →
      ∃ t' rest' n, round except rest t p = (t', p.withFacets (done ++ rest') n) ∧
        rest'.map Facet.face = rest.map fun f => (f.visited except).face := by
  induction rest with
  | nil =>
    intro done p t _ hp
    exact ⟨t, [], 0, by rw [← hp]; rfl, rfl⟩
  | cons f rest ih =>
    intro done p t hd hp
    obtain ⟨outcome, g, m, hv, hg⟩ := visit_face hd hp except
    have hk : g.kind = f.kind := (Facet.kind_of_face hg).trans (f.kind_visited except)
    have hd' : Distinct (done ++ g :: rest) := by
      refine hd.of_kinds ?_
      rw [hp, List.map_append, List.map_append, List.map_cons, List.map_cons, hk]
    obtain ⟨t', rest', n, hr, hrest⟩ := ih (done ++ [g]) (p.withFacets (done ++ g :: rest) m)
      (t.add outcome) hd' (by rw [List.append_assoc]; rfl)
    refine ⟨t', g :: rest', m + n, ?_, ?_⟩
    · rw [round, hv]
      dsimp only
      rw [hr, withFacets_withFacets, List.append_assoc]
      rfl
    · rw [List.map_cons, List.map_cons, hg, hrest]

theorem refreshAll_face (hd : Distinct p.facets) (except : List String) :
    ∃ fs n, (p.refreshAll except).2 = (p.withFacets fs n).writeHistory ∧
      fs.map Facet.face = p.facets.map fun f => (f.visited except).face := by
  obtain ⟨t, fs, n, hr, hfs⟩ := round_face except p.facets [] p {} hd rfl
  refine ⟨fs, n, ?_, hfs⟩
  rw [refreshAll, hr]
  rfl

/-! ## one facet edited -/

theorem Distinct.eq_of_id {fs : List Facet} (hd : Distinct fs) {f g : Facet} (hf : f ∈ fs)
    (hg : g ∈ fs) (h : g.id = f.id) : g = f :=
  List.inj_on_of_nodup_map hd hg hf (FacetKind.id_inj h)

/-- a facet in the place of the one that an edit makes -/
theorem faces_putIn {fs : List Facet} (hd : Distinct fs) {f g : Facet} (hf : f ∈ fs)
    {e : Facet → Facet} (hk : (e f).kind = f.kind) (hg : g.face = (e f).face) :
    (putIn g fs).map Facet.face = fs.map fun h => (if h.id = f.id then e h else h).face := by
  have hkg : g.kind = f.kind := (Facet.kind_of_face hg).trans hk
  rw [putIn, List.map_map]
  refine List.map_congr_left fun h hh => ?_
  show (if h.kind = g.kind then g else h).face = _
  by_cases hid : h.id = f.id
  · have e : h = f := hd.eq_of_id hf hh hid
    rw [if_pos hid, e, if_pos hkg.symm, hg]
  · have hne : h.kind ≠ g.kind := fun e => hid (congrArg FacetKind.id (e.trans hkg))
    rw [if_neg hid, if_neg hne]

theorem Outcome.of_faces {o : Operation} {q : Panel} (hc : q.config = p.config)
    (ht : q.tab = p.tab) (ha : p.added o = [])
    (hf : q.facets.map Facet.face = p.facets.map fun f => (p.effect o f).face) :
    p.Outcome o q := by
  refine ⟨hc, ht, ?_⟩
  rw [ha, List.append_nil, List.map_map]
  exact hf

/-- nothing is edited, and there is no round -/
theorem Outcome.of_same {o : Operation} {q : Panel} (hc : q.config = p.config)
    (ht : q.tab = p.tab) (ha : p.added o = []) (hr : p.roundOf o = none)
    (he : ∀ f ∈ p.facets, p.edit o f = f)
    (hf : q.facets.map Facet.face = p.facets.map Facet.face) : p.Outcome o q := by
  refine .of_faces hc ht ha (hf.trans (List.map_congr_left fun f hm => ?_))
  unfold effect
  rw [hr]
  show f.face = (p.edit o f).face
  rw [he f hm]

/-- one facet edited, and a round over the others -/
theorem outcome_changed (hd : Distinct p.facets) {f g : Facet} (hf : f ∈ p.facets)
    {e : Facet → Facet} (hk : (e f).kind = f.kind) (hg : g.face = (e f).face) (m : Nat)
    {o : Operation} (ha : p.added o = []) (hr : p.roundOf o = some [f.id])
    (he : ∀ h, p.edit o h = if h.id = f.id then e h else h) :
    p.Outcome o ((p.withFacets (putIn g p.facets) m).refreshAll [f.id]).2 := by
  obtain ⟨fs, n, hq, hfs⟩ := refreshAll_face (p := p.withFacets (putIn g p.facets) m)
    (hd.of_kinds (kinds_putIn g _)) [f.id]
  rw [hq]
  refine .of_faces rfl rfl ha ?_
  show fs.map Facet.face = _
  have hput := congrArg (List.map (Facet.visited [f.id])) (faces_putIn hd hf hk hg)
  rw [List.map_map, List.map_map] at hput
  rw [hfs]
  show (putIn g p.facets).map _ = _
  simp only [Facet.face_visited]
  refine hput.trans (List.map_congr_left fun h _ => ?_)
  show Facet.visited [f.id] (if h.id = f.id then e h else h).face = _
  unfold effect
  rw [hr, ← he h]
  exact (Facet.face_visited [f.id] (p.edit o h)).symm

/-- no facet has the name -/
theorem facet_eq_error {id : String} {e : Refusal} (h : p.facet id = .error e) :
    p.find? id = none ∧ ∀ f ∈ p.facets, f.id ≠ id := by
  unfold facet at h
  split at h
  · cases h
  · next hn =>
    refine ⟨hn, fun f hf => ?_⟩
    have hne := List.find?_eq_none.1 hn f hf
    simpa using hne

theorem find?_of_facet {id : String} {f : Facet} (h : p.facet id = .ok f) :
    p.find? id = some f := by
  unfold facet at h
  split at h
  · next hg =>
    cases h
    exact hg
  · cases h

theorem mem_of_find? {id : String} {f : Facet} (h : p.find? id = some f) :
    f ∈ p.facets ∧ f.id = id :=
  ⟨List.mem_of_find?_eq_some h, by simpa using List.find?_some h⟩

/-! ## selecting and clearing -/

/-- a facet changed, and its own counts asked for or not -/
def putAsking (p : Panel) (asks : Bool) (f : Facet) : Panel :=
  if asks = true then ((p.put f).refreshOne f).2 else p.put f

theorem putAsking_face (p : Panel) (asks : Bool) (f : Facet) :
    ∃ g m, p.putAsking asks f = p.withFacets (putIn g p.facets) m ∧ g.face = f.face := by
  unfold putAsking
  by_cases ha : asks = true
  · rw [if_pos ha]
    obtain ⟨outcome, g, m, hr, hg⟩ := refreshOne_face (p.put f) f
    refine ⟨g, m, ?_, hg⟩
    rw [hr, put_facets, putIn_putIn (Facet.kind_of_face hg).symm]
    rfl
  · rw [if_neg ha]
    exact ⟨f, 0, rfl, rfl⟩

/-- a request about a facet that there is not -/
theorem outcome_unknown {id : String} {e : Refusal} (h : p.facet id = .error e) {o : Operation}
    (ha : p.added o = []) (hr : p.roundOf o = if (p.find? id).isSome then some [id] else none)
    {edited : Facet → Facet} (he : ∀ f, p.edit o f = if f.id = id then edited f else f) :
    p.Outcome o p := by
  obtain ⟨hn, hne⟩ := facet_eq_error h
  refine .of_same rfl rfl ha ?_ (fun f hf => (he f).trans (if_neg (hne f hf))) rfl
  rw [hr, hn]
  rfl

theorem roundOf_known {id : String} {f : Facet} (h : p.facet id = .ok f) :
    (if (p.find? id).isSome then some [id] else none) = some [f.id] := by
  rw [find?_of_facet h, (facet_eq_ok h).2]
  rfl

theorem outcome_select (hd : Distinct p.facets) (id raw : String) (info : ValueInfo) :
    p.Outcome (.request (.select id raw info)) (p.accepted (p.select id raw info)) := by
  unfold select
  cases h : p.facet id with
  | error e => exact outcome_unknown h rfl rfl fun _ => rfl
  | ok f =>
    obtain ⟨hf, hid⟩ := facet_eq_ok h
    obtain ⟨g, m, hput, hg⟩ := p.putAsking_face
      (info.isEmpty && (f.select raw info).kind.isCountSensitive) (f.select raw info)
    show p.Outcome _ ((p.putAsking _ (f.select raw info)).refreshAll [id]).2
    rw [hput, ← hid]
    refine outcome_changed hd hf (kind_select f raw info) hg m rfl ?_ fun _ => rfl
    rw [hid]
    exact (roundOf_known h).trans (by rw [hid])

theorem outcome_deselect (hd : Distinct p.facets) (id raw : String) :
    p.Outcome (.request (.deselect id raw)) (p.accepted (p.deselect id raw)) := by
  unfold deselect
  cases h : p.facet id with
  | error e => exact outcome_unknown h rfl rfl fun _ => rfl
  | ok f =>
    obtain ⟨hf, rfl⟩ := facet_eq_ok h
    exact outcome_changed (o := .request (.deselect f.id raw)) hd hf rfl rfl 0 rfl
      (roundOf_known h) fun _ => rfl

theorem outcome_clear (hd : Distinct p.facets) (id : String) :
    p.Outcome (.request (.clear id)) (p.accepted (p.clear id)) := by
  unfold clear
  cases h : p.facet id with
  | error e => exact outcome_unknown h rfl rfl fun _ => rfl
  | ok f =>
    obtain ⟨hf, rfl⟩ := facet_eq_ok h
    exact outcome_changed (o := .request (.clear f.id)) hd hf rfl rfl 0 rfl (roundOf_known h)
      fun _ => rfl

/-! ## loading -/

theorem outcome_load (hd : Distinct p.facets) {h : History} {origin : Origin} {o : Operation}
    (ha : p.added o = []) (hr : p.roundOf o = some [])
    (he : ∀ f, p.edit o f = f.load (p.asked h origin)) : p.Outcome o (p.load h origin).2 := by
  obtain ⟨fs, n, hq, hfs⟩ := refreshAll_face (p := p.takingOver (p.asked h origin))
    (hd.of_kinds (kinds_takingOver p _)) []
  have hl : (p.load h origin).2 =
      { (refreshAll (p.takingOver (p.asked h origin)) []).2 with phase := .ready } := rfl
  rw [hl, hq]
  refine .of_faces rfl rfl ha ?_
  show fs.map Facet.face = _
  rw [hfs]
  show (p.facets.map fun f => f.load (p.asked h origin)).map _ = _
  rw [List.map_map]
  refine List.map_congr_left fun f _ => ?_
  unfold effect
  rw [hr, he]
  rfl

/-- a way into the panel that may not be called for -/
theorem outcome_loadedOr (hd : Distinct p.facets) {c : Prop} [Decidable c] {h : History}
    (origin : Origin) {o : Operation} (ha : p.added o = [])
    (ht : p.takenFrom o = (if c then some (p.load h origin) else none).map fun _ =>
      p.asked h origin)
    (hr : p.roundOf o = (p.takenFrom o).map fun _ => [])
    (he : ∀ f, p.edit o f = f.taking (p.takenFrom o)) :
    p.Outcome o (p.loadedOr (if c then some (p.load h origin) else none)) := by
  by_cases hc : c
  · rw [if_pos hc] at ht ⊢
    refine outcome_load hd ha ?_ fun f => ?_
    · rw [hr, ht]
      rfl
    · rw [he, ht]
      rfl
  · rw [if_neg hc] at ht ⊢
    refine .of_same rfl rfl ha ?_ (fun f _ => ?_) rfl
    · rw [hr, ht]
      rfl
    · rw [he, ht]
      rfl

/-- a link brings no defaults -/
theorem asked_deepLink (p : Panel) (h : History) : p.asked h .deepLink = h :=
  if_neg fun c => nomatch c.2

/-! ## groups -/

/-- the members of a group asked for their counts -/
theorem refreshMembers_face (ms : List String) :
    ∀ {p q : Panel} {t t' : Summary}, Distinct p.facets → refreshMembers ms t p = .ok (t', q) →
      ∃ fs n, q = p.withFacets fs n ∧ fs.map Facet.face = p.facets.map Facet.face := by
  induction ms with
  | nil =>
    intro p q t t' _ h
    cases h
    exact ⟨p.facets, 0, rfl, rfl⟩
  | cons m ms ih =>
    intro p q t t' hd h
    unfold refreshMembers at h
    cases hf : p.facet m with
    | error e => rw [hf] at h; cases h
    | ok f =>
      rw [hf] at h
      obtain ⟨outcome, g, n, hr, hg⟩ := refreshOne_face p f
      simp only [bind, Except.bind, hr] at h
      have hm := (facet_eq_ok hf).1
      obtain ⟨fs, k, hq, hfs⟩ := ih (p := p.withFacets (putIn g p.facets) n)
        (hd.of_kinds (kinds_putIn g _)) h
      refine ⟨fs, n + k, ?_, ?_⟩
      · rw [hq, withFacets_withFacets]
      · rw [hfs]
        exact map_putIn Facet.face hd hm (Facet.kind_of_face hg) hg

theorem outcome_setExpanded (hd : Distinct p.facets) (name : String) (expanded : Bool) :
    p.Outcome (.request (.setExpanded name expanded))
      (p.accepted (p.setExpanded name expanded)) := by
  have hsame : ∀ {q : Panel}, q.config = p.config → q.tab = p.tab →
      q.facets.map Facet.face = p.facets.map Facet.face →
      p.Outcome (.request (.setExpanded name expanded)) q := fun hc ht hf =>
    .of_same hc ht rfl rfl (fun _ _ => rfl) hf
  unfold setExpanded
  cases hg : setFirst name expanded p.groups with
  | none => exact hsame rfl rfl rfl
  | some found =>
    obtain ⟨old, groups⟩ := found
    show p.Outcome _ (p.accepted (if _ then _ else _))
    split
    · cases hr : refreshMembers old.members {} { p with groups } with
      | error e => exact hsame rfl rfl rfl
      | ok r =>
        obtain ⟨t, q⟩ := r
        obtain ⟨fs, n, rfl, hfs⟩ := refreshMembers_face old.members (p := { p with groups }) hd hr
        exact hsame rfl rfl hfs
    · exact hsame rfl rfl rfl

/-! ## fetches and searches -/

theorem faces_openFetch (hd : Distinct p.facets) (id : String) (r : ItemsRequest) :
    (p.stepped (p.openFetch id r)).facets.map Facet.face =
      p.facets.map fun f => (if f.id = id then f.fetching else f).face := by
  cases h : p.openFetch id r with
  | error e =>
    unfold openFetch at h
    cases hf : p.facet id with
    | error e' =>
      have hne := (facet_eq_error hf).2
      refine List.map_congr_left fun f hm => ?_
      rw [if_neg (hne f hm)]
    | ok f => rw [hf] at h; cases h
  | ok opened =>
    obtain ⟨fetch, q⟩ := opened
    obtain ⟨f, hf, rfl, -, rfl⟩ := openFetch_eq_ok h
    exact faces_putIn (e := Facet.fetching) hd hf rfl rfl

theorem faces_closeFetch {q : Panel} {fetch : Pending}
    {answer : Except GatewayError (List Candidate)} {items : List Candidate}
    (hd : Distinct p.facets) (h : p.closeFetch fetch answer = .ok (items, q)) :
    q.facets.map Facet.face = p.facets.map Facet.face := by
  obtain ⟨f, hf, -, -, -, rfl⟩ := closeFetch_eq_ok h
  exact map_putIn Facet.face hd hf rfl rfl

theorem faces_candidatesFor (hd : Distinct p.facets) (id : String) (r : ItemsRequest) :
    (p.candidatesFor id r).2.facets.map Facet.face =
      p.facets.map fun f => (if f.id = id then f.fetching else f).face := by
  have ho := faces_openFetch hd id r
  unfold candidatesFor
  cases h : p.openFetch id r with
  | error e =>
    rw [h] at ho
    exact ho
  | ok opened =>
    obtain ⟨fetch, q⟩ := opened
    rw [h] at ho
    have hdq := (quiet_openFetch hd h).distinct hd
    obtain ⟨n, hr⟩ := runFetch_snd q fetch
    dsimp only
    cases hc : (q.runFetch fetch).2.closeFetch fetch (q.runFetch fetch).1 with
    | error e =>
      show (q.runFetch fetch).2.facets.map _ = _
      rw [hr]
      exact ho
    | ok closed =>
      rw [hr] at hc
      exact (faces_closeFetch (p := q.withFacets q.facets n) hdq hc).trans ho

/-- an edit that reads a facet only through its face -/
theorem map_of_faces {fs gs : List Facet} (h : gs.map Facet.face = fs.map Facet.face)
    {e : Facet → Facet} (he : ∀ f, (e f).face = e f.face) :
    gs.map (fun f => (e f).face) = fs.map fun f => (e f).face := by
  have hm := congrArg (List.map e) h
  rw [List.map_map, List.map_map] at hm
  simp only [he]
  exact hm

theorem faces_fetchEach (page : Page) (searches : List (String × String)) :
    ∀ {p : Panel}, Distinct p.facets → (searches.map Prod.fst).Nodup →
      (fetchEach page searches p).2.facets.map Facet.face =
        p.facets.map fun f => (f.fetchingIn (searches.map Prod.fst)).face := by
  induction searches with
  | nil =>
    intro p _ _
    refine List.map_congr_left fun f _ => ?_
    rw [List.map_nil, Facet.fetchingIn, if_neg List.not_mem_nil]
  | cons search rest ih =>
    intro p hd hn
    obtain ⟨id, text⟩ := search
    obtain ⟨hid, hrest⟩ := List.nodup_cons.1 hn
    have hc := faces_candidatesFor hd id (.ofText text page)
    have hcd := (quiet_candidatesFor hd id (.ofText text page)).distinct hd
    have hmap : (p.facets.map fun f => if f.id = id then f.fetching else f).map Facet.face =
        p.facets.map fun f => (if f.id = id then f.fetching else f).face := List.map_map
    have hothers := map_of_faces (hc.trans hmap.symm) (Facet.face_fetchingIn (rest.map Prod.fst))
    refine (ih hcd hrest).trans (hothers.trans ?_)
    rw [List.map_map]
    exact List.map_congr_left fun f _ => congrArg Facet.face (Facet.fetchingIn_cons hid f)

theorem Distinct.ids {fs : List Facet} (hd : Distinct fs) : (fs.map Facet.id).Nodup := by
  have h := hd.map fun _ _ => FacetKind.id_inj
  rwa [List.map_map] at h

theorem map_fst_dueSearches (p : Panel) (now : Nat) : (p.dueSearches now).map Prod.fst =
    (p.facets.filter fun f => (f.dueText now).isSome).map Facet.id := by
  show (p.facets.filterMap fun f => (f.dueText now).map (f.id, ·)).map Prod.fst = _
  induction p.facets with
  | nil => rfl
  | cons f fs ih =>
    rw [List.filterMap_cons, List.filter_cons]
    cases f.dueText now with
    | none => exact ih
    | some text => exact congrArg (f.id :: ·) ih

theorem nodup_dueSearches (hd : Distinct p.facets) (now : Nat) :
    ((p.dueSearches now).map Prod.fst).Nodup := by
  rw [map_fst_dueSearches]
  exact hd.ids.sublist (List.filter_sublist.map _)

theorem mem_dueSearches_iff (hd : Distinct p.facets) {f : Facet} (hf : f ∈ p.facets)
    (now : Nat) : f.id ∈ (p.dueSearches now).map Prod.fst ↔ (f.dueText now).isSome = true := by
  rw [map_fst_dueSearches, List.mem_map]
  constructor
  · rintro ⟨g, hg, hid⟩
    obtain ⟨hg, hdue⟩ := List.mem_filter.1 hg
    rwa [hd.eq_of_id hf hg hid] at hdue
  · exact fun hdue => ⟨f, List.mem_filter.2 ⟨hf, hdue⟩, rfl⟩

theorem takeSearch_of_notDue {f : Facet} {now : Nat} (h : f.dueText now = none) :
    takeSearch now f = f := by
  unfold takeSearch
  cases hs : f.search with
  | none =>
    show ({ f with search := none } : Facet) = f
    rw [← hs]
  | some box =>
    have hb : box.due? now = none := by
      unfold Facet.dueText at h
      rwa [hs] at h
    have ht : (box.take now).2 = box := by rw [SearchBox.take, hb]
    show ({ f with search := some (box.take now).2 } : Facet) = f
    rw [ht, ← hs]

theorem faces_runSearches (hd : Distinct p.facets) (now : Nat) :
    (p.runSearches now).2.facets.map Facet.face =
      p.facets.map fun f => (f.searching now).face := by
  have hq := (quiet_takeSearch p now).distinct hd
  refine (faces_fetchEach _ _ hq (nodup_dueSearches hd now)).trans ?_
  show (p.facets.map (takeSearch now)).map _ = _
  rw [List.map_map]
  refine List.map_congr_left fun f hf => ?_
  have hdue := mem_dueSearches_iff hd hf now
  have hid : (takeSearch now f).id = f.id := rfl
  unfold Facet.searching Facet.fetchingIn
  simp only [Function.comp, hid, hdue]
  by_cases hs : (f.dueText now).isSome = true
  · rw [if_pos hs, if_pos hs]
  · rw [if_neg hs, if_neg hs, takeSearch_of_notDue (by simpa using hs)]

theorem faces_typeText (hd : Distinct p.facets) (id text : String) (now : Nat) :
    ((p.typeText id text now).toOption.getD p).facets.map Facet.face =
      p.facets.map fun f => (if f.id = id then f.noting text now else f).face := by
  unfold typeText
  cases hf : p.facet id with
  | error e =>
    have hne := (facet_eq_error hf).2
    refine List.map_congr_left fun f hm => ?_
    rw [if_neg (hne f hm)]
  | ok f =>
    obtain ⟨hm, rfl⟩ := facet_eq_ok hf
    cases hs : f.search with
    | none =>
      simp only [bind, Except.bind, hs]
      refine List.map_congr_left fun g hg => ?_
      by_cases e : g.id = f.id
      · have hn : f.noting text now = f := by
          unfold Facet.noting
          rw [hs]
          show ({ f with search := none } : Facet) = f
          rw [← hs]
        rw [if_pos e, hd.eq_of_id hm hg e, hn]
      · rw [if_neg e]
    | some box =>
      simp only [bind, Except.bind, hs]
      refine faces_putIn hd hm rfl ?_
      unfold Facet.noting
      rw [hs]
      rfl

/-! ## everything that an operation can do -/

theorem addFacet_eq_ok {q : Panel} {kind : FacetKind} (h : p.addFacet kind = .ok q) :
    kind ∉ p.facets.map (·.kind) ∧
      q = { p with facets := p.facets ++ [.make kind p.config.searchDebounceMs] } := by
  unfold addFacet at h
  split at h
  · cases h
  · next hn =>
    cases h
    refine ⟨fun hk => ?_, rfl⟩
    obtain ⟨f, hf, hkind⟩ := List.mem_map.1 hk
    have hmain : kind.mainKey ∈ kind.keys := by
      unfold FacetKind.mainKey FacetKind.keys
      cases kind <;> exact List.mem_cons_self
    have hc : p.keyClash? kind kind.mainKey = none := List.findSome?_eq_none_iff.1 hn _ hmain
    unfold keyClash? at hc
    split at hc
    · cases hc
    · rw [Option.map_eq_none_iff, List.find?_eq_none] at hc
      refine hc f hf ?_
      rw [Bool.or_eq_true]
      exact .inl (beq_iff_eq.2 hkind)

theorem added_addFacet (p : Panel) (kind : FacetKind) : p.added (.addFacet kind) =
    match p.addFacet kind with
    | .ok _ => [.make kind p.config.searchDebounceMs]
    | .error _ => [] := rfl

theorem apply_addFacet (p : Panel) (kind : FacetKind) :
    p.apply (.addFacet kind) = (p.addFacet kind).toOption.getD p := rfl

theorem outcome_addFacet (kind : FacetKind) :
    p.Outcome (.addFacet kind) (p.apply (.addFacet kind)) := by
  have heffect : p.facets.map (p.effect (.addFacet kind)) = p.facets := List.map_id' _
  cases h : p.addFacet kind with
  | error e =>
    have ha : p.added (.addFacet kind) = [] := by
      rw [added_addFacet, h]
    have hq : p.apply (.addFacet kind) = p := by
      rw [apply_addFacet, h]
      rfl
    rw [hq]
    exact .of_same rfl rfl ha rfl (fun _ _ => rfl) rfl
  | ok q =>
    have ha : p.added (.addFacet kind) = [.make kind p.config.searchDebounceMs] := by
      rw [added_addFacet, h]
    have hq : p.apply (.addFacet kind) = q := by
      rw [apply_addFacet, h]
      rfl
    obtain ⟨-, rfl⟩ := addFacet_eq_ok h
    rw [hq]
    refine ⟨rfl, rfl, ?_⟩
    rw [ha, heffect]

theorem outcome_request (hd : Distinct p.facets) (a : Action) :
    p.Outcome (.request a) (p.perform a) := by
  cases a with
  | start h =>
    refine outcome_loadedOr hd .deepLink rfl ?_ rfl fun _ => rfl
    rw [asked_deepLink]
    rfl
  | appear h origin => exact outcome_loadedOr hd origin rfl rfl rfl fun _ => rfl
  | navigate h =>
    refine outcome_loadedOr hd .deepLink rfl ?_ rfl fun _ => rfl
    rw [asked_deepLink]
    rfl
  | select id raw info => exact outcome_select hd id raw info
  | deselect id raw => exact outcome_deselect hd id raw
  | clear id => exact outcome_clear hd id
  | reset =>
    refine .of_faces rfl rfl rfl ?_
    show (p.facets.map Facet.clear).map _ = _
    rw [List.map_map]
    rfl
  | setExpanded name expanded => exact outcome_setExpanded hd name expanded
  | refreshAll except =>
    obtain ⟨fs, n, hq, hfs⟩ := refreshAll_face hd except
    show p.Outcome _ (p.refreshAll except).2
    rw [hq]
    exact .of_faces rfl rfl rfl hfs
  | candidatesFor id r =>
    have hq := quiet_candidatesFor hd id r
    exact .of_faces hq.config hq.tab rfl (faces_candidatesFor hd id r)
  | typeText id text now =>
    have hf := faces_typeText hd id text now
    show p.Outcome _ ((p.typeText id text now).toOption.getD p)
    cases h : p.typeText id text now with
    | error e =>
      rw [h] at hf
      exact .of_faces rfl rfl rfl hf
    | ok q =>
      have hq := quiet_typeText hd h
      rw [h] at hf
      exact .of_faces hq.config hq.tab rfl hf
  | runSearches now =>
    have hq := quiet_runSearches hd now
    exact .of_faces hq.config hq.tab rfl (faces_runSearches hd now)

/-- This is everything that an operation can do to the facets, whatever the service answers. -/
theorem outcome_apply (hd : Distinct p.facets) (o : Operation) : p.Outcome o (p.apply o) := by
  cases o with
  | request a => exact outcome_request hd a
  | load h origin => exact outcome_load hd rfl rfl fun _ => rfl
  | openFetch id r =>
    have hf := faces_openFetch hd id r
    show p.Outcome _ (p.stepped (p.openFetch id r))
    cases h : p.openFetch id r with
    | error e =>
      rw [h] at hf
      exact .of_faces rfl rfl rfl hf
    | ok opened =>
      have hq := quiet_openFetch hd h
      rw [h] at hf
      exact .of_faces hq.config hq.tab rfl hf
  | runFetch fetch =>
    obtain ⟨n, h⟩ := runFetch_snd p fetch
    show p.Outcome _ (p.runFetch fetch).2
    rw [h]
    exact .of_same rfl rfl rfl rfl (fun _ _ => rfl) rfl
  | closeFetch fetch answer =>
    show p.Outcome _ (p.stepped (p.closeFetch fetch answer))
    cases h : p.closeFetch fetch answer with
    | error e => exact .of_same rfl rfl rfl rfl (fun _ _ => rfl) rfl
    | ok closed =>
      have hq := quiet_closeFetch hd h
      exact .of_same hq.config hq.tab rfl rfl (fun _ _ => rfl) (faces_closeFetch hd h)
  | addFacet kind => exact outcome_addFacet kind
  | addGroup g =>
    show p.Outcome _ ((p.addGroup g).toOption.getD p)
    unfold addGroup
    split <;> exact .of_same rfl rfl rfl rfl (fun _ _ => rfl) rfl
  | service g => exact .of_same rfl rfl rfl rfl (fun _ _ => rfl) rfl

/-! ## what all operations keep -/

theorem kind_edit (p : Panel) (o : Operation) (f : Facet) : (p.edit o f).kind = f.kind := by
  have hif : ∀ {id : String} {g : Facet}, g.kind = f.kind →
      (if f.id = id then g else f).kind = f.kind := by
    intro id g hg
    split
    · exact hg
    · rfl
  unfold edit
  split
  · exact hif (kind_select f _ _)
  · exact hif rfl
  · exact hif rfl
  · rfl
  · exact hif rfl
  · exact Facet.kind_searching _ f
  · exact hif rfl
  · exact hif rfl
  · exact Facet.kind_taking _ f

theorem kind_effect (p : Panel) (o : Operation) (f : Facet) : (p.effect o f).kind = f.kind := by
  unfold effect
  split
  · exact (Facet.kind_visited _ _).trans (kind_edit p o f)
  · exact kind_edit p o f

theorem kinds_of_faces {fs gs : List Facet} (h : gs.map Facet.face = fs.map Facet.face) :
    gs.map (·.kind) = fs.map (·.kind) := by
  have e := congrArg (List.map fun f : Facet => f.kind) h
  rw [List.map_map, List.map_map] at e
  exact e

/-- facets are added, and none is taken out -/
theorem kinds_apply (hd : Distinct p.facets) (o : Operation) :
    (p.apply o).facets.map (·.kind) = p.facets.map (·.kind) ++ (p.added o).map (·.kind) := by
  rw [kinds_of_faces (outcome_apply hd o).faces, List.map_append, List.map_map]
  refine congrArg (· ++ _) (List.map_congr_left fun f _ => ?_)
  exact kind_effect p o f

theorem added_cases (p : Panel) (o : Operation) : p.added o = [] ∨
    ∃ kind n, kind ∉ p.facets.map (·.kind) ∧ p.added o = [.make kind n] := by
  cases o with
  | addFacet kind =>
    rw [added_addFacet]
    cases h : p.addFacet kind with
    | error e => exact .inl rfl
    | ok q => exact .inr ⟨kind, _, (addFacet_eq_ok h).1, rfl⟩
  | _ => exact .inl rfl

theorem distinct_apply (hd : Distinct p.facets) (o : Operation) : Distinct (p.apply o).facets := by
  rw [Distinct, kinds_apply hd o]
  rcases added_cases p o with ha | ⟨kind, n, hk, ha⟩
  · rw [ha, List.map_nil, List.append_nil]
    exact hd
  · rw [ha]
    exact List.Nodup.append hd (List.nodup_singleton kind) (List.disjoint_singleton.2 hk)

theorem distinct_applyAll (os : List Operation) :
    ∀ {p : Panel}, Distinct p.facets → Distinct (p.applyAll os).facets := by
  induction os with
  | nil => intro p hd; exact hd
  | cons o os ih => intro p hd; exact ih (distinct_apply hd o)

/-- what an edit and a round keep of a facet, all operations keep -/
theorem forall_applyAll {I : Facet → Prop} (hface : ∀ {f g : Facet}, g.face = f.face → I f → I g)
    (hmake : ∀ kind n, I (.make kind n)) (heffect : ∀ p o f, I f → I (effect p o f))
    (os : List Operation) : ∀ {p : Panel}, Distinct p.facets → (∀ f ∈ p.facets, I f) →
      ∀ f ∈ (p.applyAll os).facets, I f := by
  induction os with
  | nil => intro p _ h; exact h
  | cons o os ih =>
    intro p hd h
    refine ih (distinct_apply hd o) fun g hg => ?_
    have hm : g.face ∈ (p.facets.map (p.effect o) ++ p.added o).map Facet.face :=
      (outcome_apply hd o).faces ▸ List.mem_map.2 ⟨g, hg, rfl⟩
    obtain ⟨k, hk, hgk⟩ := List.mem_map.1 hm
    refine hface hgk.symm ?_
    rcases List.mem_append.1 hk with hk | hk
    · obtain ⟨f, hf, rfl⟩ := List.mem_map.1 hk
      exact heffect p o f (h f hf)
    · rcases added_cases p o with ha | ⟨kind, n, -, ha⟩
      · rw [ha] at hk
        cases hk
      · rw [ha, List.mem_singleton] at hk
        exact hk ▸ hmake kind n

/-- what becomes of the facet of a name -/
theorem find?_apply (hd : Distinct p.facets) (o : Operation) {id : String} {f : Facet}
    (h : p.find? id = some f) :
    ∃ g, (p.apply o).find? id = some g ∧ g.face = (p.effect o f).face := by
  have hread : ∀ fs : List Facet, (fs.find? (·.id == id)).map Facet.face =
      (fs.map Facet.face).find? (·.id == id) := fun fs => by
    rw [List.find?_map]
    rfl
  have heffect : (p.facets.map (p.effect o)).find? (·.id == id) = some (p.effect o f) := by
    have hid : (fun g : Facet => g.id == id) ∘ p.effect o = (·.id == id) := by
      funext g
      show (FacetKind.id (p.effect o g).kind == id) = _
      rw [kind_effect]
      rfl
    rw [List.find?_map, hid]
    exact congrArg (Option.map (p.effect o)) h
  have hq : ((p.apply o).find? id).map Facet.face = some (p.effect o f).face := by
    refine (hread _).trans ?_
    rw [(outcome_apply hd o).faces, ← hread, List.find?_append, heffect]
    rfl
  exact Option.map_eq_some_iff.1 hq

/-! ## the standard panel -/

theorem kinds_standard (config : Config) (g : Gateway) (tab : String) :
    (standard config g tab).facets.map (·.kind) = FacetKind.all := by
  show (FacetKind.all.map fun k => Facet.make k config.searchDebounceMs).map (·.kind) = _
  rw [List.map_map]
  exact List.map_id' _

theorem nodup_all : FacetKind.all.Nodup := by decide

theorem mem_all (k : FacetKind) : k ∈ FacetKind.all := by
  cases k with
  | run side | runTag side => cases side <;> decide
  | date field | text field => cases field <;> decide
  | _ => decide

/-- what the operations on a standard panel leave -/
structure Complete (config : Config) (tab : String) (p : Panel) : Prop where
  config : p.config = config
  tab : p.tab = some tab
  kinds : p.facets.map (·.kind) = FacetKind.all

theorem Distinct.of_all {fs : List Facet} (h : fs.map (·.kind) = FacetKind.all) :
    Distinct fs := by
  rw [Distinct, h]
  exact nodup_all

theorem Complete.distinct {config : Config} {tab : String} (h : p.Complete config tab) :
    Distinct p.facets := .of_all h.kinds

/-- there is no further kind of facet to add -/
theorem Complete.apply {config : Config} {tab : String} (h : p.Complete config tab)
    (o : Operation) : (p.apply o).Complete config tab := by
  have ho := outcome_apply h.distinct o
  refine ⟨ho.config.trans h.config, ho.tab.trans h.tab, ?_⟩
  rw [kinds_apply h.distinct]
  rcases added_cases p o with ha | ⟨kind, n, hk, ha⟩
  · rw [ha, List.map_nil, List.append_nil]
    exact h.kinds
  · rw [h.kinds] at hk
    exact absurd (mem_all kind) hk

theorem complete_standard (config : Config) (g : Gateway) (tab : String)
    (os : List Operation) : ((standard config g tab).applyAll os).Complete config tab := by
  suffices ∀ {p : Panel}, p.Complete config tab → (p.applyAll os).Complete config tab from
    this ⟨rfl, rfl, kinds_standard config g tab⟩
  induction os with
  | nil => intro p h; exact h
  | cons o os ih => intro p h; exact ih (h.apply o)

/-! ### the standard panel is made by operations -/

/-- a facet is added if its keys are free -/
theorem addFacet_of_free {kind : FacetKind}
    (hn : (tabKey :: (p.facets.flatMap (·.kind.keys) ++ kind.keys)).Nodup) :
    p.addFacet kind =
      .ok { p with facets := p.facets ++ [.make kind p.config.searchDebounceMs] } := by
  obtain ⟨htab, hkeys⟩ := List.nodup_cons.1 hn
  have hfree : kind.keys.findSome? (p.keyClash? kind) = none := by
    refine List.findSome?_eq_none_iff.2 fun key hkey => ?_
    have hne : key ≠ tabKey := fun e => htab (List.mem_append_right _ (e ▸ hkey))
    have hnew : ∀ f ∈ p.facets, key ∉ f.kind.keys := fun f hf hk =>
      List.disjoint_of_nodup_append hkeys (List.mem_flatMap.2 ⟨f, hf, hk⟩) hkey
    rw [keyClash?, if_neg hne, Option.map_eq_none_iff, List.find?_eq_none]
    intro f hf
    rw [Bool.or_eq_true, not_or]
    refine ⟨fun e => hnew f hf ?_, mt List.contains_iff_mem.1 (hnew f hf)⟩
    rwa [beq_iff_eq.1 e]
  rw [addFacet, hfree]

theorem applyAll_addFacet (kinds : List FacetKind) : ∀ {p : Panel},
    (tabKey :: (p.facets.flatMap (·.kind.keys) ++ kinds.flatMap FacetKind.keys)).Nodup →
      p.applyAll (kinds.map .addFacet) =
        { p with facets := p.facets ++ kinds.map (Facet.make · p.config.searchDebounceMs) } := by
  induction kinds with
  | nil =>
    intro p _
    rw [List.map_nil, List.map_nil, List.append_nil]
    rfl
  | cons kind kinds ih =>
    intro p hn
    rw [List.flatMap_cons, ← List.append_assoc] at hn
    have hadd : p.apply (.addFacet kind) =
        { p with facets := p.facets ++ [.make kind p.config.searchDebounceMs] } := by
      have hfree := hn.sublist ((List.sublist_append_left _ _).cons_cons tabKey)
      rw [apply_addFacet, addFacet_of_free hfree]
      rfl
    rw [List.map_cons, applyAll_cons, hadd, ih]
    · rw [List.append_assoc]
      rfl
    · rw [List.flatMap_append, List.flatMap_singleton]
      exact hn

theorem applyAll_addGroup (groups : List Group) : ∀ {p : Panel},
    (∀ g ∈ groups, ∀ id ∈ g.members, id ∈ p.facets.map Facet.id) →
      p.applyAll (groups.map .addGroup) = { p with groups := p.groups ++ groups } := by
  induction groups with
  | nil =>
    intro p _
    rw [List.map_nil, List.append_nil]
    rfl
  | cons g groups ih =>
    intro p h
    have hknown : (g.members.find? fun m => (p.find? m).isNone) = none := by
      refine List.find?_eq_none.2 fun m hm hnone => ?_
      obtain ⟨f, hf, hid⟩ := List.mem_map.1 (h g List.mem_cons_self m hm)
      have hne := List.find?_eq_none.1 (Option.isNone_iff_eq_none.1 hnone) f hf
      exact hne (beq_iff_eq.2 hid)
    have hadd : p.apply (.addGroup g) = { p with groups := p.groups ++ [g] } := by
      show (p.addGroup g).toOption.getD p = _
      rw [addGroup, hknown]
      rfl
    rw [List.map_cons, applyAll_cons, hadd, ih]
    · rw [List.append_assoc]
      rfl
    · exact fun g' hg' => h g' (List.mem_cons_of_mem _ hg')

/-- the standard panel is made by registering its facets and groups -/
theorem standard_eq_applyAll (config : Config) (g : Gateway) (tab : String) :
    standard config g tab = ({ config, gateway := g, tab := some tab } : Panel).applyAll
      (FacetKind.all.map .addFacet ++ standardGroups.map .addGroup) := by
  have hkeys : (tabKey :: FacetKind.all.flatMap FacetKind.keys).Nodup := by decide
  have hmembers : ∀ group ∈ standardGroups, ∀ id ∈ group.members,
      id ∈ FacetKind.all.map FacetKind.id := by decide
  have hfacets := applyAll_addFacet (p := { config, gateway := g, tab := some tab }) FacetKind.all
    hkeys
  rw [applyAll_append, hfacets, applyAll_addGroup]
  · rfl
  · show ∀ group ∈ standardGroups, ∀ id ∈ group.members,
      id ∈ (FacetKind.all.map (Facet.make · config.searchDebounceMs)).map Facet.id
    rw [List.map_map]
    exact hmembers

end
end Panel
end Triage
