import Triage.Proofs.Operations

/-!
# Which fetch is applied

Fetches of one facet may be under way together with fetches of others and with everything else that
can happen to a panel, and their answers may arrive in any order, late, twice or not at all:

* `Panel.Supersedes p k o`     the operation begins a fetch of the facet of kind `k`, clears the facet,
                               or makes a round that visits it while its counts depend on the others;
* `Panel.SupersededIn p k os`  one of the operations does, in the state that it meets;
* `AdvancesIff c f g`          from `f` to `g` the tickets have advanced if and only if `c`
                               (`advancesIff_effect` for one operation, `advancesIff_applyAll` for
                               many);
* `closeFetch_of_find?`        an answer is taken over or refused by the latest ticket alone, so after
                               whatever happened since by what superseded the fetch
                               (`closeFetch_applyAll`);
* `FetchStep id o`             the operation is a step of a fetch of a facet: it leaves everything else
                               as it is (`fetchStep_frame`);
* `fetch_protocol`             an answer is taken over exactly when nothing superseded the fetch.
-/

namespace Triage

namespace Panel

/-! ## what supersedes a fetch -/

/-- the operation begins a fetch of a facet -/
def Begins (p : Panel) (k : FacetKind) : Operation → Prop
  | .openFetch id _ | .request (.candidatesFor id _) => k.id = id
  | .request (.runSearches now) => k.id ∈ (p.dueSearches now).map Prod.fst
  | _ => False

/-- the operation clears a facet -/
def Clears (k : FacetKind) : Operation → Prop
  | .request (.clear id) => k.id = id
  | .request .reset => True
  | _ => False

/-- the operation makes a round that does not leave a facet out -/
def Visits (p : Panel) (k : FacetKind) (o : Operation) : Prop :=
  ∃ except, p.roundOf o = some except ∧ k.id ∉ except

/-- fetches of a facet that were begun before the operation do not count after it -/
def Supersedes (p : Panel) (k : FacetKind) (o : Operation) : Prop :=
  p.Begins k o ∨ Clears k o ∨ (k.isCountSensitive = true ∧ p.Visits k o)

/-- one of the operations supersedes, in the state that it meets -/
def SupersededIn (p : Panel) (k : FacetKind) (os : List Operation) : Prop :=
  ∃ before o after, os = before ++ o :: after ∧ (p.applyAll before).Supersedes k o

theorem supersededIn_nil (p : Panel) (k : FacetKind) : ¬ p.SupersededIn k [] := by
  rintro ⟨before, o, after, h, -⟩
  cases before <;> cases h

theorem supersededIn_cons (p : Panel) (k : FacetKind) (o : Operation) (os : List Operation) :
    p.SupersededIn k (o :: os) ↔ p.Supersedes k o ∨ (p.apply o).SupersededIn k os := by
  constructor
  · rintro ⟨before, o', after, h, hs⟩
    cases before with
    | nil =>
      cases h
      exact .inl hs
    | cons b before =>
      cases h
      exact .inr ⟨before, o', after, rfl, hs⟩
  · rintro (hs | ⟨before, o', after, rfl, hs⟩)
    · exact ⟨[], o, os, rfl, hs⟩
    · exact ⟨o :: before, o', after, rfl, hs⟩

/-! ## when tickets advance -/

/-- the tickets have advanced if and only if the condition holds, and else they are the same -/
def AdvancesIff (c : Prop) (f g : Facet) : Prop :=
  (c ∧ f.tickets.latest < g.tickets.latest) ∨ (¬ c ∧ g.tickets = f.tickets)

namespace AdvancesIff

variable {c d : Prop} {f g h : Facet}

theorem same (hc : ¬ c) (ht : g.tickets = f.tickets) : AdvancesIff c f g := .inr ⟨hc, ht⟩

theorem advanced (hc : c) (ht : g.tickets = f.tickets.advance) : AdvancesIff c f g := by
  refine .inl ⟨hc, ?_⟩
  rw [ht]
  exact Nat.lt_succ_self _

theorem congr (hcd : c ↔ d) (hf : AdvancesIff c f g) : AdvancesIff d f g := by
  rwa [AdvancesIff, ← hcd]

theorem of_tickets (hf : AdvancesIff c f g) (ht : h.tickets = g.tickets) : AdvancesIff c f h := by
  rwa [AdvancesIff, ht]

theorem trans (hf : AdvancesIff c f g) (hg : AdvancesIff d g h) : AdvancesIff (c ∨ d) f h := by
  rcases hf with ⟨hc, hf⟩ | ⟨hc, hf⟩
  · refine .inl ⟨.inl hc, ?_⟩
    rcases hg with ⟨-, hg⟩ | ⟨-, hg⟩
    · exact Nat.lt_trans hf hg
    · rwa [hg]
  · rcases hg with ⟨hd, hg⟩ | ⟨hd, hg⟩
    · refine .inl ⟨.inr hd, ?_⟩
      rwa [← hf]
    · exact .inr ⟨not_or.2 ⟨hc, hd⟩, hg.trans hf⟩

/-- a facet that is edited under a condition -/
theorem ite {e : Facet} [Decidable c] (ht : e.tickets = f.tickets.advance) :
    AdvancesIff c f (if c then e else f) := by
  by_cases hc : c
  · rw [if_pos hc]
    exact .advanced hc ht
  · rw [if_neg hc]
    exact .same hc rfl

end AdvancesIff

theorem advancesIff_visited (except : List String) (f : Facet) :
    AdvancesIff (f.kind.isCountSensitive = true ∧ f.id ∉ except) f (f.visited except) := by
  unfold Facet.visited
  by_cases he : f.id ∈ except
  · rw [if_pos (List.contains_iff_mem.2 he)]
    exact .same (fun h => h.2 he) rfl
  · rw [if_neg (mt List.contains_iff_mem.1 he)]
    have hi : f.kind.isCountSensitive = true ↔
        f.kind.isCountSensitive = true ∧ f.id ∉ except := (and_iff_left he).symm
    exact (AdvancesIff.ite rfl).congr hi

theorem tickets_select (f : Facet) (raw : String) (info : ValueInfo) :
    (f.select raw info).tickets = f.tickets := by
  unfold Facet.select
  split <;> rfl

variable {p : Panel}

/-- by itself an operation advances the tickets of the facets that it fetches for or clears -/
theorem advancesIff_edit (hd : Distinct p.facets) {f : Facet} (hf : f ∈ p.facets)
    (o : Operation) : AdvancesIff (p.Begins f.kind o ∨ Clears f.kind o) f (p.edit o f) := by
  have hnone : ∀ {g : Facet} {c d : Prop}, ¬ c → ¬ d → g.tickets = f.tickets →
      AdvancesIff (c ∨ d) f g := fun hc hd ht => .same (not_or.2 ⟨hc, hd⟩) ht
  have hif : ∀ {c : Prop} [Decidable c] {g : Facet}, g.tickets = f.tickets →
      (if c then g else f).tickets = f.tickets := by
    intro c _ g hg
    split
    · exact hg
    · rfl
  have htaken := f.tickets_taking (p.takenFrom o)
  cases o with
  | request a =>
    cases a with
    | start h | appear h origin | navigate h => exact hnone id id htaken
    | select id raw info => exact hnone (fun h => h) (fun h => h) (hif (tickets_select f raw info))
    | deselect id raw => exact hnone (fun h => h) (fun h => h) (hif rfl)
    | clear id => exact (AdvancesIff.ite (c := f.id = id) rfl).congr (iff_of_eq (false_or _)).symm
    | reset => exact .advanced (.inr trivial) rfl
    | setExpanded name expanded => exact hnone id id rfl
    | refreshAll except => exact hnone id id rfl
    | candidatesFor id r =>
      exact (AdvancesIff.ite (c := f.id = id) rfl).congr (iff_of_eq (or_false _)).symm
    | typeText id text now => exact hnone (fun h => h) (fun h => h) (hif rfl)
    | runSearches now =>
      have hdue : (f.dueText now).isSome = true ↔ p.Begins f.kind (.request (.runSearches now)) :=
        (mem_dueSearches_iff hd hf now).symm
      exact (AdvancesIff.ite rfl).congr (hdue.trans (iff_of_eq (or_false _)).symm)
  | load h origin => exact hnone id id htaken
  | openFetch id r =>
    exact (AdvancesIff.ite (c := f.id = id) rfl).congr (iff_of_eq (or_false _)).symm
  | runFetch fetch => exact hnone id id rfl
  | closeFetch fetch answer => exact hnone id id rfl
  | addFacet kind => exact hnone id id rfl
  | addGroup g => exact hnone id id rfl
  | service g => exact hnone id id rfl

/-- an operation advances the tickets of exactly the facets whose fetches it supersedes -/
theorem advancesIff_effect (hd : Distinct p.facets) {f : Facet} (hf : f ∈ p.facets)
    (o : Operation) : AdvancesIff (p.Supersedes f.kind o) f (p.effect o f) := by
  have he := advancesIff_edit hd hf o
  unfold effect Supersedes
  rw [← or_assoc]
  cases hr : p.roundOf o with
  | none =>
    have hno : ¬ p.Visits f.kind o := by
      rintro ⟨except, h, -⟩
      rw [hr] at h
      cases h
    exact he.congr (or_iff_left fun h => hno h.2).symm
  | some except =>
    have hv := advancesIff_visited except (p.edit o f)
    have hid : (p.edit o f).id = f.kind.id := congrArg FacetKind.id (kind_edit p o f)
    rw [kind_edit, hid] at hv
    have hvisits : p.Visits f.kind o ↔ f.kind.id ∉ except := by
      constructor
      · rintro ⟨except', h, hn⟩
        rw [hr] at h
        cases h
        exact hn
      · exact fun hn => ⟨except, hr, hn⟩
    rw [hvisits]
    exact he.trans hv

/-- and so do many -/
theorem advancesIff_applyAll (os : List Operation) :
    ∀ {p : Panel} {id : String} {f : Facet}, Distinct p.facets → p.find? id = some f →
      ∃ g, (p.applyAll os).find? id = some g ∧ g.kind = f.kind ∧
        AdvancesIff (p.SupersededIn f.kind os) f g := by
  induction os with
  | nil => intro p id f _ h; exact ⟨f, h, rfl, .same (supersededIn_nil p f.kind) rfl⟩
  | cons o os ih =>
    intro p id f hd h
    obtain ⟨g, hg, hface⟩ := find?_apply hd o h
    obtain ⟨k, hk, hkind, hrest⟩ := ih (distinct_apply hd o) hg
    have hgk : g.kind = f.kind := (Facet.kind_of_face hface).trans (kind_effect p o f)
    have hstep := (advancesIff_effect hd (mem_of_find? h).1 o).of_tickets
      (Facet.tickets_of_face hface)
    rw [hgk] at hrest
    exact ⟨k, hk, hkind.trans hgk, (hstep.trans hrest).congr (supersededIn_cons ..).symm⟩

/-! ## answers -/

/-- the panel with other candidates for one facet -/
def storing (p : Panel) (k : FacetKind) (items : List Candidate) : Panel :=
  { p with
    facets := p.facets.map fun f => if f.kind = k then { f with candidates := items } else f }

theorem put_candidates (hd : Distinct p.facets) {f : Facet} (hf : f ∈ p.facets)
    (items : List Candidate) : p.put { f with candidates := items } = p.storing f.kind items := by
  have h : putIn { f with candidates := items } p.facets =
      p.facets.map fun g => if g.kind = f.kind then { g with candidates := items } else g := by
    refine List.map_congr_left fun g hg => ?_
    show (if g.kind = f.kind then _ else g) = if g.kind = f.kind then _ else g
    by_cases hk : g.kind = f.kind
    · rw [if_pos hk, if_pos hk, hd.eq_of_id hf hg (congrArg FacetKind.id hk)]
    · rw [if_neg hk, if_neg hk]
  exact congrArg (fun fs => ({ p with facets := fs } : Panel)) h

/-- an answer is taken over or refused by the latest ticket alone -/
theorem closeFetch_of_find? (hd : Distinct p.facets) {fetch : Pending} {f : Facet}
    (h : p.find? fetch.kind.id = some f) (items : List Candidate) :
    p.closeFetch fetch (.ok items) =
      if f.tickets.latest = fetch.ticket then .ok (items, p.storing fetch.kind items)
      else .error (.staleFetch fetch.kind.id fetch.ticket) := by
  obtain ⟨hf, hid⟩ := mem_of_find? h
  have hfacet : p.facet fetch.kind.id = .ok f := by
    unfold facet
    rw [h]
  have hstore : f.store? fetch.ticket items =
      if f.tickets.latest = fetch.ticket then some { f with candidates := items } else none := by
    unfold Facet.store? Tickets.isLatest
    by_cases ht : f.tickets.latest = fetch.ticket
    · rw [if_pos ht, if_pos (beq_iff_eq.2 ht)]
    · rw [if_neg ht, if_neg (mt beq_iff_eq.1 ht)]
  unfold closeFetch
  simp only [hfacet, bind, Except.bind, hstore]
  by_cases ht : f.tickets.latest = fetch.ticket
  · simp only [if_pos ht]
    rw [← FacetKind.id_inj hid, put_candidates hd hf]
    rfl
  · simp only [if_neg ht]
    rfl

theorem closeFetch_error_of_find? {fetch : Pending} {f : Facet}
    (h : p.find? fetch.kind.id = some f) (e : GatewayError) :
    p.closeFetch fetch (.error e) = .error (.gateway e) := by
  unfold closeFetch facet
  rw [h]
  rfl

theorem openFetch_find? {q : Panel} {id : String} {r : ItemsRequest} {fetch : Pending}
    (hd : Distinct p.facets) (h : p.openFetch id r = .ok (fetch, q)) :
    fetch.kind.id = id ∧ ∃ f, q.find? id = some f ∧ f.kind = fetch.kind ∧
      f.tickets.latest = fetch.ticket := by
  have happly : p.apply (.openFetch id r) = q := by
    show p.stepped (p.openFetch id r) = q
    rw [h]
    rfl
  cases hf : p.facet id with
  | error e =>
    unfold openFetch at h
    rw [hf] at h
    cases h
  | ok f =>
    have hfetch : fetch.kind = f.kind ∧ fetch.ticket = f.tickets.latest + 1 := by
      unfold openFetch at h
      rw [hf] at h
      cases h
      exact ⟨rfl, rfl⟩
    have hid := (facet_eq_ok hf).2
    obtain ⟨g, hg, hface⟩ := find?_apply hd (.openFetch id r) (find?_of_facet hf)
    have heff : p.effect (.openFetch id r) f = f.fetching := if_pos hid
    rw [heff] at hface
    refine ⟨(congrArg FacetKind.id hfetch.1).trans hid, g, happly ▸ hg, ?_, ?_⟩
    · exact (Facet.kind_of_face hface).trans hfetch.1.symm
    · rw [Facet.tickets_of_face hface, hfetch.2]
      rfl

/-- the answer to a fetch, after whatever happened since it was begun -/
theorem closeFetch_applyAll {opened : Panel} {id : String} {r : ItemsRequest} {fetch : Pending}
    (hd : Distinct p.facets) (h : p.openFetch id r = .ok (fetch, opened)) (os : List Operation) :
    let q := opened.applyAll os
    (∀ e, q.closeFetch fetch (.error e) = .error (.gateway e)) ∧
    ∀ items,
      (¬ opened.SupersededIn fetch.kind os →
        q.closeFetch fetch (.ok items) = .ok (items, q.storing fetch.kind items)) ∧
      (opened.SupersededIn fetch.kind os →
        q.closeFetch fetch (.ok items) = .error (.staleFetch id fetch.ticket)) := by
  intro q
  have hdo : Distinct opened.facets := (quiet_openFetch hd h).distinct hd
  obtain ⟨hid, f, hf, hkind, hticket⟩ := openFetch_find? hd h
  obtain ⟨k, hk, -, hadv⟩ := advancesIff_applyAll os hdo hf
  rw [hkind] at hadv
  have hfind : q.find? fetch.kind.id = some k := hid.symm ▸ hk
  refine ⟨closeFetch_error_of_find? hfind, fun items => ?_⟩
  have hclose := closeFetch_of_find? (distinct_applyAll os hdo) hfind items
  rw [hid] at hclose
  rw [hclose]
  -- the ticket is still the latest exactly when nothing superseded the fetch
  rcases hadv with ⟨hs, hlt⟩ | ⟨hs, heq⟩
  · have hne : k.tickets.latest ≠ fetch.ticket := by omega
    exact ⟨fun hn => absurd hs hn, fun _ => if_neg hne⟩
  · have he : k.tickets.latest = fetch.ticket := by rw [heq, hticket]
    exact ⟨fun _ => if_pos he, fun hsup => absurd hsup hs⟩

/-! ## what a fetch leaves alone -/

/-- the operation is a step of a fetch of one facet, or all steps in a row -/
inductive FetchStep (id : String) : Operation → Prop where
  | opened (r : ItemsRequest) : FetchStep id (.openFetch id r)
  | run (fetch : Pending) : FetchStep id (.runFetch fetch)
  | closed {fetch : Pending} (hid : fetch.kind.id = id)
    (answer : Except GatewayError (List Candidate)) : FetchStep id (.closeFetch fetch answer)
  | whole (r : ItemsRequest) : FetchStep id (.request (.candidatesFor id r))

/-- the same but for the candidates and tickets of one facet, and the number of calls -/
structure SameBut (id : String) (p q : Panel) : Prop where
  selections : q.facets.map (fun f => (f.id, f.selection)) =
    p.facets.map fun f => (f.id, f.selection)
  history : q.history = p.history
  query : q.query = p.query
  groups : q.groups = p.groups
  phase : q.phase = p.phase
  others : ∀ other, other ≠ id → q.find? other = p.find? other

theorem SameBut.refl (id : String) (p : Panel) : SameBut id p p :=
  ⟨rfl, rfl, rfl, rfl, rfl, fun _ _ => rfl⟩

theorem SameBut.trans {id : String} {p q r : Panel} (h : SameBut id p q) (k : SameBut id q r) :
    SameBut id p r :=
  ⟨k.selections.trans h.selections, k.history.trans h.history, k.query.trans h.query,
    k.groups.trans h.groups, k.phase.trans h.phase,
    fun other hne => (k.others other hne).trans (h.others other hne)⟩

theorem addTo_of_core {f g : Facet} (h : core g = core f) : g.addTo = f.addTo := by
  have hk : g.kind = f.kind := congrArg Prod.fst h
  have hs : g.selection = f.selection := congrArg Prod.snd h
  cases f
  cases g
  cases hk
  cases hs
  rfl

/-- a query reads the kinds and the selections -/
theorem queryOf_of_cores {fs gs : List Facet} (h : gs.map core = fs.map core) :
    queryOf gs = queryOf fs := by
  have e : gs.map Facet.addTo = fs.map Facet.addTo := by
    induction fs generalizing gs with
    | nil =>
      rw [List.map_nil, List.map_eq_nil_iff] at h
      rw [h]
    | cons f fs ih =>
      cases gs with
      | nil => cases h
      | cons g gs =>
        rw [List.map_cons, List.map_cons, List.cons.injEq] at h
        rw [List.map_cons, List.map_cons, addTo_of_core h.1, ih h.2]
  have hfold : ∀ fs : List Facet, queryOf fs = (fs.map Facet.addTo).foldl (fun q a => a q) {} :=
    fun fs => by
      rw [List.foldl_map]
      rfl
  rw [hfold, hfold, e]

theorem SameBut.of_quiet {id : String} {p q : Panel} (h : p.Quiet q)
    (ho : ∀ other, other ≠ id → q.find? other = p.find? other) : SameBut id p q := by
  refine ⟨?_, h.history, queryOf_of_cores h.cores, h.groups, h.phase, ho⟩
  have e := congrArg (List.map fun c : FacetKind × Selection => (c.1.id, c.2)) h.cores
  rw [List.map_map, List.map_map] at e
  exact e

theorem find?_putIn_of_ne {g : Facet} {other : String} (h : g.id ≠ other) (fs : List Facet) :
    (putIn g fs).find? (·.id == other) = fs.find? (·.id == other) := by
  induction fs with
  | nil => rfl
  | cons f fs ih =>
    show ((if f.kind = g.kind then g else f) :: putIn g fs).find? _ = _
    by_cases hk : f.kind = g.kind
    · have hf : f.id ≠ other := by
        have hid : f.id = g.id := congrArg FacetKind.id hk
        rw [hid]
        exact h
      rw [if_pos hk, List.find?_cons_of_neg (by simpa using h),
        List.find?_cons_of_neg (by simpa using hf), ih]
    · rw [if_neg hk, List.find?_cons, List.find?_cons, ih]

theorem sameBut_openFetch {q : Panel} {id : String} {r : ItemsRequest} {fetch : Pending}
    (hd : Distinct p.facets) (h : p.openFetch id r = .ok (fetch, q)) : SameBut id p q := by
  refine .of_quiet (quiet_openFetch hd h) fun other hne => ?_
  obtain ⟨f, -, rfl, -, rfl⟩ := openFetch_eq_ok h
  exact find?_putIn_of_ne (g := { f with tickets := f.tickets.advance }) hne.symm p.facets

theorem sameBut_runFetch (id : String) (p : Panel) (fetch : Pending) :
    SameBut id p (p.runFetch fetch).2 := by
  refine .of_quiet (quiet_runFetch p fetch) fun other _ => ?_
  obtain ⟨n, h⟩ := runFetch_snd p fetch
  rw [h]
  rfl

theorem sameBut_closeFetch {q : Panel} {fetch : Pending}
    {answer : Except GatewayError (List Candidate)} {items : List Candidate}
    (hd : Distinct p.facets) (h : p.closeFetch fetch answer = .ok (items, q)) :
    SameBut fetch.kind.id p q := by
  refine .of_quiet (quiet_closeFetch hd h) fun other hne => ?_
  obtain ⟨f, -, hid, -, -, rfl⟩ := closeFetch_eq_ok h
  refine find?_putIn_of_ne (g := { f with candidates := items }) ?_ p.facets
  rw [← hid] at hne
  exact hne.symm

theorem sameBut_candidatesFor (hd : Distinct p.facets) (id : String) (r : ItemsRequest) :
    SameBut id p (p.candidatesFor id r).2 := by
  unfold candidatesFor
  cases ho : p.openFetch id r with
  | error e => exact .refl id p
  | ok opened =>
    obtain ⟨fetch, q⟩ := opened
    have hopen := (sameBut_openFetch hd ho).trans (sameBut_runFetch id q fetch)
    have hdr := ((quiet_openFetch hd ho).trans (quiet_runFetch q fetch)).distinct hd
    have hid := (openFetch_find? hd ho).1
    dsimp only
    cases hc : (q.runFetch fetch).2.closeFetch fetch (q.runFetch fetch).1 with
    | error e => exact hopen
    | ok closed => exact hopen.trans (hid ▸ sameBut_closeFetch hdr hc)

/-- a fetch changes nothing but the candidates and tickets of its facet -/
theorem fetchStep_frame (hd : Distinct p.facets) {id : String} {o : Operation}
    (h : FetchStep id o) : SameBut id p (p.apply o) := by
  cases h with
  | opened r =>
    show SameBut id p (p.stepped (p.openFetch id r))
    cases ho : p.openFetch id r with
    | error e => exact .refl id p
    | ok opened => exact sameBut_openFetch hd ho
  | run fetch => exact sameBut_runFetch id p fetch
  | @closed fetch hid answer =>
    show SameBut id p (p.stepped (p.closeFetch fetch answer))
    cases hc : p.closeFetch fetch answer with
    | error e => exact .refl id p
    | ok closed => exact hid ▸ sameBut_closeFetch hd hc
  | whole r => exact sameBut_candidatesFor hd id r

/-! ## the protocol -/

/-- Whatever happens to a panel after a fetch was begun on it: an answer is taken over, as the new
candidates of the facet, exactly when nothing superseded the fetch, and else it is refused with the
ticket of the fetch; a failure is passed on; what is refused changes nothing.  So a fetch cannot be
applied any more once a later one of the same facet has begun.  No step of a fetch changes anything
but the candidates and tickets of its facet. -/
theorem fetch_protocol (config : Config) (g : Gateway) (tab : Option String)
    (before : List Operation) :
    let p := ({ config, gateway := g, tab } : Panel).applyAll before
    (∀ id o, FetchStep id o → SameBut id p (p.apply o)) ∧
    ∀ id r fetch opened, p.openFetch id r = .ok (fetch, opened) → ∀ os,
      let q := opened.applyAll os
      (∀ items,
        (q.closeFetch fetch (.ok items) = .ok (items, q.storing fetch.kind items) ↔
          ¬ opened.SupersededIn fetch.kind os) ∧
        (q.closeFetch fetch (.ok items) = .error (.staleFetch id fetch.ticket) ↔
          opened.SupersededIn fetch.kind os)) ∧
      (∀ e, q.closeFetch fetch (.error e) = .error (.gateway e)) ∧
      (∀ answer e, q.closeFetch fetch answer = .error e → q.apply (.closeFetch fetch answer) = q) ∧
      ∀ earlier r' later, os = earlier ++ .openFetch id r' :: later → ∀ items,
        q.closeFetch fetch (.ok items) = .error (.staleFetch id fetch.ticket) := by
  intro p
  have hd : Distinct p.facets := distinct_applyAll before List.nodup_nil
  refine ⟨fun id o h => fetchStep_frame hd h, ?_⟩
  intro id r fetch opened h os q
  obtain ⟨herror, hanswer⟩ := closeFetch_applyAll hd h os
  refine ⟨fun items => ⟨⟨?_, (hanswer items).1⟩, ?_, (hanswer items).2⟩, herror, ?_, ?_⟩
  · intro hok hs
    rw [(hanswer items).2 hs] at hok
    cases hok
  · intro he
    by_contra hn
    rw [(hanswer items).1 hn] at he
    cases he
  · intro answer e he
    show q.stepped (q.closeFetch fetch answer) = q
    rw [he]
    rfl
  · rintro earlier r' later rfl items
    have hid : fetch.kind.id = id := (openFetch_find? hd h).1
    exact (hanswer items).2 ⟨earlier, .openFetch id r', later, rfl, .inl hid⟩

/-- A path is searched for.  A path chosen before the answer arrives does not disturb the fetch, a
second search does. -/
theorem fetch_protocol_twoSearches :
    let p := ({ gateway := { store := twoRuns } } : Panel).applyAll [.addFacet (.text .filePath)]
    let chosen := [.request (.select "filepath" "*.c" {})]
    let again := [.openFetch "filepath" (.ofText "b" {})]
    ∃ fetch opened, p.openFetch "filepath" (.ofText "a" {}) = .ok (fetch, opened) ∧
      (opened.applyAll chosen).closeFetch fetch (.ok []) =
        .ok ([], (opened.applyAll chosen).storing (.text .filePath) []) ∧
      (opened.applyAll again).closeFetch fetch (.ok []) = .error (.staleFetch "filepath" 1) := by
  intro p chosen again
  refine ⟨⟨.text .filePath, 1, {}, .ofText "a" {}⟩,
    p.apply (.openFetch "filepath" (.ofText "a" {})), rfl, ?_, ?_⟩
  · have h := (fetch_protocol {} { store := twoRuns } none [.addFacet (.text .filePath)]).2
      "filepath" (.ofText "a" {}) _ _ rfl chosen
    refine (h.1 []).1.2 fun hs => ?_
    rw [supersededIn_cons] at hs
    rcases hs with hs | hs
    · rcases hs with hs | hs | ⟨-, except, hr, hn⟩
      · exact hs
      · exact hs
      · cases hr
        exact hn (List.mem_singleton_self _)
    · exact supersededIn_nil _ _ hs
  · have h := (fetch_protocol {} { store := twoRuns } none [.addFacet (.text .filePath)]).2
      "filepath" (.ofText "a" {}) _ _ rfl again
    exact h.2.2.2 [] (.ofText "b" {}) [] rfl []

end Panel
end Triage
