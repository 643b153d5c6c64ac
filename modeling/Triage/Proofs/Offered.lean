import Triage.Proofs.Fetches
import Triage.Proofs.ValueCounts

/-!
# Selecting what is offered

A text facet offers the names that occur in the results, each with its number of results.  To select
one is to select its trimmed form as a pattern, so what is shown then is what this form covers:

* `FacetKind.count_of_offered`   the number that comes with an offered text;
* `Panel.Settled s p`            the states in which a round looks no further name up;
* `Panel.select_text`            a choice in an empty text facet narrows what is shown to what the
                                 chosen text covers;
* `Panel.offered_selected`       so the number offered is the number shown exactly when a name covers
                                 no other, and in any case when it has no wildcard.
-/

namespace Triage

/-! ## what is offered -/

theorem Page.mem_slice {α : Type} {p : Page} {as : List α} {a : α} (h : a ∈ p.slice as) :
    a ∈ as := by
  unfold slice at h
  split at h
  · exact List.mem_of_mem_drop h
  · exact List.mem_of_mem_drop (List.mem_of_mem_take h)

/-- only the typed text comes in besides the rows of the service -/
theorem ItemsRequest.mem_offer {r : ItemsRequest} {items : List Candidate} {c : Candidate}
    (h : c ∈ r.offer items) (hc : c.synthetic = false) : c ∈ items := by
  have hretain : c ∈ r.retain items := by
    unfold offer prependTyped at h
    split at h
    · split at h
      · exact h
      · rcases List.mem_cons.1 h with rfl | h
        · cases hc
        · exact h
    · exact h
  unfold retain at hretain
  split at hretain
  · exact List.mem_of_mem_filter hretain
  · exact hretain

theorem Store.mem_namesOf {s : Store} {field : TextAttribute} {scope : Scope} {row : NameTally}
    (h : row ∈ s.namesOf field scope) : row.count = (s.textsOf field scope).count row.name := by
  obtain ⟨name, -, rfl⟩ := List.mem_map.1 ((ranked_perm _ _ _).mem_iff.1 h)
  rfl

/-- an offered text comes with the number of results that have it -/
theorem FacetKind.count_of_offered {s : Store} {field : TextAttribute} {scope : Scope}
    (ho : field.patterns scope.filter = []) {r : ItemsRequest} {c : Candidate}
    (h : c ∈ (FacetKind.text field).answer s scope r) (hc : c.synthetic = false) :
    c.count = some ((s.results scope).countP fun x => field.ofReport x == c.value) := by
  obtain ⟨row, hrow, rfl⟩ := List.mem_map.1 (ItemsRequest.mem_offer h hc)
  show some row.count = _
  rw [Store.mem_namesOf (Page.mem_slice hrow), Store.textsOf_withTexts, textsOf_of_open ho,
    List.count_eq_countP, List.countP_map]
  rfl

/-- without a search everything in stock is offered -/
theorem answer_all_perm (s : Store) (field : TextAttribute) (scope : Scope) :
    ((FacetKind.text field).answer s scope {}).Perm ((FacetKind.text field).stock s scope) := by
  show (((s.namesOf field (scope.withTexts field [])).drop 0).map FacetKind.nameRow).Perm _
  have hp : field.patterns (scope.withTexts field []).filter = [] := field.patterns_setPatterns [] _
  have hall : (firstOfEach id (s.textsOf field scope)).filter (wanted []) =
      firstOfEach id (s.textsOf field scope) := List.filter_eq_self.2 fun _ _ => wanted_nil _
  rw [List.drop_zero, Store.namesOf, Store.textsOf_withTexts, hp, hall]
  exact (ranked_perm _ _ _).map FacetKind.nameRow

/-- elements with a weaker property are no more exactly when they have the stronger one -/
theorem countP_eq_iff {α : Type} {p q : α → Bool} {l : List α}
    (h : ∀ a ∈ l, p a = true → q a = true) :
    l.countP p = l.countP q ↔ ∀ a ∈ l, q a = true → p a = true := by
  refine ⟨fun he => ?_, fun hq => le_antisymm (List.countP_mono_left h) (List.countP_mono_left hq)⟩
  have hsub : (l.filter p).Sublist (l.filter q) := by
    have hp : l.filter p = (l.filter q).filter p := by
      rw [List.filter_filter]
      refine List.filter_congr fun a ha => ?_
      cases hpa : p a with
      | false => rfl
      | true => rw [h a ha hpa, Bool.and_self]
    rw [hp]
    exact List.filter_sublist
  rw [List.countP_eq_length_filter, List.countP_eq_length_filter] at he
  have heq : l.filter p = l.filter q := hsub.eq_of_length he
  intro a ha hqa
  have hm : a ∈ l.filter p := heq ▸ List.mem_filter.2 ⟨ha, hqa⟩
  exact (List.mem_filter.1 hm).2

namespace Panel

variable {s : Store}

theorem facet_of_mem {p : Panel} (hd : Distinct p.facets) {f : Facet} (hf : f ∈ p.facets) :
    p.facet f.id = .ok f := by
  have hfind : p.find? f.id = some f := by
    cases hg : p.find? f.id with
    | none => exact absurd (beq_self_eq_true f.id) (List.find?_eq_none.1 hg f hf)
    | some g =>
      obtain ⟨hm, hid⟩ := mem_of_find? hg
      rw [hd.eq_of_id hf hm hid]
  rw [facet, hfind]

/-- all facets are there with selections that they read again, nothing is compared or shown once only,
and every name that a round would look up is looked up -/
structure Settled (s : Store) (p : Panel) : Prop extends Serving s p where
  kinds : p.facets.map (·.kind) = FacetKind.all
  plain : Plain p.facets
  proper : ∀ f ∈ p.facets, f.Proper
  names : ∀ f ∈ p.facets, p.inClosedGroup f.id = false → f.Resolved s

/-- the facet before a quiet step -/
theorem Quiet.exists_before {p q : Panel} (h : p.Quiet q) {g : Facet} (hg : g ∈ q.facets) :
    ∃ f ∈ p.facets, g.kind = f.kind ∧ g.selection = f.selection :=
  exists_of_forall₂_right h.forall₂ hg

theorem Settled.quiet {p q : Panel} (h : p.Settled s) (k : p.Quiet q) : q.Settled s := by
  refine ⟨k.serving h.toServing, k.kinds.trans h.kinds, h.plain.of_values fun g hg => ?_,
    fun g hg => ?_, fun g hg hopen => ?_⟩
  all_goals obtain ⟨f, hf, hkind, hsel⟩ := k.exists_before hg
  · exact ⟨f, hf, hkind.symm, by rw [Facet.values, Facet.values, hsel]⟩
  · have hp := h.proper f hf
    rwa [Facet.Proper, ← hkind, ← hsel] at hp
  · refine (h.names f hf ?_).of_selection hkind hsel
    have hid : g.id = f.id := congrArg FacetKind.id hkind
    rwa [inClosedGroup_eq, k.groups, hid] at hopen

theorem Settled.valuesOf_quiet {p q : Panel} (h : p.Settled s) (k : p.Quiet q) (kind : FacetKind) :
    q.valuesOf kind = p.valuesOf kind := by
  obtain ⟨g, hg, hgk, hv⟩ := exists_valuesOf (h.quiet k).kinds kind
  obtain ⟨f, hf, hkind, hsel⟩ := k.exists_before hg
  have hfk : f.kind = kind := hkind.symm.trans hgk
  rw [hv, ← hfk, valuesOf_kind h.kinds hf, Facet.values, Facet.values, hsel]

/-- a fetch that nothing comes between brings the answer of the service -/
theorem candidatesFor_ok {p : Panel} (hp : p.Serving s) {f : Facet} (hf : f ∈ p.facets)
    (r : ItemsRequest) : ∃ q, p.candidatesFor f.id r =
      (.ok (f.kind.answer s (scopeOf p.facets f.id) r), q) := by
  obtain ⟨fetch, opened, hopen, hfetch⟩ : ∃ fetch opened,
      p.openFetch f.id r = .ok (fetch, opened) ∧
        fetch = ⟨f.kind, f.tickets.latest + 1, scopeOf p.facets f.id, r⟩ := by
    rw [openFetch, facet_of_mem hp.distinct hf]
    exact ⟨_, _, rfl, rfl⟩
  obtain ⟨hid, g, hfind, -, hticket⟩ := openFetch_find? hp.distinct hopen
  have hserving := (quiet_openFetch hp.distinct hopen).serving hp
  obtain ⟨n, hrun⟩ := runFetch_eq hserving.answers fetch
  have hclose := closeFetch_of_find? (p := opened.withFacets opened.facets n) hserving.distinct
    (hid ▸ hfind) (fetch.kind.answer opened.gateway.store fetch.scope fetch.request)
  rw [if_pos hticket] at hclose
  rw [candidatesFor, hopen]
  dsimp only
  rw [hrun]
  dsimp only
  rw [hclose, hserving.store, hfetch]
  exact ⟨_, rfl⟩

/-! ## the panel after a choice -/

/-- a turn changes the ids of names only where they were not looked up before -/
theorem alike_turn_of_open {closed : String → Bool} {except : List String} {f : Facet}
    (h : closed f.id = false → f.Resolved s) (scope : Scope) :
    (turn s closed except scope f).Alike f := by
  cases hc : closed f.id with
  | false => exact alike_turn (h hc) scope
  | true =>
    have hst := steady_turn s closed except scope f
    have hsel : (turn s closed except scope f).selection = f.selection := by
      unfold turn
      rw [hc]
      split
      · rfl
      · exact f.selection_forget
    refine ⟨hst.kind, hst.values, fun _ => ?_⟩
    rw [hsel]
    exact .refl _

theorem alike_turns_of_open {closed : String → Bool} {except : List String} {fs : List Facet}
    (h : ∀ f ∈ fs, closed f.id = false → f.Resolved s) (done : List Facet) :
    List.Forall₂ Facet.Alike (turns s closed except done fs) fs := by
  have hturns := (List.forall₂_and_left _ _).2 ⟨h, turns_forall₂ s closed except fs done⟩
  refine (hturns.imp ?_).flip
  rintro f g ⟨hf, scope, rfl⟩
  exact alike_turn_of_open hf scope

/-- the only value of a facet after it was selected there -/
theorem values_select_only {f : Facet} (hp : f.Proper) (hm : f.kind.mode = .multi)
    (he : f.values = []) {raw v : String} (hv : f.kind.canonical raw = some v) (info : ValueInfo) :
    (f.select raw info).values = [v] := by
  have hmode : f.selection.mode = .multi := hp.mode.trans hm
  have hnone : f.selection.values = [] := he
  have hsel : f.select raw info = { f with selection := f.selection.select v info } := by
    rw [Facet.select, hv]
  rw [hsel]
  show (f.selection.select v info).values = [v]
  rw [Selection.values_select_multi hmode (by rw [hnone]; exact List.not_mem_nil), hnone]
  rfl

/-- a text facet without a selection says nothing -/
theorem scope_of_none {fs : List Facet} (hd : Distinct fs) {f : Facet} (hf : f ∈ fs)
    {field : TextAttribute} (hk : f.kind = .text field) (he : f.values = []) :
    (queryOf fs).scope = scopeOf fs f.id := by
  have hopen : field.patterns (queryOf (others f.kind fs)).filter = [] := by
    have h := FacetKind.isOpen_others f.kind fs
    rwa [hk] at h ⊢
  have hadd : f.addTo (queryOf (others f.kind fs)) = queryOf (others f.kind fs) := by
    have hsame := FacetKind.setPatterns_of_open hopen
    rw [Facet.addTo, Facet.constrain]
    rw [hk] at hsame ⊢
    dsimp only
    rw [he, hsame]
  rw [queryOf_eq_addTo hd hf, hadd]
  rfl

theorem select_ok {p : Panel} (hp : p.Serving s) {f : Facet} (hf : f ∈ p.facets) (raw : String)
    (info : ValueInfo) : ∃ t n, p.select f.id raw info =
      .ok (t, changed s p (chosen s (scopeOf p.facets f.id) f raw info) n) := by
  obtain ⟨t, q, hq⟩ : ∃ t q, p.select f.id raw info = .ok (t, q) := by
    rw [select, facet_of_mem hp.distinct hf]
    exact ⟨_, _, rfl⟩
  obtain ⟨g, hg, hid, n, rfl⟩ := select_eq_ok hp hq
  obtain rfl : g = f := hp.distinct.eq_of_id hf hg hid
  exact ⟨t, n, hq⟩

/-- the round after a change leaves the values of the changed facet alone -/
theorem values_changed {p : Panel} (hk : p.facets.map (·.kind) = FacetKind.all) (x : Facet)
    (n : Nat) : (changed s p x n).valuesOf x.kind = x.values := by
  have hput : (putIn x p.facets).map (·.kind) = FacetKind.all := (kinds_putIn _ _).trans hk
  have hafter : (changed s p x n).facets.map (·.kind) = FacetKind.all :=
    (kinds_turns _ _ _ _).trans hput
  obtain ⟨f, hf, hkind, -⟩ := exists_valuesOf hk x.kind
  have hx : x ∈ putIn x p.facets := List.mem_map.2 ⟨f, hf, if_pos hkind⟩
  obtain ⟨y, hy, hykind, hyvalues⟩ := exists_valuesOf hafter x.kind
  obtain ⟨z, hz, scope, rfl⟩ := exists_of_forall₂_right (turns_forall₂ s _ _ _ _) hy
  have hst := steady_turn s p.inClosedGroup [x.id] scope z
  have hzx : z = x := (Distinct.of_all hput).eq_of_id hx hz
    (congrArg FacetKind.id (hst.kind.symm.trans hykind))
  rw [hyvalues, hst.values, hzx]

/-- the round after a change of a facet without names leaves the results of the query alone -/
theorem Settled.resultCount_changed {p : Panel} (hp : p.Settled s) {x : Facet}
    (hn : x.kind.isName = false) (n : Nat) : s.resultCount (changed s p x n).query.scope =
      s.resultCount (queryOf (putIn x p.facets)).scope := by
  have hresolved : ∀ f ∈ putIn x p.facets, p.inClosedGroup f.id = false → f.Resolved s := by
    refine forall_putIn hp.names fun _ hname => ?_
    rw [hn] at hname
    cases hname
  exact s.resultCount_congr (queryOf_congr (alike_turns_of_open hresolved [])).scope

/-- to choose a text in an empty facet takes those results that it covers out of what was shown -/
theorem select_text {p : Panel} (hp : p.Settled s) {field : TextAttribute}
    (hnone : p.valuesOf (.text field) = []) {raw v : String}
    (hv : (FacetKind.text field).canonical raw = some v) {info : ValueInfo}
    (hinfo : info.isEmpty = false) :
    ∃ t q, p.select (FacetKind.text field).id raw info = .ok (t, q) ∧
      q.valuesOf (.text field) = [v] ∧ s.resultCount q.query.scope =
        (s.results p.query.scope).countP fun x => Glob.accepts v (field.ofReport x) := by
  obtain ⟨f, hf, hkind, hvalues⟩ := exists_valuesOf hp.kinds (.text field)
  have he : f.values = [] := hvalues.symm.trans hnone
  obtain ⟨t, n, hselect⟩ := select_ok hp.toServing hf raw info
  have hchosen : chosen s (scopeOf p.facets f.id) f raw info = f.select raw info := by
    rw [chosen, hinfo]
    rfl
  have hxkind : (f.select raw info).kind = .text field := (kind_select f raw info).trans hkind
  have hxvalues : (f.select raw info).values = [v] :=
    values_select_only (hp.proper f hf) (by rw [hkind]; rfl) he (hkind ▸ hv) info
  have hid : f.id = (FacetKind.text field).id := congrArg FacetKind.id hkind
  rw [hchosen, hid] at hselect
  generalize f.select raw info = x at hselect hxkind hxvalues
  refine ⟨t, _, hselect, ?_, ?_⟩
  · rw [← hxkind, values_changed hp.kinds, hxvalues]
  · have hput : (putIn x p.facets).map (·.kind) = FacetKind.all := (kinds_putIn _ _).trans hp.kinds
    have hx : x ∈ putIn x p.facets := List.mem_map.2 ⟨f, hf, if_pos (hkind.trans hxkind.symm)⟩
    have hb : x.kind.narrow? v (scopeOf (putIn x p.facets) x.id).filter =
        some (field.setPatterns [v] (scopeOf (putIn x p.facets) x.id).filter) := by
      rw [hxkind]
      rfl
    have hopen : x.kind.IsOpen (scopeOf (putIn x p.facets) x.id).filter :=
      FacetKind.isOpen_others x.kind _
    have hbefore : scopeOf (putIn x p.facets) x.id = p.query.scope := by
      rw [scopeOf_putIn, Facet.id, hxkind, ← hid, query, scope_of_none hp.distinct hf hkind he]
    have hnarrow := FacetKind.narrows_narrow? hopen hb
    rw [hbefore] at hnarrow
    rw [hp.resultCount_changed (by rw [hxkind]; rfl), scope_of_single (.of_all hput) hx hxvalues hb,
      hbefore, s.resultCount_narrowed hnarrow hp.plain.comparison hp.plain.isUnique, hxkind]
    rfl

/-- What an offered text stands for once it is selected. In every state that operations can reach,
while the service answers, without a selection on the other side of a comparison and without unique
mode, with every selected name looked up that a round would look up: whatever is asked for in a text
facet without a selection, candidates come back, and each that is not the typed text comes with the
number of results that have exactly this text. To select it is to select its trimmed form, and then
the results are those that this form covers. For a text that is its own trimmed form the two numbers
are the same exactly when it covers no other text in the results, and so whenever it has no
wildcard. -/
theorem offered_selected (config : Config) (s : Store) (tab : String) (g : Gateway)
    (os : List Operation) :
    let p := (standard config g tab).applyAll os
    p.gateway.store = s → p.gateway.failure = none →
    p.valuesOf (.run .compare) = [] → p.valuesOf (.runTag .compare) = [] →
    "on" ∉ p.valuesOf .unique →
    (∀ f ∈ p.facets, p.inClosedGroup f.id = false → f.Resolved s) →
    ∀ field : TextAttribute, p.valuesOf (.text field) = [] → ∀ r : ItemsRequest,
    let k := FacetKind.text field
    let shown := s.results p.query.scope
    ∃ items q, p.candidatesFor k.id r = (.ok items, q) ∧
      ∀ c ∈ items, c.synthetic = false →
        c.count = some (shown.countP fun x => field.ofReport x == c.value) ∧
        ∀ v, k.canonical c.value = some v →
          ∃ t q', q.select k.id c.value c.info = .ok (t, q') ∧ q'.valuesOf k = [v] ∧
            s.resultCount q'.query.scope =
              (shown.countP fun x => Glob.accepts v (field.ofReport x)) ∧
            (v = c.value →
              (c.count = some (s.resultCount q'.query.scope) ↔
                ∀ x ∈ shown, Glob.accepts v (field.ofReport x) = true → field.ofReport x = v) ∧
              ('*' ∉ v.toList → c.count = some (s.resultCount q'.query.scope))) := by
  intro p hs ha hruns htags hunique hnames field hempty r k shown
  have hc : p.Complete config tab := complete_standard config g tab os
  have hp : p.Settled s := ⟨⟨hc.distinct, hs, ha⟩, hc.kinds,
    .of_valuesOf hc.kinds hruns htags hunique, proper_applyAll config g tab os, hnames⟩
  obtain ⟨f, hf, hkind, hvalues⟩ := exists_valuesOf hc.kinds (.text field)
  have hid : f.id = k.id := congrArg FacetKind.id hkind
  have hscope : p.query.scope = scopeOf p.facets k.id := by
    rw [← hid]
    exact scope_of_none hc.distinct hf hkind (hvalues.symm.trans hempty)
  obtain ⟨q, hq⟩ := candidatesFor_ok hp.toServing hf r
  have hquiet : p.Quiet q := by
    have h := quiet_candidatesFor hc.distinct f.id r
    rwa [hq] at h
  rw [hid] at hq
  refine ⟨_, q, hq, fun c hmem htyped => ?_⟩
  have hcount : c.count = some (shown.countP fun x => field.ofReport x == c.value) := by
    rw [hkind, ← hscope] at hmem
    have hopen : field.patterns p.query.scope.filter = [] := by
      rw [hscope]
      exact FacetKind.isOpen_others k p.facets
    exact FacetKind.count_of_offered hopen hmem htyped
  refine ⟨hcount, fun v hv => ?_⟩
  have hinfo : c.info.isEmpty = false := by
    rw [Candidate.info, hcount]
    rfl
  obtain ⟨t, q', hselect, hone, hresults⟩ := select_text (hp.quiet hquiet)
    ((hp.valuesOf_quiet hquiet _).trans hempty) hv hinfo
  have hquery : q.query = p.query := queryOf_of_cores hquiet.cores
  rw [hquery] at hresults
  refine ⟨t, q', hselect, hone, hresults, fun hown => ?_⟩
  have hiff : c.count = some (s.resultCount q'.query.scope) ↔
      ∀ x ∈ shown, Glob.accepts v (field.ofReport x) = true → field.ofReport x = v := by
    rw [hcount, hresults, Option.some.injEq, ← hown, countP_eq_iff fun x _ hx => ?_]
    · simp only [beq_iff_eq]
    · rw [beq_iff_eq.1 hx]
      exact Glob.accepts_self v
  exact ⟨hiff, fun hplain => hiff.2 fun x _ hx => ((Glob.accepts_iff_eq hplain _).1 hx).symm⟩

/-- without a search a text facet offers everything in stock -/
theorem offered_of_stock {p : Panel} (hp : p.Serving s)
    (hk : p.facets.map (·.kind) = FacetKind.all) (field : TextAttribute) (c : Candidate)
    (hc : c ∈ (FacetKind.text field).stock s (scopeOf p.facets (FacetKind.text field).id)) :
    ∃ items q, p.candidatesFor (FacetKind.text field).id {} = (.ok items, q) ∧ c ∈ items := by
  obtain ⟨f, hf, hkind, -⟩ := exists_valuesOf hk (.text field)
  obtain ⟨q, hq⟩ := candidatesFor_ok hp hf {}
  rw [Facet.id, hkind] at hq
  exact ⟨_, q, hq, (answer_all_perm s field _).mem_iff.2 hc⟩

/-- names that a choice does not take as they are: a wildcard, a blank in front, nothing at all -/
def oddNames : Store where
  runs := [⟨1, "alpha"⟩, ⟨2, "beta"⟩]
  reports :=
    [{ id := 1, runId := 1, bugHash := "h1", filePath := "/a*", checkerName := " c",
       checkerMsg := "", severity := .low, detectedAt := 0 },
     { id := 2, runId := 1, bugHash := "h2", filePath := "/ab", checkerName := "d",
       checkerMsg := "m", severity := .low, detectedAt := 0 },
     { id := 3, runId := 2, bugHash := "h3", filePath := "/b.c", checkerName := "d",
       checkerMsg := "m", severity := .low, detectedAt := 0 }]

theorem offered_selected_oddNames :
    let p := (standard {} { store := oddNames } "reports").applyAll []
    ∃ items q, p.candidatesFor "filepath" {} = (.ok items, q) ∧
      ∃ c ∈ items, c.value = "/ab" ∧ ∃ t q', q.select "filepath" c.value c.info = .ok (t, q') ∧
        c.count = some (oddNames.resultCount q'.query.scope) := by
  intro p
  have hfresh : ∀ f ∈ p.facets, f.selection.items = [] := by decide +kernel
  obtain ⟨items, q, hq, hitems⟩ := offered_selected {} oddNames "reports" { store := oddNames } []
    rfl rfl (by decide +kernel) (by decide +kernel) (by decide +kernel)
    (fun f hf _ _ i hi => by rw [hfresh f hf] at hi; cases hi) .filePath (by decide +kernel) {}
  obtain ⟨found, q₀, hq₀, hmem⟩ := offered_of_stock (serving_standard {} oddNames "reports")
    (by decide +kernel) .filePath (.counted "/ab" 1) (by decide +kernel)
  obtain ⟨rfl, rfl⟩ : found = items ∧ q₀ = q := by
    have h := hq₀.symm.trans hq
    rw [Prod.mk.injEq, Except.ok.injEq] at h
    exact h
  obtain ⟨-, hselected⟩ := hitems _ hmem rfl
  obtain ⟨t, q', hselect, -, -, hown⟩ := hselected "/ab" (by decide +kernel)
  exact ⟨_, _, hq, _, hmem, rfl, t, q', hselect, (hown rfl).2 (by decide)⟩

/-- the candidate is offered without a search, and so many results are shown once it is selected -/
def OfferedThenShown (p : Panel) (id : String) (c : Candidate) (n : Nat) : Prop :=
  ∃ items q, p.candidatesFor id {} = (.ok items, q) ∧ c ∈ items ∧ c.synthetic = false ∧
    ∃ t q', q.select id c.value c.info = .ok (t, q') ∧
      q'.gateway.store.resultCount q'.query.scope = n

theorem offeredThenShown_of_stock {p : Panel} (hp : p.Serving s)
    (hk : p.facets.map (·.kind) = FacetKind.all) (field : TextAttribute) {c : Candidate}
    (hc : c ∈ (FacetKind.text field).stock s (scopeOf p.facets (FacetKind.text field).id))
    (hsyn : c.synthetic = false) {n : Nat}
    (hn : ((p.candidatesFor (FacetKind.text field).id {}).2.select (FacetKind.text field).id
      c.value c.info).toOption.map
        (fun x => x.2.gateway.store.resultCount x.2.query.scope) = some n) :
    p.OfferedThenShown (FacetKind.text field).id c n := by
  obtain ⟨items, q, hq, hmem⟩ := offered_of_stock hp hk field c hc
  rw [hq] at hn
  obtain ⟨⟨t, q'⟩, hselect, hcount⟩ := Option.map_eq_some_iff.1 hn
  refine ⟨items, q, hq, hmem, hsyn, t, q', ?_, hcount⟩
  cases hs : q.select (FacetKind.text field).id c.value c.info with
  | error e =>
    rw [hs] at hselect
    cases hselect
  | ok chosen =>
    rw [hs] at hselect
    exact congrArg Except.ok (Option.some.inj hselect)

/-- the panel is shown -/
def shownOnly : List Operation := [.request (.appear {} .deepLink)]

/-- the panel is shown, and the run alpha chosen with the id of beta -/
def wrongIds : List Operation :=
  [.request (.appear {} .deepLink), .request (.select "run" "alpha" ⟨some 1, [2]⟩)]

/-- A wildcard covers other names, a blank is trimmed away, and nothing cannot be selected; and a name
of a run that came with other ids is looked up after the offer.  All this on a panel that is ready,
compares nothing, shows every report and has nothing selected in its text facets, while the service
answers. -/
theorem offered_otherwise :
    let p := (standard {} { store := oddNames } "reports").applyAll shownOnly
    let q := (standard {} { store := oddNames } "reports").applyAll wrongIds
    (∀ r ∈ [p, q], r.phase = .ready ∧
      (r.gateway.store = oddNames ∧ r.gateway.failure = none) ∧
      (∀ k ∈ [FacetKind.run .compare, .runTag .compare, .unique], r.valuesOf k = []) ∧
      ∀ field ∈ [TextAttribute.filePath, .checkerName, .checkerMsg],
        r.valuesOf (.text field) = []) ∧
    p.OfferedThenShown "filepath" (.counted "/a*" 1) 2 ∧
    p.OfferedThenShown "checker-name" (.counted " c" 1) 0 ∧
    p.OfferedThenShown "checker-msg" (.counted "" 1) 3 ∧
    q.OfferedThenShown "filepath" (.counted "/b.c" 1) 0 := by
  intro p q
  have hp := complete_standard {} { store := oddNames } "reports" shownOnly
  have hq := complete_standard {} { store := oddNames } "reports" wrongIds
  have hserving : p.Serving oddNames := ⟨hp.distinct, by decide +kernel, by decide +kernel⟩
  have hserving' : q.Serving oddNames := ⟨hq.distinct, by decide +kernel, by decide +kernel⟩
  refine ⟨by decide +kernel, ?_, ?_, ?_, ?_⟩
  · exact offeredThenShown_of_stock hserving hp.kinds .filePath (by decide +kernel) rfl
      (by decide +kernel)
  · exact offeredThenShown_of_stock hserving hp.kinds .checkerName (by decide +kernel) rfl
      (by decide +kernel)
  · exact offeredThenShown_of_stock hserving hp.kinds .checkerMsg (by decide +kernel) rfl
      (by decide +kernel)
  · exact offeredThenShown_of_stock hserving' hq.kinds .filePath (by decide +kernel) rfl
      (by decide +kernel)

end Panel

end Triage
