import Mathlib.Data.List.Perm.Basic
import Triage.Facet.State
import Triage.Proofs.Scopes

/-!
# What the service answers to a facet

While every call succeeds, the candidates that a facet offers are a function of the stored reports:

* `FacetKind.answer`     that function, and `FacetKind.calls` the number of calls it takes
                         (`offers_run`);
* `OnlyCounts m`         asking changes nothing about a service, whether it answers or fails, but the
                         number of calls (`onlyCounts_offers`);
* `FacetKind.stock`      all values that a facet with counts can offer, in stored order;
* `FacetKind.finding`    what the stock says about one selected value: the sum of the counts, and all
                         ids, of what the value covers;
* `observed_answer`      a refresh observes for each selected value what the stock says about it,
                         whatever else is selected: the ranking of the answer does not matter;
* `finding_ids`          the ids are those of the runs or tags that the value covers
                         (`FacetKind.namedIds`), under every scope;
* `answer_congr`, `finding_congr`   alike scopes have the same answers and the same findings.
-/

namespace Triage

namespace FacetKind

/-! ## the answer as a function of the store -/

def codeAnswer {α : Type} [Coded α] [BEq α] (key : Report → α) (s : Store) (scope : Scope) :
    List Candidate :=
  (Coded.all : List α).map fun a => .counted (Coded.label a) (countFor (s.codesOf key scope) a)

/-- the number of results for a comparison type in place of the chosen one -/
def diffTypeCount (s : Store) (scope : Scope) (c : Comparison) (d : DiffType) : Nat :=
  s.resultCount { scope with comparison := some { c with diffType := d } }

def diffTypeAnswer (s : Store) (scope : Scope) : List Candidate :=
  match scope.comparison with
  | some c => (Coded.all : List DiffType).map fun d =>
      .counted (Coded.label d) (diffTypeCount s scope c d)
  | none => (Coded.all : List DiffType).map fun d => .plain (Coded.label d)

def runRow (row : RunTally) : Candidate := .identified row.name row.count row.runId

def tagRow (row : TagTally) : Candidate := .identified row.token row.count row.tagId

def nameRow (row : NameTally) : Candidate := .counted row.name row.count

def answer : FacetKind → Store → Scope → ItemsRequest → List Candidate
  | .run _, s, scope, r => r.offer ((r.page.slice (s.runCounts scope r.patterns)).map runRow)
  | .runTag _, s, scope, r => r.offer ((r.page.slice (s.tagCounts scope r.patterns)).map tagRow)
  | .diffType, s, scope, r => r.retain (diffTypeAnswer s scope)
  | .unique, _, _, _ => [.plain "on", .plain "off"]
  | .reviewStatus, s, scope, r => r.retain (codeAnswer (·.reviewStatus) s scope)
  | .detectionStatus, s, scope, r => r.retain (codeAnswer (·.detectionStatus) s scope)
  | .severity, s, scope, r => r.retain (codeAnswer (·.severity) s scope)
  | .pathLength, _, _, _ | .date _, _, _, _ => []
  | .text field, s, scope, r =>
    r.offer ((r.page.slice (s.namesOf field (scope.withTexts field r.patterns))).map nameRow)
  | .component, s, scope, r =>
    r.offer ((r.page.slice (s.componentCounts (scope.withComponents r.patterns))).map nameRow)
  | .reportHash, _, _, r => r.prependTyped []

/-- the calls that an answer takes: one, or one for each comparison type -/
def calls : FacetKind → Scope → Nat
  | .diffType, scope => if scope.comparison.isSome then (Coded.all : List DiffType).length else 0
  | .unique, _ | .pathLength, _ | .date _, _ | .reportHash, _ => 0
  | _, _ => 1

theorem countDiffTypes_run (scope : Scope) (c : Comparison) (ds : List DiffType) {g : Gateway}
    (h : g.failure = none) :
    (countDiffTypes scope c ds).run.run g =
      (.ok (ds.map fun d => .counted (Coded.label d) (diffTypeCount g.store scope c d)),
        { g with calls := g.calls + ds.length }) := by
  induction ds generalizing g with
  | nil => rfl
  | cons d ds ih =>
    have hg : g.counted.failure = none := h
    rw [countDiffTypes, Gateway.run_bind, Gateway.run_ask_of_none _ h]
    show ((countDiffTypes scope c ds) >>= _ : Ask _).run.run g.counted = _
    rw [Gateway.run_bind, ih hg]
    show (Except.ok _, _) = _
    simp only [Gateway.counted, diffTypeCount, List.map_cons, List.length_cons]
    rw [Nat.add_assoc, Nat.add_comm 1]

/-- one call, and then a function of its answer -/
theorem ask_map_run {α β : Type} (f : Store → α) (h : α → β) {g : Gateway}
    (hg : g.failure = none) :
    (Gateway.ask f >>= fun a => (pure (h a) : Ask β)).run.run g =
      (.ok (h (f g.store)), g.counted) := by
  rw [Gateway.run_bind, Gateway.run_ask_of_none f hg]
  rfl

theorem offers_run (k : FacetKind) (scope : Scope) (r : ItemsRequest) {g : Gateway}
    (h : g.failure = none) :
    (k.offers scope r).run.run g =
      (.ok (k.answer g.store scope r), { g with calls := g.calls + k.calls scope }) := by
  cases k with
  | run side => exact ask_map_run _ _ h
  | runTag side => exact ask_map_run _ _ h
  | reviewStatus => exact ask_map_run _ _ h
  | detectionStatus => exact ask_map_run _ _ h
  | severity => exact ask_map_run _ _ h
  | text field => exact ask_map_run _ _ h
  | component => exact ask_map_run _ _ h
  | unique => rfl
  | pathLength => rfl
  | date field => rfl
  | reportHash => rfl
  | diffType =>
    obtain ⟨runIds, filter, comparison⟩ := scope
    cases comparison with
    | none => rfl
    | some c =>
      show ((countDiffTypes _ c Coded.all) >>= _ : Ask _).run.run g = _
      rw [Gateway.run_bind, countDiffTypes_run _ c _ h]
      rfl

end FacetKind

/-! ## a service that need not answer -/

/-- the computation changes nothing about the service but the number of calls -/
def OnlyCounts {α : Type} (m : Ask α) : Prop :=
  ∀ g : Gateway, ∃ n, (m.run.run g).2 = { g with calls := g.calls + n }

theorem onlyCounts_pure {α : Type} (a : α) : OnlyCounts (pure a : Ask α) := fun _ => ⟨0, rfl⟩

theorem onlyCounts_ask {α : Type} (f : Store → α) : OnlyCounts (Gateway.ask f) := by
  intro g
  refine ⟨1, ?_⟩
  show ((Gateway.ask f).run.run g).2 = g.counted
  cases h : g.failure with
  | none => rw [Gateway.run_ask_of_none f h]
  | some e => rw [Gateway.run_ask_of_some f h]

theorem OnlyCounts.bind {α β : Type} {m : Ask α} {f : α → Ask β} (hm : OnlyCounts m)
    (hf : ∀ a, OnlyCounts (f a)) : OnlyCounts (m >>= f) := by
  intro g
  obtain ⟨n, hn⟩ := hm g
  rw [Gateway.run_bind]
  cases hr : m.run.run g with
  | mk answer g' =>
    rw [hr] at hn
    cases answer with
    | error e => exact ⟨n, hn⟩
    | ok a =>
      obtain ⟨k, hk⟩ := hf a g'
      refine ⟨n + k, hk.trans ?_⟩
      subst hn
      simp only [Nat.add_assoc]

namespace FacetKind

theorem onlyCounts_countDiffTypes (scope : Scope) (c : Comparison) (ds : List DiffType) :
    OnlyCounts (countDiffTypes scope c ds) := by
  induction ds with
  | nil => exact onlyCounts_pure _
  | cons d ds ih => exact (onlyCounts_ask _).bind fun _ => ih.bind fun _ => onlyCounts_pure _

/-- whether it answers or fails, a service that is asked for candidates only counts the calls -/
theorem onlyCounts_offers (k : FacetKind) (scope : Scope) (r : ItemsRequest) :
    OnlyCounts (k.offers scope r) := by
  cases k with
  | run | runTag | reviewStatus | detectionStatus | severity | text | component =>
    exact (onlyCounts_ask _).bind fun _ => onlyCounts_pure _
  | unique | pathLength | date | reportHash => exact onlyCounts_pure _
  | diffType =>
    obtain ⟨runIds, filter, comparison⟩ := scope
    cases comparison with
    | none => exact onlyCounts_pure _
    | some c => exact (onlyCounts_countDiffTypes _ c _).bind fun _ => onlyCounts_pure _

end FacetKind

/-! ## the stock behind an answer -/

namespace Store

def tallyOfRun (s : Store) (scope : Scope) (r : Run) : RunTally :=
  ⟨r.id, r.name, s.resultCount { scope with runIds := [r.id] }⟩

/-- a tag with the name of its run; none if that run is not stored -/
def tallyOfTag (s : Store) (scope : Scope) (t : RunTag) : Option TagTally :=
  (s.nameOfRun? t.runId).map fun runName =>
    ⟨t.id, runName, t.tag,
      s.resultCount { scope with filter := { scope.filter with runTag := [t.id] } }⟩

def tallyOfComponent (s : Store) (scope : Scope) (c : Component) : NameTally :=
  let rows := s.results { scope with filter := { scope.filter with componentNames := [] } }
  ⟨c.name, (rows.filter fun r => c.covers r.filePath).length⟩

/-- the texts that occur in the results -/
def namesIn (s : Store) (field : TextAttribute) (scope : Scope) : List String :=
  firstOfEach id (s.textsOf field scope)

def tallyOfText (s : Store) (field : TextAttribute) (scope : Scope) (name : String) : NameTally :=
  ⟨name, (s.textsOf field scope).count name⟩

end Store

namespace FacetKind

/-- all values of a facet with counts -/
def stock : FacetKind → Store → Scope → List Candidate
  | .run _, s, scope => (s.runs.map (s.tallyOfRun scope)).map runRow
  | .runTag _, s, scope => (s.tags.filterMap (s.tallyOfTag scope)).map tagRow
  | .reviewStatus, s, scope => codeAnswer (·.reviewStatus) s scope
  | .detectionStatus, s, scope => codeAnswer (·.detectionStatus) s scope
  | .severity, s, scope => codeAnswer (·.severity) s scope
  | .text field, s, scope =>
    ((s.namesIn field scope).map (s.tallyOfText field scope)).map nameRow
  | .component, s, scope => (s.components.map (s.tallyOfComponent scope)).map nameRow
  | .diffType, _, _ | .unique, _, _ | .pathLength, _, _ | .date _, _, _ | .reportHash, _, _ => []

/-- what the stock says about a selected value -/
def finding (k : FacetKind) (s : Store) (scope : Scope) (value : String) : ValueInfo :=
  Facet.observed (k.stock s scope) value

end FacetKind

theorem ranked_perm {α : Type} (count : α → Nat) (name : α → List String) (as : List α) :
    (ranked count name as).Perm as := List.mergeSort_perm _ _

theorem wanted_eq_anyGlob {vs : List String} (h : vs ≠ []) (text : String) :
    wanted vs text = anyGlob vs text := by
  cases vs with
  | nil => exact absurd rfl h
  | cons v vs => rfl

theorem TextAttribute.setPatterns_setPatterns (field : TextAttribute) (ps qs : List String)
    (f : ReportFilter) :
    field.setPatterns ps (field.setPatterns qs f) = field.setPatterns ps f := by
  cases field <;> rfl

theorem TextAttribute.patterns_setPatterns (field : TextAttribute) (ps : List String)
    (f : ReportFilter) : field.patterns (field.setPatterns ps f) = ps := by
  cases field <;> rfl

theorem Store.textsOf_withTexts (s : Store) (field : TextAttribute) (scope : Scope)
    (ps : List String) : s.textsOf field (scope.withTexts field ps) = s.textsOf field scope := by
  rw [textsOf, textsOf, Scope.withTexts]
  simp only [TextAttribute.setPatterns_setPatterns]

namespace FacetKind

/-- Rows are ranked, cut down to what the values cover, or both: nothing else happens to them. -/
theorem filter_ranked_perm {α β : Type} (count : β → Nat) (name : β → List String) (as : List α)
    (tally : α → β) (row : β → Candidate) (text : α → String) (vs : List String) (hvs : vs ≠ [])
    (ht : ∀ a, (row (tally a)).value = text a) :
    (((ranked count name ((as.filter fun a => wanted vs (text a)).map tally)).map row).filter
      fun c => anyGlob vs c.value).Perm
      (((as.map tally).map row).filter fun c => anyGlob vs c.value) := by
  refine (((ranked_perm count name _).map row).filter _).trans (List.Perm.of_eq ?_)
  simp only [List.map_map, List.filter_map, List.filter_filter]
  refine congrArg _ (List.filter_congr fun a _ => ?_)
  simp only [Function.comp, ht, wanted_eq_anyGlob hvs, Bool.and_self]

theorem tagCounts_eq (s : Store) (scope : Scope) (vs : List String) :
    s.tagCounts scope vs = ranked (·.count) (fun t => [t.runName, t.tag])
      ((s.tags.filterMap (s.tallyOfTag scope)).filter fun t => wanted vs t.token) := by
  rw [List.filter_filterMap]
  refine congrArg (ranked (·.count) fun t : TagTally => [t.runName, t.tag]) ?_
  refine List.filterMap_congr fun t _ => ?_
  rw [Store.tallyOfTag]
  cases s.nameOfRun? t.runId with
  | none => rfl
  | some runName =>
    show (if _ then _ else _) = (Option.filter _ (some _))
    rw [Option.filter_some]
    rfl

/-- the answer for some values is what they cover of the stock, in another order -/
theorem answer_ofValues_perm (k : FacetKind) (hk : k.isCountSensitive = true) (s : Store)
    (scope : Scope) {vs : List String} (hvs : vs ≠ []) :
    (k.answer s scope (.ofValues vs)).Perm
      ((k.stock s scope).filter fun c => anyGlob vs c.value) := by
  cases k with
  | run side =>
    exact filter_ranked_perm _ _ s.runs (s.tallyOfRun scope) runRow (·.name) vs hvs fun _ => rfl
  | runTag side =>
    show (((s.tagCounts scope vs).map tagRow).filter _).Perm _
    rw [tagCounts_eq]
    have h := filter_ranked_perm (·.count) (fun t => [t.runName, t.tag])
      (s.tags.filterMap (s.tallyOfTag scope)) (fun t => t) tagRow (·.token) vs hvs fun _ => rfl
    rwa [List.map_id', List.map_id'] at h
  | reviewStatus => exact .refl _
  | detectionStatus => exact .refl _
  | severity => exact .refl _
  | text field =>
    show (((s.namesOf field (scope.withTexts field vs)).map nameRow).filter _).Perm _
    rw [Store.namesOf, Store.textsOf_withTexts]
    have hp : field.patterns (scope.withTexts field vs).filter = vs :=
      field.patterns_setPatterns vs _
    rw [hp]
    exact filter_ranked_perm _ _ _ (s.tallyOfText field scope) nameRow (fun n => n) vs hvs
      fun _ => rfl
  | component =>
    exact filter_ranked_perm _ _ s.components (s.tallyOfComponent scope) nameRow (·.name) vs hvs
      fun _ => rfl
  | diffType => exact absurd hk (by decide)
  | unique => exact absurd hk (by decide)
  | pathLength => exact absurd hk (by decide)
  | date field => exact absurd hk (by cases field <;> decide)
  | reportHash => exact absurd hk (by decide)

end FacetKind

/-! ## what a refresh observes -/

/-- the same count, and the same ids in whatever order -/
structure ValueInfo.Alike (a b : ValueInfo) : Prop where
  count : a.count = b.count
  ids : SameIds a.ids b.ids

namespace ValueInfo.Alike

theorem refl (a : ValueInfo) : a.Alike a := ⟨rfl, .refl _⟩
theorem symm {a b : ValueInfo} (h : a.Alike b) : b.Alike a := ⟨h.count.symm, h.ids.symm⟩
theorem trans {a b c : ValueInfo} (h : a.Alike b) (k : b.Alike c) : a.Alike c :=
  ⟨h.count.trans k.count, h.ids.trans k.ids⟩

end ValueInfo.Alike

namespace Facet

/-- the rows that a value covers -/
def covered (items : List Candidate) (value : String) : List Candidate :=
  items.filter fun c => !c.synthetic && Glob.accepts value c.value

/-- the counts of some rows together; a row without a count adds nothing -/
def total (rows : List Candidate) : Nat := rows.foldr (fun c n => c.count.getD 0 + n) 0

theorem total_cons (c : Candidate) (rows : List Candidate) :
    total (c :: rows) = c.count.getD 0 + total rows := rfl

theorem total_perm {a b : List Candidate} (h : a.Perm b) : total a = total b := by
  induction h with
  | nil => rfl
  | cons c _ ih => rw [total_cons, total_cons, ih]
  | swap c d rows =>
    rw [total_cons, total_cons, total_cons, total_cons]
    omega
  | trans _ _ ih ih' => exact ih.trans ih'

theorem observed_eq (items : List Candidate) (value : String) :
    observed items value =
      ⟨some (total (covered items value)), (covered items value).filterMap (·.id)⟩ := rfl

/-- the order of an answer does not matter -/
theorem observed_perm {a b : List Candidate} (h : a.Perm b) (value : String) :
    (observed a value).Alike (observed b value) := by
  have hc : (covered a value).Perm (covered b value) := h.filter _
  rw [observed_eq, observed_eq]
  exact ⟨congrArg some (total_perm hc), fun x => (hc.filterMap _).mem_iff⟩

theorem anyGlob_of_mem {vs : List String} {v text : String} (hv : v ∈ vs)
    (h : Glob.accepts v text = true) : anyGlob vs text = true := List.any_eq_true.2 ⟨v, hv, h⟩

/-- what the other values cover does not matter -/
theorem observed_filter {vs : List String} {v : String} (hv : v ∈ vs) (items : List Candidate) :
    observed (items.filter fun c => anyGlob vs c.value) v = observed items v := by
  have e : covered (items.filter fun c => anyGlob vs c.value) v = covered items v := by
    rw [covered, covered, List.filter_filter]
    refine List.filter_congr fun c _ => ?_
    cases h : Glob.accepts v c.value with
    | false => rw [Bool.and_false, Bool.false_and]
    | true => rw [anyGlob_of_mem hv h, Bool.and_true, Bool.and_true]
  rw [observed_eq, observed_eq, e]

end Facet

/-- a refresh observes what the stock says about each value, whatever else is selected -/
theorem FacetKind.observed_answer (k : FacetKind) (hk : k.isCountSensitive = true) (s : Store)
    (scope : Scope) {vs : List String} {v : String} (hv : v ∈ vs) :
    (Facet.observed (k.answer s scope (.ofValues vs)) v).Alike (k.finding s scope v) := by
  have h := Facet.observed_perm (k.answer_ofValues_perm hk s scope (List.ne_nil_of_mem hv)) v
  rwa [Facet.observed_filter hv] at h

/-! ## the ids of a name -/

namespace FacetKind

/-- the value is the name of a run or of a tag -/
def isName : FacetKind → Bool
  | .run _ | .runTag _ => true
  | _ => false

theorem isCountSensitive_of_isName {k : FacetKind} (h : k.isName = true) :
    k.isCountSensitive = true := by
  cases k <;> first | rfl | exact absurd h (by simp [isName])

/-- the token of a tag whose run is stored -/
def tokenOf? (s : Store) (t : RunTag) : Option String :=
  (s.nameOfRun? t.runId).map fun runName => tagToken runName t.tag

/-- the ids of the runs, or of the tags of stored runs, that a value covers -/
def namedIds : FacetKind → Store → String → List Int
  | .run _, s, v => (s.runs.filter fun r => Glob.accepts v r.name).map (·.id)
  | .runTag _, s, v => (s.tags.filter fun t => (tokenOf? s t).any (Glob.accepts v)).map (·.id)
  | _, _, _ => []

theorem ids_codeAnswer {α : Type} [Coded α] [BEq α] (key : Report → α) (s : Store) (scope : Scope)
    (v : String) : (Facet.observed (codeAnswer key s scope) v).ids = [] := by
  rw [Facet.observed_eq]
  refine List.filterMap_eq_nil_iff.2 fun c hc => ?_
  obtain ⟨a, -, rfl⟩ := List.mem_map.1 (List.mem_filter.1 hc).1
  rfl

theorem ids_nameRows (rows : List NameTally) (v : String) :
    (Facet.observed (rows.map nameRow) v).ids = [] := by
  rw [Facet.observed_eq]
  refine List.filterMap_eq_nil_iff.2 fun c hc => ?_
  obtain ⟨a, -, rfl⟩ := List.mem_map.1 (List.mem_filter.1 hc).1
  rfl

theorem ids_tagRows (s : Store) (scope : Scope) (v : String) (tags : List RunTag) :
    (Facet.observed ((tags.filterMap (s.tallyOfTag scope)).map tagRow) v).ids =
      (tags.filter fun t => (tokenOf? s t).any (Glob.accepts v)).map (·.id) := by
  rw [Facet.observed_eq]
  show (Facet.covered _ v).filterMap _ = _
  induction tags with
  | nil => rfl
  | cons t tags ih =>
    rw [List.filterMap_cons, List.filter_cons]
    cases hn : s.nameOfRun? t.runId with
    | none =>
      have h1 : s.tallyOfTag scope t = none := by rw [Store.tallyOfTag, hn]; rfl
      have h2 : tokenOf? s t = none := by rw [tokenOf?, hn]; rfl
      rw [h1, h2]
      exact ih
    | some name =>
      have h2 : tokenOf? s t = some (tagToken name t.tag) := by rw [tokenOf?, hn]; rfl
      rw [h2, Store.tallyOfTag, hn]
      show (Facet.covered (tagRow _ :: _) v).filterMap _ = _
      rw [Facet.covered, List.filter_cons]
      show (if Glob.accepts v (tagToken name t.tag) = true then _ else _ : List _).filterMap _ =
        (if Glob.accepts v (tagToken name t.tag) = true then _ else _ : List _).map _
      split
      · exact congrArg (t.id :: ·) ih
      · exact ih

/-- the ids of a name do not depend on the scope -/
theorem finding_ids (k : FacetKind) (s : Store) (scope : Scope) (v : String) :
    (k.finding s scope v).ids = k.namedIds s v := by
  cases k with
  | run side =>
    show (Facet.observed ((s.runs.map (s.tallyOfRun scope)).map runRow) v).ids = _
    rw [Facet.observed_eq]
    show (Facet.covered _ v).filterMap _ = _
    rw [Facet.covered, List.map_map, List.filter_map, List.filterMap_map]
    exact List.filterMap_eq_map (f := fun r : Run => r.id) ▸ rfl
  | runTag side => exact ids_tagRows s scope v s.tags
  | reviewStatus => exact ids_codeAnswer _ s scope v
  | detectionStatus => exact ids_codeAnswer _ s scope v
  | severity => exact ids_codeAnswer _ s scope v
  | text field => exact ids_nameRows _ v
  | component => exact ids_nameRows _ v
  | diffType => rfl
  | unique => rfl
  | pathLength => rfl
  | date field => rfl
  | reportHash => rfl

/-! ## alike scopes -/

theorem codeAnswer_congr {α : Type} [Coded α] [BEq α] (key : Report → α) (s : Store) {a b : Scope}
    (h : a.Alike b) : codeAnswer key s a = codeAnswer key s b := by
  rw [codeAnswer, codeAnswer, s.codesOf_congr key h]

theorem diffTypeCount_congr (s : Store) {a b : Scope} (h : a.Alike b) {c d : Comparison}
    (k : c.Alike d) (t : DiffType) : diffTypeCount s a c t = diffTypeCount s b d t :=
  s.resultCount_congr ⟨h.runIds, h.filter, .some ⟨k.runIds, k.runTag, rfl⟩⟩

theorem diffTypeAnswer_congr (s : Store) {a b : Scope} (h : a.Alike b) :
    diffTypeAnswer s a = diffTypeAnswer s b := by
  have hc := h.comparison
  rw [diffTypeAnswer, diffTypeAnswer]
  cases ha : a.comparison <;> cases hb : b.comparison <;> rw [ha, hb] at hc
  · cases hc
  · cases hc
  · cases hc with
    | some k =>
      refine List.map_congr_left fun t _ => ?_
      rw [diffTypeCount_congr s h k]

theorem withTexts_congr {a b : Scope} (h : a.Alike b) (field : TextAttribute) (ps : List String) :
    (a.withTexts field ps).Alike (b.withTexts field ps) :=
  ⟨h.runIds, h.filter.setPatterns field ps, h.comparison⟩

theorem withComponents_congr {a b : Scope} (h : a.Alike b) (ps : List String) :
    (a.withComponents ps).Alike (b.withComponents ps) :=
  ⟨h.runIds, h.filter.setComponents ps, h.comparison⟩

/-- the order of the ids in a scope does not show in an answer -/
theorem answer_congr (k : FacetKind) (s : Store) {a b : Scope} (h : a.Alike b)
    (r : ItemsRequest) : k.answer s a r = k.answer s b r := by
  cases k with
  | run side => rw [answer, answer, s.runCounts_congr h]
  | runTag side => rw [answer, answer, s.tagCounts_congr h]
  | reviewStatus => rw [answer, answer, codeAnswer_congr _ s h]
  | detectionStatus => rw [answer, answer, codeAnswer_congr _ s h]
  | severity => rw [answer, answer, codeAnswer_congr _ s h]
  | text field => rw [answer, answer, s.namesOf_congr field (withTexts_congr h field _)]
  | component => rw [answer, answer, s.componentCounts_congr (withComponents_congr h _)]
  | diffType => rw [answer, answer, diffTypeAnswer_congr s h]
  | unique => rfl
  | pathLength => rfl
  | date field => rfl
  | reportHash => rfl

/-- nor does it show in what is known about a value -/
theorem finding_congr (k : FacetKind) (hk : k.isCountSensitive = true) (s : Store) {a b : Scope}
    (h : a.Alike b) (v : String) : (k.finding s a v).Alike (k.finding s b v) := by
  have ha := k.observed_answer hk s a (List.mem_singleton_self v)
  have hb := k.observed_answer hk s b (List.mem_singleton_self v)
  rw [k.answer_congr s h] at ha
  exact ha.symm.trans hb

end FacetKind

end Triage
