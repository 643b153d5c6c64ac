import Triage.Proofs.Narrowing
import Triage.Proofs.OwnConditions
import Triage.Proofs.Patterns

/-!
# What the count of a selected value says

The service groups reports by an attribute, and a refresh adds up the groups that a selected value
covers; to show the results the service checks every report against the whole filter.  Both come to
the same number:

* `FacetKind.narrow?`       the filter with just one value in the list of an attribute;
* `FacetKind.finding_count`   what the stock says about a value is how many results it covers
                              (`covered_codeAnswer`, `total_covered_names`);
* `Panel.scope_of_single`   a facet with one value narrows what the other facets leave to this value;
* `Panel.counted_of_mem_turns`   after a round the counts are those of the scope that the facets end
                            up with, for names of runs and tags have their turn before the rest;
* `Panel.selected_counts`   so the count of a selected value is the number of results it stands for.
-/

namespace Triage

namespace FacetKind

/-! ## one value of an attribute -/

/-- the facets that put the values of one attribute of a report into the filter -/
def attributes : List FacetKind :=
  [.severity, .reviewStatus, .detectionStatus, .text .filePath, .text .checkerName,
   .text .checkerMsg]

theorem counted_of_attributes :
    ∀ k ∈ attributes, k.isName = false ∧ k.isCountSensitive = true := by decide

/-- the filter with just this value in the list of the attribute -/
def narrow? : FacetKind → String → ReportFilter → Option ReportFilter
  | .severity, v, f => (Coded.ofLabel? v).map fun a => { f with severity := [a] }
  | .reviewStatus, v, f => (Coded.ofLabel? v).map fun a => { f with reviewStatus := [a] }
  | .detectionStatus, v, f => (Coded.ofLabel? v).map fun a => { f with detectionStatus := [a] }
  | .text field, v, f => some (field.setPatterns [v] f)
  | _, _, _ => none

/-- the list of the attribute is empty -/
def IsOpen : FacetKind → ReportFilter → Prop
  | .severity, f => f.severity = []
  | .reviewStatus, f => f.reviewStatus = []
  | .detectionStatus, f => f.detectionStatus = []
  | .text field, f => field.patterns f = []
  | _, _ => True

/-- the value covers what the report has there -/
def covers : FacetKind → String → Report → Bool
  | .severity, v, r => Coded.ofLabel? v == some r.severity
  | .reviewStatus, v, r => Coded.ofLabel? v == some r.reviewStatus
  | .detectionStatus, v, r => Coded.ofLabel? v == some r.detectionStatus
  | .text field, v, r => Glob.accepts v (field.ofReport r)
  | _, _, _ => false

/-- a value that is read is the member that it is read as -/
theorem beq_of_ofLabel? {α : Type} [Coded α] [DecidableEq α] {v : String} {a : α}
    (h : Coded.ofLabel? v = some a) (b : α) : (b == a) = (Coded.ofLabel? v == some b) := by
  rw [h]
  exact Bool.beq_comm

theorem narrows_narrow? {k : FacetKind} {v : String} {f g : ReportFilter} (ho : k.IsOpen f)
    (hg : k.narrow? v f = some g) : f.Narrows g (k.covers v) := by
  cases k with
  | severity =>
    obtain ⟨a, ha, rfl⟩ := Option.map_eq_some_iff.1 hg
    exact (ReportFilter.narrows_severity ho a).congr fun r => beq_of_ofLabel? ha r.severity
  | reviewStatus =>
    obtain ⟨a, ha, rfl⟩ := Option.map_eq_some_iff.1 hg
    exact (ReportFilter.narrows_reviewStatus ho a).congr fun r => beq_of_ofLabel? ha r.reviewStatus
  | detectionStatus =>
    obtain ⟨a, ha, rfl⟩ := Option.map_eq_some_iff.1 hg
    exact (ReportFilter.narrows_detectionStatus ho a).congr fun r =>
      beq_of_ofLabel? ha r.detectionStatus
  | text field =>
    cases hg
    exact ReportFilter.narrows_text ho v
  | _ => cases hg

/-! ## the count of a value -/

/-- the rows of a coded attribute that a label covers -/
theorem covered_codeAnswer {α : Type} [Coded α] [LawfulCoded α] [DecidableEq α]
    (key : Report → α) (s : Store) (scope : Scope) (a : α) :
    Facet.covered (codeAnswer key s scope) (Coded.label a) =
      [.counted (Coded.label a) ((s.results scope).countP (key · == a))] := by
  have hone : (Coded.all : List α).filter (fun b => Glob.accepts (Coded.label a) (Coded.label b)) =
      [a] := by
    have hb : ∀ b ∈ (Coded.all : List α),
        Glob.accepts (Coded.label a) (Coded.label b) = (b == a) := by
      intro b _
      rw [Bool.eq_iff_iff, Glob.accepts_iff_eq (LawfulCoded.plain_label a), beq_iff_eq]
      exact ⟨fun h => (LawfulCoded.label_inj a b h).symm, fun h => h ▸ rfl⟩
    rw [List.filter_congr hb, List.filter_beq,
      List.count_eq_one_of_mem LawfulCoded.nodup_all (LawfulCoded.mem_all a)]
    rfl
  rw [Facet.covered, codeAnswer, List.filter_map]
  show List.map _ ((Coded.all : List α).filter fun b =>
    Glob.accepts (Coded.label a) (Coded.label b)) = _
  rw [hone, List.map_singleton, countFor_codesOf]

/-- what the stock says about a label is how many results have its member -/
theorem count_observed_codeAnswer {α : Type} [Coded α] [LawfulCoded α] [DecidableEq α]
    (key : Report → α) (s : Store) (scope : Scope) {v : String} (h : labelValue? α v = some v) :
    (Facet.observed (codeAnswer key s scope) v).count =
      some ((s.results scope).countP fun r => Coded.ofLabel? v == some (key r)) := by
  obtain ⟨a, ha, hl⟩ := Option.map_eq_some_iff.1 h
  have hcovered := covered_codeAnswer key s scope a
  rw [hl] at hcovered
  rw [Facet.observed_eq, hcovered]
  show some (_ + 0) = _
  rw [Nat.add_zero]
  refine congrArg some (List.countP_congr fun r _ => ?_)
  rw [beq_of_ofLabel? ha]

theorem total_covered_names (s : Store) (field : TextAttribute) (scope : Scope) (v : String) :
    Facet.total (Facet.covered ((FacetKind.text field).stock s scope) v) =
      (s.textsOf field scope).countP (Glob.accepts v) := by
  rw [← sum_count_firstOfEach, Facet.total, List.sum_eq_foldr, List.foldr_map]
  show List.foldr _ 0 (List.filter _ (((s.namesIn field scope).map _).map nameRow)) = _
  rw [List.map_map, List.filter_map, List.foldr_map]
  rfl

/-- a condition that is not there need not be taken out -/
theorem setPatterns_of_open {field : TextAttribute} {f : ReportFilter}
    (h : field.patterns f = []) : field.setPatterns [] f = f := by
  rw [← h]
  cases field <;> rfl

theorem textsOf_of_open {field : TextAttribute} {scope : Scope}
    (h : field.patterns scope.filter = []) (s : Store) :
    s.textsOf field scope = (s.results scope).map field.ofReport := by
  rw [Store.textsOf, setPatterns_of_open h]

/-- The stock knows of a value how many results it covers. -/
theorem finding_count {k : FacetKind} (hk : k ∈ attributes) {v : String}
    (hv : k.canonical v = some v) {scope : Scope} (ho : k.IsOpen scope.filter) (s : Store) :
    (k.finding s scope v).count = some ((s.results scope).countP (k.covers v)) := by
  cases k with
  | severity => exact count_observed_codeAnswer (·.severity) s scope hv
  | reviewStatus => exact count_observed_codeAnswer (·.reviewStatus) s scope hv
  | detectionStatus => exact count_observed_codeAnswer (·.detectionStatus) s scope hv
  | text field =>
    rw [finding, Facet.observed_eq, total_covered_names, textsOf_of_open ho, List.countP_map]
    rfl
  | _ => simp [attributes] at hk

/-! ## the attribute in a query -/

theorem isOpen_only (k : FacetKind) (q : Query) :
    k.IsOpen (k.only q).filter ↔ k.IsOpen q.filter := by
  cases k with
  | run side | runTag side => cases side <;> exact Iff.rfl
  | date field | text field => cases field <;> exact Iff.rfl
  | _ => exact Iff.rfl

/-- the other facets leave the list of the attribute empty -/
theorem isOpen_others (k : FacetKind) (fs : List Facet) :
    k.IsOpen (Panel.queryOf (Panel.others k fs)).filter := by
  rw [← isOpen_only, Panel.only_others, isOpen_only]
  cases k with
  | text field => cases field <;> rfl
  | severity | reviewStatus | detectionStatus => rfl
  | _ => trivial

theorem exists_narrow? {k : FacetKind} (hk : k ∈ attributes) {v : String}
    (hv : k.canonical v = some v) (f : ReportFilter) : ∃ g, k.narrow? v f = some g := by
  cases k with
  | severity | reviewStatus | detectionStatus =>
    obtain ⟨a, ha, -⟩ := Option.map_eq_some_iff.1 hv
    exact ⟨_, Option.map_eq_some_iff.2 ⟨a, ha, rfl⟩⟩
  | text field => exact ⟨_, rfl⟩
  | _ => simp [attributes] at hk

end FacetKind

namespace Facet

theorem codes_of_single {α : Type} [Coded α] {f : Facet} {v : String} (hv : f.values = [v]) {a : α}
    (ha : Coded.ofLabel? v = some a) : f.codes α = [a] := by
  rw [codes, hv, List.filterMap_cons, ha]
  rfl

/-- a facet with one value writes just this value -/
theorem addTo_single {f : Facet} {v : String} (hv : f.values = [v]) {q : Query} {g : ReportFilter}
    (hg : f.kind.narrow? v q.filter = some g) : f.addTo q = { q with filter := g } := by
  unfold addTo constrain
  cases hk : f.kind with
  | severity | reviewStatus | detectionStatus =>
    rw [hk] at hg
    obtain ⟨a, ha, rfl⟩ := Option.map_eq_some_iff.1 hg
    dsimp only
    rw [codes_of_single hv ha]
  | text field =>
    rw [hk] at hg
    cases hg
    dsimp only
    rw [hv]
  | _ =>
    rw [hk] at hg
    cases hg

end Facet

namespace Panel

variable {s : Store} {closed : String → Bool} {except : List String}

/-! ## after a round -/

/-- a facet after a round has had its turn behind those before it, which had theirs, and in front of
those that were still to come -/
theorem split_of_mem_turns (rest : List Facet) : ∀ done : List Facet,
    ∀ g ∈ turns s closed except done rest, ∃ before f after visited,
      rest = before ++ f :: after ∧
      g = turn s closed except (scopeOf (visited ++ f :: after) f.id) f ∧
      done ++ turns s closed except done rest =
        visited ++ g :: turns s closed except (visited ++ [g]) after := by
  induction rest with
  | nil => intro done g hg; cases hg
  | cons f rest ih =>
    intro done g hg
    rw [turns_cons] at hg
    rcases List.mem_cons.1 hg with rfl | hg
    · exact ⟨[], f, rest, done, rfl, rfl, by rw [turns_cons]⟩
    · obtain ⟨before, h, after, visited, rfl, hturn, hsplit⟩ := ih _ g hg
      refine ⟨f :: before, h, after, visited, rfl, hturn, ?_⟩
      rw [turns_cons, List.append_cons done, hsplit]

/-- a facet without names is alike after its turn -/
theorem alike_turn_of_not_isName {f : Facet} (hn : f.kind.isName = false) (scope : Scope) :
    f.Alike (turn s closed except scope f) := by
  have hst := steady_turn s closed except scope f
  refine ⟨hst.kind.symm, hst.values.symm, fun h => ?_⟩
  rw [hn] at h
  cases h

/-- After a round, the counts of a facet without names are those of the scope that the facets end up
with: all names come first. -/
theorem counted_of_mem_turns {fs : List Facet} (hk : fs.map (·.kind) = FacetKind.all) {g : Facet}
    (hg : g ∈ turns s closed [] [] fs) (hn : g.kind.isName = false)
    (hc : g.kind.isCountSensitive = true) (ho : closed g.id = false) :
    g.Counted s (scopeOf (turns s closed [] [] fs) g.id) := by
  obtain ⟨before, f, after, visited, rfl, hturn, hsplit⟩ := split_of_mem_turns fs [] g hg
  have hst := steady_turn s closed [] (scopeOf (visited ++ f :: after) f.id) f
  rw [← hturn] at hst
  rw [hst.kind] at hn hc
  have hlater : ∀ h ∈ after, h.kind.isName = false := by
    intro h hh
    rw [← Bool.not_eq_true] at hn ⊢
    exact fun hname => hn (isName_of_all hk hh hname)
  have hafter : List.Forall₂ Facet.Alike after (turns s closed [] (visited ++ [g]) after) := by
    refine ((List.forall₂_and_left _ _).2 ⟨hlater, turns_forall₂ s closed [] after _⟩).imp ?_
    rintro h h' ⟨hname, scope, rfl⟩
    exact alike_turn_of_not_isName hname scope
  have halike : (scopeOf (visited ++ f :: after) f.id).Alike
      (scopeOf (turns s closed [] [] (before ++ f :: after)) g.id) := by
    rw [hst.id_eq]
    rw [List.nil_append] at hsplit
    rw [hsplit]
    have hself : f.Alike g := hturn ▸ alike_turn_of_not_isName hn _
    exact scopeOf_congr (List.rel_append (List.forall₂_same.2 fun h _ => .refl h)
      (.cons hself hafter)) f.id
  have hcounted : g.Counted s (scopeOf (visited ++ f :: after) f.id) := by
    rw [hturn]
    exact counted_turn_of_open _ rfl (hst.id_eq ▸ ho) hc
  exact hcounted.congr halike (hst.kind ▸ hc)

/-- with one value selected in a facet, the query narrows what the others leave to this value -/
theorem scope_of_single {fs : List Facet} (hd : Distinct fs) {f : Facet} (hf : f ∈ fs) {v : String}
    (hv : f.values = [v]) {b : ReportFilter}
    (hb : f.kind.narrow? v (scopeOf fs f.id).filter = some b) :
    (queryOf fs).scope = { scopeOf fs f.id with filter := b } := by
  have hb' : f.kind.narrow? v (queryOf (others f.kind fs)).filter = some b := hb
  rw [queryOf_eq_addTo hd hf, Facet.addTo_single hv hb']
  rfl

/-- what a counted facet says, when every report is shown and nothing is compared -/
theorem count_of_counted {fs : List Facet} (hd : Distinct fs) (hplain : Plain fs) {f : Facet}
    (hf : f ∈ fs) (hattr : f.kind ∈ FacetKind.attributes) (hp : f.Proper)
    (hcounted : f.Counted s (scopeOf fs f.id)) {i : Choice} (hi : i ∈ f.selection.items) :
    (∃ b, f.kind.narrow? i.value (scopeOf fs f.id).filter = some b ∧
      i.info.count = some (s.resultCount { scopeOf fs f.id with filter := b })) ∧
    (f.values = [i.value] → i.info.count = some (s.resultCount (queryOf fs).scope)) := by
  have hv : f.kind.canonical i.value = some i.value :=
    (Facet.spelled_of_mem hp (List.mem_map.2 ⟨i, hi, rfl⟩)).canonical
  have hopen : f.kind.IsOpen (scopeOf fs f.id).filter := FacetKind.isOpen_others f.kind fs
  obtain ⟨b, hb⟩ := FacetKind.exists_narrow? hattr hv (scopeOf fs f.id).filter
  have hcount : i.info.count = some (s.resultCount { scopeOf fs f.id with filter := b }) := by
    rw [(hcounted i hi).count, FacetKind.finding_count hattr hv hopen,
      s.resultCount_narrowed (FacetKind.narrows_narrow? hopen hb) (hplain.others f.kind).comparison
        (hplain.others f.kind).isUnique]
  refine ⟨⟨b, hb, hcount⟩, fun hone => ?_⟩
  rw [hcount, scope_of_single hd hf hone hb]

/-- What is selected in a facet is refreshed to the number of reports that it stands for. In every
state that operations can reach, while the service answers, without a selection on the other side of a
comparison and without unique mode: a round shows for every selected value of an attribute, unless its
facet is in a collapsed group, the number of results that the conditions of the other facets leave
with just this value in the list; for the only value of a facet this is the number of results of the
whole query. -/
theorem selected_counts (config : Config) (s : Store) (tab : String) (g : Gateway)
    (os : List Operation) :
    let p := (standard config g tab).applyAll os
    p.gateway.store = s → p.gateway.failure = none →
    p.valuesOf (.run .compare) = [] → p.valuesOf (.runTag .compare) = [] →
    "on" ∉ p.valuesOf .unique →
    let q := (p.refreshAll []).2
    ∀ f ∈ q.facets, f.kind ∈ FacetKind.attributes → q.inClosedGroup f.id = false →
    ∀ i ∈ f.selection.items,
      (∃ b, f.kind.narrow? i.value (q.scopeWithout f.id).filter = some b ∧
        i.info.count = some (s.resultCount { q.scopeWithout f.id with filter := b })) ∧
      (f.values = [i.value] → i.info.count = some (s.resultCount q.query.scope)) := by
  intro p hs ha hruns htags hunique q f hf hattr hopen i hi
  have hc : p.Complete config tab := complete_standard config g tab os
  obtain ⟨t, n, hround⟩ := refreshAll_eq ha hc.distinct []
  have hfacets : q.facets = turns s p.inClosedGroup [] [] p.facets := by
    rw [← hs]
    exact congrArg (fun x => x.2.facets) hround
  have hclosed : q.inClosedGroup f.id = p.inClosedGroup f.id := by
    have hgroups : q.groups = p.groups := congrArg (fun x => x.2.groups) hround
    rw [inClosedGroup_eq, inClosedGroup_eq, hgroups]
  rw [hfacets] at hf
  rw [hclosed] at hopen
  have hkinds : (turns s p.inClosedGroup [] [] p.facets).map (·.kind) = FacetKind.all :=
    (kinds_turns _ _ _ _).trans hc.kinds
  have hproper : f.Proper := proper_turns (proper_applyAll config g tab os) f hf
  have hplain : Plain (turns s p.inClosedGroup [] [] p.facets) :=
    (Plain.of_valuesOf hc.kinds hruns htags hunique).turns _ _ _ _
  obtain ⟨hname, hsensitive⟩ := FacetKind.counted_of_attributes f.kind hattr
  have hcounted := counted_of_mem_turns hc.kinds hf hname hsensitive hopen
  have h := count_of_counted (.of_all hkinds) hplain hf hattr hproper hcounted hi
  rw [← hfacets] at h
  exact h

/-- a severity, and paths with a wildcard -/
def wildcardChoices : List Operation :=
  [.request (.select "severity" "high" {}), .request (.select "filepath" "/*" {})]

theorem selected_counts_wildcardChoices :
    let p := (standard {} { store := Store.recurring } "reports").applyAll wildcardChoices
    let q := (p.refreshAll []).2
    Store.recurring.resultCount q.query.scope = 2 ∧
      ∃ f ∈ q.facets, ∃ i ∈ f.selection.items, f.kind = .text .filePath ∧ i.value = "/*" ∧
        i.info.count = some (Store.recurring.resultCount q.query.scope) := by
  have h := selected_counts {} Store.recurring "reports" { store := Store.recurring }
    wildcardChoices (by decide +kernel) (by decide +kernel) (by decide +kernel) (by decide +kernel)
    (by decide +kernel)
  dsimp only at h ⊢
  generalize hq : (((standard {} { store := Store.recurring } "reports").applyAll
    wildcardChoices).refreshAll []).2 = q at h ⊢
  have hkinds : q.facets.map (·.kind) = FacetKind.all := by rw [← hq]; decide +kernel
  have hvalues : q.valuesOf (.text .filePath) = ["/*"] := by rw [← hq]; decide +kernel
  have hopen : q.inClosedGroup "filepath" = false := by rw [← hq]; decide +kernel
  have hcount : Store.recurring.resultCount q.query.scope = 2 := by rw [← hq]; decide +kernel
  obtain ⟨f, hf, hkind, hv⟩ := exists_valuesOf hkinds (.text .filePath)
  rw [hvalues] at hv
  obtain ⟨i, hitems, hi⟩ := List.map_eq_singleton_iff.1 hv.symm
  have hmem : i ∈ f.selection.items := hitems ▸ List.mem_singleton_self i
  have hid : f.id = "filepath" := congrArg FacetKind.id hkind
  refine ⟨hcount, f, hf, i, hmem, hkind, hi, (h f hf ?_ (hid ▸ hopen) i hmem).2 ?_⟩
  · rw [hkind]
    decide
  · rw [← hv, hi]

end Panel

end Triage
