import Triage.Proofs.Conditions
import Triage.Proofs.Narrowing

/-!
# Values of one condition

A scope lists the values of ten conditions.  Of the values of one list any will do, and conditions on
different attributes must all hold:

* `ListField`               the lists of a scope, and `ListField.set` a list in place of another;
* `ListField.admits`        a report has what one value asks for;
* `Store.rows_set`          a list takes those reports out of what an empty list leaves that one of
                            its values admits;
* `Store.same_set`          neither order nor repetition shows, also in a comparison;
* `Store.value_lists`       so values add reports to one another, and take them from an empty list;
                            in unique mode the same holds of hashes, and the number of results
                            follows.
-/

namespace Triage

/-! ## the lists of a scope -/

/-- the conditions that are lists of values -/
inductive ListField where
  | runIds | runTag | severity | reviewStatus | detectionStatus
  | text (field : TextAttribute)
  | reportHash | components
deriving DecidableEq, Repr

namespace ListField

abbrev Value : ListField → Type
  | .runIds | .runTag => Int
  | .severity => Severity
  | .reviewStatus => ReviewStatus
  | .detectionStatus => DetectionStatus
  | .text _ | .reportHash | .components => String

/-- the scope with another list in this place -/
def set : (k : ListField) → List k.Value → Scope → Scope
  | .runIds, ids, scope => { scope with runIds := ids }
  | .runTag, ids, scope => { scope with filter := { scope.filter with runTag := ids } }
  | .severity, as, scope => { scope with filter := { scope.filter with severity := as } }
  | .reviewStatus, as, scope => { scope with filter := { scope.filter with reviewStatus := as } }
  | .detectionStatus, as, scope =>
    { scope with filter := { scope.filter with detectionStatus := as } }
  | .text field, patterns, scope => scope.withTexts field patterns
  | .reportHash, patterns, scope =>
    { scope with filter := { scope.filter with reportHash := patterns } }
  | .components, names, scope => scope.withComponents names

/-- a report has what one value of the list asks for -/
def admits (s : Store) : (k : ListField) → Report → k.Value → Bool
  | .runIds, r, id => r.runId == id
  | .runTag, r, id => s.hasTag [id] r
  | .severity, r, a => r.severity == a
  | .reviewStatus, r, a => r.reviewStatus == a
  | .detectionStatus, r, a => r.detectionStatus == a
  | .text field, r, p => Glob.accepts p (field.ofReport r)
  | .reportHash, r, p => Glob.accepts p r.bugHash
  | .components, r, name => s.hasComponent [name] r

/-- the list is empty, or one of its values admits the report -/
def admitsAny (s : Store) (k : ListField) (vs : List k.Value) (r : Report) : Bool :=
  vs.isEmpty || vs.any (k.admits s r)

variable {s : Store} {k : ListField}

theorem admitsAny_append {vs ws : List k.Value} (hv : vs ≠ []) (hw : ws ≠ []) (r : Report) :
    k.admitsAny s (vs ++ ws) r = (k.admitsAny s vs r || k.admitsAny s ws r) := by
  have hvw : vs ++ ws ≠ [] := List.append_ne_nil_of_left_ne_nil hv ws
  rw [admitsAny, admitsAny, admitsAny, List.isEmpty_eq_false_iff.2 hv,
    List.isEmpty_eq_false_iff.2 hw, List.isEmpty_eq_false_iff.2 hvw, List.any_append]
  rfl

/-- a further value admits no less -/
theorem admitsAny_mono {vs ws : List k.Value} (hv : vs ≠ []) (h : vs ⊆ ws) {r : Report}
    (hr : k.admitsAny s vs r = true) : k.admitsAny s ws r = true := by
  rw [admitsAny, List.isEmpty_eq_false_iff.2 hv, Bool.false_or, List.any_eq_true] at hr
  obtain ⟨v, hv, hadmits⟩ := hr
  rw [admitsAny, List.any_eq_true.2 ⟨v, h hv, hadmits⟩, Bool.or_true]

theorem comparison_set (vs : List k.Value) (scope : Scope) :
    (k.set vs scope).comparison = scope.comparison := by
  cases k <;> rfl

theorem isUnique_set (vs : List k.Value) (scope : Scope) :
    (k.set vs scope).filter.isUnique = scope.filter.isUnique := by
  cases k with
  | text field => cases field <;> rfl
  | _ => rfl

end ListField

/-! ## one list among the conditions -/

namespace Store

open ListField (admitsAny)

variable (s : Store)

theorem isOneOf_eq_any {α : Type} [BEq α] (as : List α) (a : α) :
    isOneOf as a = (as.isEmpty || as.any (a == ·)) := by
  rw [isOneOf, List.contains_eq_any_beq]

theorem hasTag_eq_any (ids : List Int) (r : Report) :
    s.hasTag ids r = ids.any fun id => s.hasTag [id] r := by
  rw [Bool.eq_iff_iff]
  simp only [hasTag, List.any_eq_true, List.mem_filter, List.contains_iff_mem,
    List.mem_singleton]
  constructor
  · rintro ⟨t, ⟨ht, hid⟩, hv⟩
    exact ⟨t.id, hid, t, ⟨ht, rfl⟩, hv⟩
  · rintro ⟨_, hid, t, ⟨ht, rfl⟩, hv⟩
    exact ⟨t, ⟨ht, hid⟩, hv⟩

theorem hasComponent_eq_any (names : List String) (r : Report) :
    s.hasComponent names r = names.any fun name => s.hasComponent [name] r := by
  rw [Bool.eq_iff_iff]
  simp only [hasComponent, anyGlob, List.any_eq_true, List.mem_filter, List.mem_singleton]
  constructor
  · rintro ⟨c, ⟨hc, name, hname, ha⟩, hv⟩
    exact ⟨name, hname, c, ⟨hc, _, rfl, ha⟩, hv⟩
  · rintro ⟨name, hname, c, ⟨hc, _, rfl, ha⟩, hv⟩
    exact ⟨c, ⟨hc, _, hname, ha⟩, hv⟩

/-- a report is in the baseline and meets the filter exactly when it does so without the list and the
list admits it -/
theorem shown_set (k : ListField) (vs : List k.Value) (scope : Scope) (r : Report) :
    (s.inBaseline (k.set vs scope) r && s.meets (k.set vs scope).filter r) =
      ((s.inBaseline (k.set [] scope) r && s.meets (k.set [] scope).filter r) &&
        k.admitsAny s vs r) := by
  cases k with
  | runIds =>
    have hany : isOneOf vs r.runId = admitsAny s .runIds vs r := isOneOf_eq_any vs r.runId
    simp only [ListField.set, inBaseline, isOneOf_nil, Bool.true_and, hany]
    ac_rfl
  | runTag =>
    have hany : (vs.isEmpty || s.hasTag vs r) = admitsAny s .runTag vs r := by
      rw [hasTag_eq_any]
      rfl
    have hmeets : s.meets { scope.filter with runTag := vs } r =
        s.meets { scope.filter with runTag := [] } r := rfl
    simp only [ListField.set, inBaseline, List.isEmpty_nil, Bool.true_or, Bool.and_true, hany,
      hmeets]
    ac_rfl
  | severity =>
    have hany : isOneOf vs r.severity = admitsAny s .severity vs r := isOneOf_eq_any vs r.severity
    simp only [ListField.set, inBaseline, meets, isOneOf_nil, Bool.and_true, hany]
    ac_rfl
  | reviewStatus =>
    have hany : isOneOf vs r.reviewStatus = admitsAny s .reviewStatus vs r := isOneOf_eq_any vs _
    simp only [ListField.set, inBaseline, meets, isOneOf_nil, Bool.and_true, hany]
    ac_rfl
  | detectionStatus =>
    have hany : isOneOf vs r.detectionStatus = admitsAny s .detectionStatus vs r :=
      isOneOf_eq_any vs _
    simp only [ListField.set, inBaseline, meets, isOneOf_nil, Bool.and_true, hany]
    ac_rfl
  | text field =>
    cases field with
    | filePath =>
      have hany : wanted vs r.filePath = admitsAny s (.text .filePath) vs r := rfl
      simp only [ListField.set, Scope.withTexts, TextAttribute.setPatterns, inBaseline, meets,
        wanted_nil, Bool.true_and, hany]
      ac_rfl
    | checkerName =>
      have hany : wanted vs r.checkerName = admitsAny s (.text .checkerName) vs r := rfl
      simp only [ListField.set, Scope.withTexts, TextAttribute.setPatterns, inBaseline, meets,
        wanted_nil, Bool.and_true, hany]
      ac_rfl
    | checkerMsg =>
      have hany : wanted vs r.checkerMsg = admitsAny s (.text .checkerMsg) vs r := rfl
      simp only [ListField.set, Scope.withTexts, TextAttribute.setPatterns, inBaseline, meets,
        wanted_nil, Bool.and_true, hany]
      ac_rfl
  | reportHash =>
    have hany : wanted vs r.bugHash = admitsAny s .reportHash vs r := rfl
    simp only [ListField.set, inBaseline, meets, wanted_nil, Bool.and_true, hany]
    ac_rfl
  | components =>
    have hany : (vs.isEmpty || s.hasComponent vs r) = admitsAny s .components vs r := by
      rw [hasComponent_eq_any]
      rfl
    simp only [ListField.set, Scope.withComponents, inBaseline, meets, List.isEmpty_nil,
      Bool.true_or, Bool.and_true, hany]
    ac_rfl

/-- without a comparison the list takes those reports out of the rows that it admits -/
theorem rows_set (k : ListField) (vs : List k.Value) {scope : Scope}
    (hc : scope.comparison = none) :
    s.rows (k.set vs scope) = (s.rows (k.set [] scope)).filter (k.admitsAny s vs) := by
  have hset : ∀ ws : List k.Value, s.rows (k.set ws scope) = s.baseline (k.set ws scope) :=
    fun ws => s.rows_alone _ ((ListField.comparison_set ws scope).trans hc)
  rw [hset vs, hset [], baseline, baseline, List.filter_filter]
  refine List.filter_congr fun r _ => ?_
  rw [s.shown_set k vs scope r, Bool.and_comm]

theorem mem_rows_set (k : ListField) (vs : List k.Value) {scope : Scope}
    (hc : scope.comparison = none) (r : Report) :
    r ∈ s.rows (k.set vs scope) ↔ r ∈ s.rows (k.set [] scope) ∧ k.admitsAny s vs r = true := by
  rw [s.rows_set k vs hc, List.mem_filter]

theorem mem_rows_set_append (k : ListField) {vs ws : List k.Value} (hv : vs ≠ []) (hw : ws ≠ [])
    {scope : Scope} (hc : scope.comparison = none) (r : Report) :
    r ∈ s.rows (k.set (vs ++ ws) scope) ↔
      r ∈ s.rows (k.set vs scope) ∨ r ∈ s.rows (k.set ws scope) := by
  rw [s.mem_rows_set k _ hc, s.mem_rows_set k vs hc, s.mem_rows_set k ws hc,
    ListField.admitsAny_append hv hw, Bool.or_eq_true, and_or_left]

/-- an empty list admits every report -/
theorem rows_set_sublist (k : ListField) (vs : List k.Value) {scope : Scope}
    (hc : scope.comparison = none) :
    (s.rows (k.set vs scope)).Sublist (s.rows (k.set [] scope)) := by
  rw [s.rows_set k vs hc]
  exact List.filter_sublist

theorem rows_set_mono (k : ListField) {vs ws : List k.Value} (hv : vs ≠ []) (h : vs ⊆ ws)
    {scope : Scope} (hc : scope.comparison = none) :
    (s.rows (k.set vs scope)).Sublist (s.rows (k.set ws scope)) := by
  rw [s.rows_set k vs hc, s.rows_set k ws hc]
  exact List.monotone_filter_right _ fun _ => ListField.admitsAny_mono hv h

/-- a scope without a condition selects every report -/
theorem rows_everything : s.rows {} = s.reports := List.filter_eq_self.2 fun _ _ => rfl

theorem mem_rows_set_alone (k : ListField) (vs : List k.Value) (r : Report) :
    r ∈ s.rows (k.set vs {}) ↔ r ∈ s.reports ∧ k.admitsAny s vs r = true := by
  have hopen : k.set [] {} = {} := by
    cases k with
    | text field => cases field <;> rfl
    | _ => rfl
  rw [s.mem_rows_set k vs rfl, hopen, rows_everything]

/-- a list asks the same of a report whatever else is asked of it -/
theorem mem_rows_set_iff (k : ListField) (vs : List k.Value) {scope : Scope}
    (hc : scope.comparison = none) (r : Report) :
    r ∈ s.rows (k.set vs scope) ↔ r ∈ s.rows (k.set [] scope) ∧ r ∈ s.rows (k.set vs {}) := by
  rw [s.mem_rows_set k vs hc, s.mem_rows_set_alone k vs]
  refine and_congr_right fun hr => (and_iff_right ?_).symm
  exact (s.rows_sublist _).subset hr

theorem mem_hashes_set_append (k : ListField) {vs ws : List k.Value} (hv : vs ≠ []) (hw : ws ≠ [])
    {scope : Scope} (hc : scope.comparison = none) (h : String) :
    h ∈ hashes (s.rows (k.set (vs ++ ws) scope)) ↔
      h ∈ hashes (s.rows (k.set vs scope)) ∨ h ∈ hashes (s.rows (k.set ws scope)) := by
  simp only [hashes, List.mem_map, s.mem_rows_set_append k hv hw hc, or_and_right, exists_or]

/-- fewer rows give no more results: as many as there are rows, or as they have hashes -/
theorem resultCount_mono {a b : Scope} (hu : a.filter.isUnique = b.filter.isUnique)
    (h : (s.rows a).Sublist (s.rows b)) : s.resultCount a ≤ s.resultCount b := by
  rw [resultCount, resultCount]
  cases hb : b.filter.isUnique with
  | false =>
    rw [s.results_of_every a (hu.trans hb), s.results_of_every b hb]
    exact h.length_le
  | true =>
    rw [s.results_of_unique a (hu.trans hb), s.results_of_unique b hb, length_firstOfEach,
      length_firstOfEach]
    refine Finset.card_le_card fun x hx => ?_
    rw [List.mem_toFinset] at hx ⊢
    exact (h.map _).subset hx

/-! ## order and repetition -/

theorem same_set (k : ListField) {vs ws : List k.Value} (h : SameMembers vs ws) (scope : Scope) :
    (k.set vs scope).Same (k.set ws scope) := by
  have hf := ReportFilter.Same.refl scope.filter
  have hc : Option.Rel Comparison.Same scope.comparison scope.comparison := by
    cases scope.comparison with
    | none => exact .none
    | some c => exact .some ⟨.refl _, .refl _, rfl⟩
  cases k with
  | runIds => exact ⟨h, hf, hc⟩
  | runTag => exact ⟨.refl _, { hf with runTag := h }, hc⟩
  | severity => exact ⟨.refl _, { hf with severity := h }, hc⟩
  | reviewStatus => exact ⟨.refl _, { hf with reviewStatus := h }, hc⟩
  | detectionStatus => exact ⟨.refl _, { hf with detectionStatus := h }, hc⟩
  | text field =>
    cases field with
    | filePath => exact ⟨.refl _, { hf with filepath := h }, hc⟩
    | checkerName => exact ⟨.refl _, { hf with checkerName := h }, hc⟩
    | checkerMsg => exact ⟨.refl _, { hf with checkerMsg := h }, hc⟩
  | reportHash => exact ⟨.refl _, { hf with reportHash := h }, hc⟩
  | components => exact ⟨.refl _, { hf with componentNames := h }, hc⟩

/-! ## every list -/

/-- How the values of one list combine, for every store, every list of a scope and whatever else the
scope asks for. Only the members of the list count. Without a comparison and with every report of a
hash, two lists with values together show what either of them shows, and a list shows those reports
that an empty list shows and that it shows by itself, in the order in which the empty list shows them;
where each hash is shown once, the same holds of the hashes. So a list with values has no more results
than an empty one, and no fewer with more values. -/
theorem value_lists (s : Store) (k : ListField) (scope : Scope) :
    (∀ vs ws, SameMembers vs ws → s.results (k.set vs scope) = s.results (k.set ws scope)) ∧
    (scope.comparison = none →
      (scope.filter.isUnique = false →
        (∀ vs ws, vs ≠ [] → ws ≠ [] → ∀ r, r ∈ s.results (k.set (vs ++ ws) scope) ↔
          r ∈ s.results (k.set vs scope) ∨ r ∈ s.results (k.set ws scope)) ∧
        (∀ vs, (s.results (k.set vs scope)).Sublist (s.results (k.set [] scope))) ∧
        (∀ vs r, r ∈ s.results (k.set vs scope) ↔
          r ∈ s.results (k.set [] scope) ∧ r ∈ s.results (k.set vs {}))) ∧
      (scope.filter.isUnique = true →
        (∀ vs ws, vs ≠ [] → ws ≠ [] → ∀ h, h ∈ hashes (s.results (k.set (vs ++ ws) scope)) ↔
          h ∈ hashes (s.results (k.set vs scope)) ∨ h ∈ hashes (s.results (k.set ws scope))) ∧
        (∀ vs, hashes (s.results (k.set vs scope)) ⊆ hashes (s.results (k.set [] scope)))) ∧
      (∀ vs, s.resultCount (k.set vs scope) ≤ s.resultCount (k.set [] scope)) ∧
      (∀ vs ws, vs ≠ [] → vs ⊆ ws →
        s.resultCount (k.set vs scope) ≤ s.resultCount (k.set ws scope))) := by
  have hunique : ∀ vs ws : List k.Value,
      (k.set vs scope).filter.isUnique = (k.set ws scope).filter.isUnique := fun vs ws =>
    (ListField.isUnique_set vs scope).trans (ListField.isUnique_set ws scope).symm
  refine ⟨fun vs ws h => s.results_same (same_set k h scope), fun hc => ⟨fun hu => ?_, fun hu => ?_,
    fun vs => s.resultCount_mono (hunique vs []) (s.rows_set_sublist k vs hc),
    fun vs ws hv h => s.resultCount_mono (hunique vs ws) (s.rows_set_mono k hv h hc)⟩⟩
  · have hevery : ∀ vs : List k.Value, s.results (k.set vs scope) = s.rows (k.set vs scope) :=
      fun vs => s.results_of_every _ ((ListField.isUnique_set vs scope).trans hu)
    have halone : ∀ vs : List k.Value, s.results (k.set vs {}) = s.rows (k.set vs {}) :=
      fun vs => s.results_of_every _ (ListField.isUnique_set vs {})
    refine ⟨fun vs ws hv hw r => ?_, fun vs => ?_, fun vs r => ?_⟩
    · rw [hevery, hevery, hevery]
      exact s.mem_rows_set_append k hv hw hc r
    · rw [hevery, hevery]
      exact s.rows_set_sublist k vs hc
    · rw [hevery, hevery, halone]
      exact s.mem_rows_set_iff k vs hc r
  · refine ⟨fun vs ws hv hw h => ?_, fun vs h hh => ?_⟩
    · rw [mem_hashes_results, mem_hashes_results, mem_hashes_results]
      exact s.mem_hashes_set_append k hv hw hc h
    · rw [mem_hashes_results] at hh ⊢
      exact ((s.rows_set_sublist k vs hc).map _).subset hh

theorem value_lists_recurring :
    let k := ListField.severity
    (∀ r, r ∈ recurring.results (k.set ([Severity.low] ++ [Severity.high]) {}) ↔
      r ∈ recurring.results (k.set [Severity.low] {}) ∨
        r ∈ recurring.results (k.set [Severity.high] {})) ∧
    hashes (recurring.results (k.set [Severity.low] everyHash)) ⊆
      hashes (recurring.results (k.set [] everyHash)) ∧
    recurring.resultCount (k.set [Severity.low] everyHash) ≤
      recurring.resultCount (k.set [Severity.high, Severity.low] everyHash) ∧
    recurring.resultCount (k.set [Severity.high, Severity.low] everyHash) = 3 := by
  intro k
  have every := (value_lists recurring k {}).2 rfl
  have once := (value_lists recurring k everyHash).2 rfl
  exact ⟨(every.1 rfl).1 [Severity.low] [Severity.high] (by decide) (by decide),
    (once.2.1 rfl).2 [Severity.low],
    once.2.2.2 [Severity.low] [Severity.high, Severity.low] (by decide) (by decide),
    by decide +kernel⟩

/-- where each hash is shown once, a report of one value gives way to one of another value -/
example : (recurring.results (ListField.severity.set [Severity.high] everyHash)).map (·.id) = [3, 4] ∧
    (recurring.results (ListField.severity.set [Severity.low, Severity.high] everyHash)).map (·.id) =
      [1, 2, 4] := by decide +kernel

end Store

end Triage
