import Triage.Facet.Offers
import Triage.Proofs.Comparisons

/-!
# One more condition

To select a value is to put one more condition into the filter.  Without a comparison this takes the
rows that meet it out of those shown before; unique mode then chooses among what is left.

* `ReportFilter.Narrows f g test`   `g` is `f` with the condition `test` in addition;
* `narrows_severity`, …, `narrows_text`   setting one value where there was none is such a step;
* `Store.rows_narrowed`             the rows after such a step are those that meet the condition;
* `countFor_codesOf`                what is counted for a member of a coded attribute;
* `Store.codes_in_unique_mode`      in unique mode this is at most the number of results with that
                                    member selected, and it is this number exactly when no report
                                    with the member is hidden behind one with another.
-/

namespace Triage

/-- the second filter is the first with one more condition -/
structure ReportFilter.Narrows (f g : ReportFilter) (test : Report → Bool) : Prop where
  runTag : g.runTag = f.runTag
  isUnique : g.isUnique = f.isUnique
  meets : ∀ (s : Store) (r : Report), s.meets g r = (s.meets f r && test r)

theorem ReportFilter.Narrows.congr {f g : ReportFilter} {test other : Report → Bool}
    (h : f.Narrows g test) (e : ∀ r, test r = other r) : f.Narrows g other :=
  ⟨h.runTag, h.isUnique, fun s r => by rw [h.meets, e]⟩

namespace Store

theorem isOneOf_nil {α : Type} [BEq α] (a : α) : isOneOf [] a = true := rfl

theorem isOneOf_singleton {α : Type} [BEq α] (a b : α) : isOneOf [a] b = (b == a) := by
  simp [isOneOf]

end Store

theorem wanted_nil (text : String) : wanted [] text = true := rfl

theorem wanted_singleton (p text : String) : wanted [p] text = Glob.accepts p text := by
  simp [wanted, anyGlob]

namespace ReportFilter

open Store (isOneOf_nil isOneOf_singleton)

variable {f : ReportFilter}

theorem narrows_severity (h : f.severity = []) (a : Severity) :
    f.Narrows { f with severity := [a] } (·.severity == a) := by
  refine ⟨rfl, rfl, fun s r => ?_⟩
  simp only [Store.meets, h, isOneOf_nil, isOneOf_singleton, Bool.and_true]
  ac_rfl

theorem narrows_reviewStatus (h : f.reviewStatus = []) (a : ReviewStatus) :
    f.Narrows { f with reviewStatus := [a] } (·.reviewStatus == a) := by
  refine ⟨rfl, rfl, fun s r => ?_⟩
  simp only [Store.meets, h, isOneOf_nil, isOneOf_singleton, Bool.and_true]
  ac_rfl

theorem narrows_detectionStatus (h : f.detectionStatus = []) (a : DetectionStatus) :
    f.Narrows { f with detectionStatus := [a] } (·.detectionStatus == a) := by
  refine ⟨rfl, rfl, fun s r => ?_⟩
  simp only [Store.meets, h, isOneOf_nil, isOneOf_singleton, Bool.and_true]
  ac_rfl

theorem narrows_text {field : TextAttribute} (h : field.patterns f = []) (v : String) :
    f.Narrows (field.setPatterns [v] f) (fun r => Glob.accepts v (field.ofReport r)) := by
  cases field with
  | filePath =>
    refine ⟨rfl, rfl, fun s r => ?_⟩
    have hf : f.filepath = [] := h
    simp only [Store.meets, TextAttribute.setPatterns, hf, wanted_nil, wanted_singleton,
      Bool.true_and]
    ac_rfl
  | checkerName =>
    refine ⟨rfl, rfl, fun s r => ?_⟩
    have hf : f.checkerName = [] := h
    simp only [Store.meets, TextAttribute.setPatterns, hf, wanted_nil, wanted_singleton,
      Bool.and_true]
    ac_rfl
  | checkerMsg =>
    refine ⟨rfl, rfl, fun s r => ?_⟩
    have hf : f.checkerMsg = [] := h
    simp only [Store.meets, TextAttribute.setPatterns, hf, wanted_nil, wanted_singleton,
      Bool.and_true]
    ac_rfl

end ReportFilter

/-! ## the results of a narrowed filter -/

namespace Store

variable (s : Store) {scope : Scope} {g : ReportFilter} {test : Report → Bool}

theorem rows_alone (a : Scope) (h : a.comparison = none) : s.rows a = s.baseline a := by
  rw [rows, h]

theorem baseline_narrowed (h : scope.filter.Narrows g test) :
    s.baseline { scope with filter := g } = (s.baseline scope).filter test := by
  rw [baseline, baseline, List.filter_filter]
  refine List.filter_congr fun r _ => ?_
  rw [inBaseline, inBaseline, h.runTag, h.meets]
  ac_rfl

/-- the rows that meet the condition -/
theorem rows_narrowed (h : scope.filter.Narrows g test) (hc : scope.comparison = none) :
    s.rows { scope with filter := g } = (s.rows scope).filter test := by
  rw [s.rows_alone scope hc, s.rows_alone { scope with filter := g } hc, s.baseline_narrowed h]

/-- with every report of a hash, the number of results is the number of rows that meet it -/
theorem resultCount_narrowed (h : scope.filter.Narrows g test) (hc : scope.comparison = none)
    (hu : scope.filter.isUnique = false) :
    s.resultCount { scope with filter := g } = (s.results scope).countP test := by
  have hg : g.isUnique = false := h.isUnique.trans hu
  rw [resultCount, s.results_of_every { scope with filter := g } hg, s.rows_narrowed h hc,
    s.results_of_every scope hu, List.countP_eq_length_filter]

end Store

/-! ## coded attributes -/

/-- every member is listed, under a label of its own without a wildcard -/
class LawfulCoded (α : Type) [Coded α] : Prop where
  mem_all : ∀ a : α, a ∈ (Coded.all : List α)
  nodup_all : (Coded.all : List α).Nodup
  label_inj : ∀ a b : α, Coded.label a = Coded.label b → a = b
  plain_label : ∀ a : α, '*' ∉ (Coded.label a).toList

instance : LawfulCoded Severity where
  mem_all a := by cases a <;> decide
  nodup_all := by decide
  label_inj a b := by cases a <;> cases b <;> decide
  plain_label a := by cases a <;> decide

instance : LawfulCoded ReviewStatus where
  mem_all a := by cases a <;> decide
  nodup_all := by decide
  label_inj a b := by cases a <;> cases b <;> decide
  plain_label a := by cases a <;> decide

instance : LawfulCoded DetectionStatus where
  mem_all a := by cases a <;> decide
  nodup_all := by decide
  label_inj a b := by cases a <;> cases b <;> decide
  plain_label a := by cases a <;> decide

section

variable {α : Type} [BEq α] [LawfulBEq α]

/-- members that do not occur are not listed, and count as zero -/
theorem countFor_filter (n : α → Nat) (as : List α) (a : α) :
    FacetKind.countFor ((as.map fun b => (b, n b)).filter fun p => 0 < p.2) a =
      if a ∈ as then n a else 0 := by
  unfold FacetKind.countFor
  induction as with
  | nil => rfl
  | cons b as ih =>
    rw [List.map_cons, List.filter_cons]
    by_cases hn : 0 < n b
    · rw [if_pos (decide_eq_true hn), List.find?_cons]
      by_cases hb : b = a
      · subst hb
        simp
      · have hba : (b == a) = false := beq_eq_false_iff_ne.2 hb
        simp only [hba, ih, List.mem_cons, Ne.symm hb, false_or]
    · rw [if_neg (by simpa using hn), ih]
      by_cases hb : b = a
      · subst hb
        simp [Nat.eq_zero_of_not_pos hn]
      · simp only [List.mem_cons, Ne.symm hb, false_or]

/-! ## members behind a kept row -/

/-- the hashes of the kept rows with the member are among the hashes of all rows with it -/
theorem mem_hashes_kept (key : Report → α) (rows : List Report) (a : α) (h : String) :
    h ∈ Store.hashes ((firstOfEach (·.bugHash) rows).filter (key · == a)) ↔
      (rows.find? (·.bugHash == h)).map key = some a := by
  rw [Store.hashes, List.mem_map, Option.map_eq_some_iff]
  constructor
  · rintro ⟨r, hr, rfl⟩
    obtain ⟨hkept, ha⟩ := List.mem_filter.1 hr
    exact ⟨r, (mem_firstOfEach_iff _ _ _).1 hkept, beq_iff_eq.1 ha⟩
  · rintro ⟨r, hr, ha⟩
    have hh : r.bugHash = h := by simpa using List.find?_some hr
    subst hh
    exact ⟨r, List.mem_filter.2 ⟨(mem_firstOfEach_iff _ _ _).2 hr, beq_iff_eq.2 ha⟩, rfl⟩

theorem mem_hashes_all (key : Report → α) (rows : List Report) (a : α) (h : String) :
    h ∈ Store.hashes (rows.filter (key · == a)) ↔ ∃ r ∈ rows, key r = a ∧ r.bugHash = h := by
  simp [Store.hashes, and_assoc]

/-- Of the rows with a member, the kept ones have at most as many hashes as all of them, and just as
many when the first row of each of these hashes has the member. -/
theorem length_kept (key : Report → α) (rows : List Report) (a : α) :
    let kept := (firstOfEach (·.bugHash) rows).filter (key · == a)
    let chosen := firstOfEach (·.bugHash) (rows.filter (key · == a))
    kept.length ≤ chosen.length ∧ (kept.length = chosen.length ↔ ∀ r ∈ rows, key r = a →
      (rows.find? (·.bugHash == r.bugHash)).map key = some a) := by
  intro kept chosen
  have hnodup : (Store.hashes kept).Nodup :=
    (nodup_keys_firstOfEach _ rows).sublist (List.filter_sublist.map _)
  have hkept : kept.length = (Store.hashes kept).toFinset.card := by
    rw [List.toFinset_card_of_nodup hnodup, Store.hashes, List.length_map]
  have hchosen : chosen.length = (Store.hashes (rows.filter (key · == a))).toFinset.card :=
    length_firstOfEach _ _
  have hsub : (Store.hashes kept).toFinset ⊆
      (Store.hashes (rows.filter (key · == a))).toFinset := by
    intro h hh
    rw [List.mem_toFinset, mem_hashes_kept, Option.map_eq_some_iff] at hh
    obtain ⟨r, hr, ha⟩ := hh
    rw [List.mem_toFinset, mem_hashes_all]
    exact ⟨r, List.mem_of_find?_eq_some hr, ha, by simpa using List.find?_some hr⟩
  rw [hkept, hchosen]
  refine ⟨Finset.card_le_card hsub, ⟨fun heq r hr ha => ?_, fun hall => ?_⟩⟩
  · rw [← mem_hashes_kept, ← List.mem_toFinset, Finset.eq_of_subset_of_card_le hsub heq.ge,
      List.mem_toFinset, mem_hashes_all]
    exact ⟨r, hr, ha, rfl⟩
  · refine congrArg Finset.card (hsub.antisymm fun h hh => ?_)
    rw [List.mem_toFinset, mem_hashes_all] at hh
    obtain ⟨r, hr, ha, rfl⟩ := hh
    rw [List.mem_toFinset, mem_hashes_kept]
    exact hall r hr ha

variable [Coded α] [LawfulCoded α]

theorem countFor_codesOf (s : Store) (key : Report → α) (scope : Scope) (a : α) :
    FacetKind.countFor (s.codesOf key scope) a = (s.results scope).countP (key · == a) := by
  rw [Store.codesOf, countFor_filter, if_pos (LawfulCoded.mem_all a), List.count_eq_countP,
    List.countP_map]
  rfl

/-- unique mode hides no row with the member behind one with another: the first row with its hash has
the member too -/
def Store.Represented (s : Store) (scope : Scope) (key : Report → α) (a : α) : Prop :=
  ∀ r ∈ s.rows scope, key r = a →
    ((s.rows scope).find? (·.bugHash == r.bugHash)).map key = some a

/-- the count of a member against the results with this member selected -/
theorem Store.countFor_of_unique (s : Store) {key : Report → α} {scope : Scope} {g : ReportFilter}
    {a : α} (hg : scope.filter.Narrows g (key · == a)) (hc : scope.comparison = none)
    (hu : scope.filter.isUnique = true) :
    let counted := FacetKind.countFor (s.codesOf key scope) a
    let selected := s.resultCount { scope with filter := g }
    counted ≤ selected ∧ (counted = selected ↔ s.Represented scope key a) := by
  intro counted selected
  have hg' : g.isUnique = true := hg.isUnique.trans hu
  have hcounted : counted =
      ((firstOfEach (·.bugHash) (s.rows scope)).filter (key · == a)).length := by
    show FacetKind.countFor (s.codesOf key scope) a = _
    rw [countFor_codesOf, List.countP_eq_length_filter, s.results_of_unique scope hu]
  have hselected : selected =
      (firstOfEach (·.bugHash) ((s.rows scope).filter (key · == a))).length := by
    show s.resultCount { scope with filter := g } = _
    rw [resultCount, s.results_of_unique { scope with filter := g } hg', s.rows_narrowed hg hc]
  rw [hcounted, hselected]
  exact length_kept key (s.rows scope) a

end

namespace Store

open FacetKind (countFor)

/-- In unique mode, without a comparison: what is counted for a member of a coded attribute is never
more than the number of results with this member selected. It is that number exactly when no row with
the member is hidden behind one with another, for unique mode chooses the rows before it counts them,
and among fewer rows once the member is selected. -/
theorem codes_in_unique_mode (s : Store) (scope : Scope) (hc : scope.comparison = none)
    (hu : scope.filter.isUnique = true) :
    (scope.filter.severity = [] → ∀ a : Severity,
      let counted := countFor (s.codesOf (·.severity) scope) a
      let selected :=
        s.resultCount { scope with filter := { scope.filter with severity := [a] } }
      counted ≤ selected ∧ (counted = selected ↔ s.Represented scope (·.severity) a)) ∧
    (scope.filter.reviewStatus = [] → ∀ a : ReviewStatus,
      let counted := countFor (s.codesOf (·.reviewStatus) scope) a
      let selected :=
        s.resultCount { scope with filter := { scope.filter with reviewStatus := [a] } }
      counted ≤ selected ∧ (counted = selected ↔ s.Represented scope (·.reviewStatus) a)) ∧
    (scope.filter.detectionStatus = [] → ∀ a : DetectionStatus,
      let counted := countFor (s.codesOf (·.detectionStatus) scope) a
      let selected :=
        s.resultCount { scope with filter := { scope.filter with detectionStatus := [a] } }
      counted ≤ selected ∧ (counted = selected ↔ s.Represented scope (·.detectionStatus) a)) :=
  ⟨fun h a => s.countFor_of_unique (ReportFilter.narrows_severity h a) hc hu,
    fun h a => s.countFor_of_unique (ReportFilter.narrows_reviewStatus h a) hc hu,
    fun h a => s.countFor_of_unique (ReportFilter.narrows_detectionStatus h a) hc hu⟩

/-- everything, each hash once -/
def everyHash : Scope := { filter := { isUnique := true } }

theorem codes_in_unique_mode_low :
    countFor (recurring.codesOf (·.severity) everyHash) Severity.low =
      recurring.resultCount
        { everyHash with filter := { everyHash.filter with severity := [.low] } } := by
  have h := codes_in_unique_mode recurring everyHash rfl rfl
  have hrows : recurring.rows everyHash = recurring.reports := by decide +kernel
  refine ((h.1 rfl .low).2).2 ?_
  rw [Represented, hrows]
  decide +kernel

/-- The first report with the hash is of low severity: unique mode hides the other one, which is of
high severity, until high severity is selected. -/
theorem hidden_severity :
    everyHash.comparison = none ∧ everyHash.filter.isUnique = true ∧
      everyHash.filter.severity = [] ∧
      countFor (recurring.codesOf (·.severity) everyHash) Severity.high = 1 ∧
      recurring.resultCount
        { everyHash with filter := { everyHash.filter with severity := [.high] } } = 2 :=
  ⟨rfl, rfl, rfl, by decide +kernel, by decide +kernel⟩

end Store

end Triage
