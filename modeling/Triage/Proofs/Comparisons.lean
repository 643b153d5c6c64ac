import Mathlib.Data.List.Perm.Basic
import Triage.Proofs.Representatives
import Triage.Report.Counts

/-!
# What a comparison shows

A comparison sorts reports by their bug hashes: a hash of the other side is new or unresolved, one
of the baseline is resolved or unresolved, and unique mode keeps one report of each hash.

* `Scope.against`, `Scope.folded`   the same question for a side of a comparison, and with every
                                    report of a hash or with the first one only;
* `Store.mem_hashes_compared`       the hashes that a side shows;
* `Store.perm_compared`             what is new and what is unresolved make up the other side;
* `Store.results_folded`            unique mode shows the leaders of what is shown without it;
* `Store.results_exchange`          what is new against the baseline is resolved when the sides are
                                    exchanged;
* `Store.results_by_hash`           all of this, for every store and every scope.
-/

namespace Triage

namespace Scope

/-- the same question about a side of a comparison -/
def against (scope : Scope) (c : Comparison) (d : DiffType) : Scope :=
  { scope with comparison := some { c with diffType := d } }

/-- the same question about the first report of each hash, or about every report -/
def folded (scope : Scope) (unique : Bool) : Scope :=
  { scope with filter := { scope.filter with isUnique := unique } }

end Scope

namespace Store

variable (s : Store)

theorem mem_hashes_filter {p : String → Bool} {rs : List Report} {h : String} :
    h ∈ hashes (rs.filter fun r => p r.bugHash) ↔ h ∈ hashes rs ∧ p h = true := by
  have e : hashes (rs.filter fun r => p r.bugHash) = (hashes rs).filter p := by
    rw [hashes, hashes, List.filter_map]
    rfl
  rw [e, List.mem_filter]

/-! ## the sides of a comparison -/

/-- the hashes that a side shows -/
def shows (base side : List String) : DiffType → String → Prop
  | .new, h => h ∈ side ∧ h ∉ base
  | .resolved, h => h ∈ base ∧ h ∉ side
  | .unresolved, h => h ∈ side ∧ h ∈ base

theorem mem_hashes_compared (d : DiffType) (base side : List Report) (h : String) :
    h ∈ hashes (compared d base side) ↔ shows (hashes base) (hashes side) d h := by
  unfold compared shows
  cases d with
  | new =>
    dsimp only
    rw [mem_hashes_filter (p := fun h => !(hashes base).contains h), Bool.not_eq_true',
      ← Bool.not_eq_true, List.contains_iff_mem]
  | resolved =>
    dsimp only
    rw [mem_hashes_filter (p := fun h => !(hashes side).contains h), Bool.not_eq_true',
      ← Bool.not_eq_true, List.contains_iff_mem]
  | unresolved =>
    dsimp only
    rw [mem_hashes_filter (p := fun h => (hashes base).contains h), List.contains_iff_mem]

/-- no hash is shown by two sides -/
theorem shows_disjoint {base side : List String} {d e : DiffType} (hne : d ≠ e) {h : String}
    (hd : shows base side d h) : ¬shows base side e h := by
  unfold shows at hd ⊢
  cases d <;> cases e <;> simp_all

theorem perm_compared (base side : List Report) :
    (compared .new base side ++ compared .unresolved base side).Perm side := by
  have h := List.filter_append_perm (fun r : Report => (hashes base).contains r.bugHash) side
  exact List.perm_append_comm.trans h

theorem compared_sublist (d : DiffType) {base side all : List Report} (hb : base.Sublist all)
    (hs : side.Sublist all) : (compared d base side).Sublist all := by
  cases d with
  | new => exact List.filter_sublist.trans hs
  | resolved => exact List.filter_sublist.trans hb
  | unresolved => exact List.filter_sublist.trans hs

theorem baseline_sublist (scope : Scope) : (s.baseline scope).Sublist s.reports :=
  List.filter_sublist

theorem comparisonRows_sublist (c : Comparison) (f : ReportFilter) :
    (s.comparisonRows c f).Sublist s.reports := List.filter_sublist

theorem rows_sublist (scope : Scope) : (s.rows scope).Sublist s.reports := by
  unfold rows
  cases scope.comparison with
  | none => exact s.baseline_sublist scope
  | some c =>
    exact compared_sublist c.diffType (s.baseline_sublist scope)
      (s.comparisonRows_sublist c scope.filter)

/-! ## unique mode -/

/-- uniqueness does not enter the conditions -/
theorem rows_folded (scope : Scope) (u : Bool) : s.rows (scope.folded u) = s.rows scope := rfl

theorem results_of_every (scope : Scope) (h : scope.filter.isUnique = false) :
    s.results scope = s.rows scope := by
  rw [results, h]
  rfl

theorem results_of_unique (scope : Scope) (h : scope.filter.isUnique = true) :
    s.results scope = firstOfEach (·.bugHash) (s.rows scope) := if_pos h

theorem results_sublist_rows (scope : Scope) : (s.results scope).Sublist (s.rows scope) := by
  unfold results
  split
  · exact firstOfEach_sublist _ _
  · exact .refl _

theorem results_sublist (scope : Scope) : (s.results scope).Sublist s.reports :=
  (s.results_sublist_rows scope).trans (s.rows_sublist scope)

theorem results_folded (scope : Scope) :
    s.results (scope.folded true) = leaders (·.bugHash) (s.results (scope.folded false)) := by
  rw [s.results_of_unique (scope.folded true) rfl, s.results_of_every (scope.folded false) rfl,
    rows_folded, rows_folded, firstOfEach_eq_leaders]

theorem resultCount_folded (scope : Scope) :
    s.resultCount (scope.folded true) =
      (hashes (s.results (scope.folded false))).toFinset.card := by
  rw [resultCount, s.results_of_unique (scope.folded true) rfl,
    s.results_of_every (scope.folded false) rfl, rows_folded, rows_folded, hashes,
    length_firstOfEach]

/-- unique mode keeps every hash -/
theorem mem_hashes_results (scope : Scope) (h : String) :
    h ∈ hashes (s.results scope) ↔ h ∈ hashes (s.rows scope) := by
  unfold results
  split
  · exact mem_keys_firstOfEach _ _ _
  · exact Iff.rfl

theorem rows_against (scope : Scope) (c : Comparison) (d : DiffType) :
    s.rows (scope.against c d) =
      compared d (s.baseline scope) (s.comparisonRows c scope.filter) := rfl

theorem mem_hashes_against (scope : Scope) (c : Comparison) (d : DiffType) (h : String) :
    h ∈ hashes (s.results (scope.against c d)) ↔
      shows (hashes (s.baseline scope)) (hashes (s.comparisonRows c scope.filter)) d h := by
  rw [mem_hashes_results, rows_against, mem_hashes_compared]

/-! ## the sides exchanged -/

/-- without tags, the reports of some runs are the same as baseline and as the other side -/
theorem baseline_eq_comparisonRows {runs : List Int} (hr : runs ≠ []) {f : ReportFilter}
    (hf : f.runTag = []) {c : Comparison} (hc : c.runIds = some runs) (ht : c.runTag.getD [] = [])
    (other : Option Comparison) : s.baseline ⟨runs, f, other⟩ = s.comparisonRows c f := by
  have htag : ∀ r, s.hasTag [] r = false := by
    intro r
    have hnone : (s.tags.filter fun t => ([] : List Int).contains t.id) = [] :=
      List.filter_eq_nil_iff.2 fun _ _ => by simp
    rw [hasTag, hnone]
    rfl
  have hruns : runs.isEmpty = false := List.isEmpty_eq_false_iff.2 hr
  refine List.filter_congr fun r _ => ?_
  simp only [inBaseline, inComparison, isOneOf, hf, hc, ht, htag, hruns, List.isEmpty_nil,
    Option.getD_some, Bool.and_true, Bool.false_or, Bool.or_false]

/-- what is new against one side is resolved against the other -/
theorem results_exchange {a b : List Int} (ha : a ≠ []) (hb : b ≠ []) {f : ReportFilter}
    (hf : f.runTag = []) {x y : Comparison} (hx : x.runIds = some b ∧ x.runTag.getD [] = [])
    (hy : y.runIds = some a ∧ y.runTag.getD [] = []) :
    s.results ((Scope.mk a f none).against x .new) =
      s.results ((Scope.mk b f none).against y .resolved) := by
  have hrows : s.rows ((Scope.mk a f none).against x .new) =
      s.rows ((Scope.mk b f none).against y .resolved) := by
    rw [rows_against, rows_against, s.baseline_eq_comparisonRows ha hf hy.1 hy.2,
      s.baseline_eq_comparisonRows hb hf hx.1 hx.2]
    rfl
  rw [results, results, hrows]
  rfl

/-- For every store and every scope. The results are stored reports in stored order; unique mode
shows the first row of each hash of what is shown without it. Against a comparison, what is new has
the hashes of the other side that the baseline lacks, what is resolved those of the baseline that
the other side lacks, what is unresolved those of both; what is new and what is unresolved are all
rows of the other side, each once, and no two sides show a common hash. Between runs alone, to
exchange the sides is to exchange what is new and what is resolved. -/
theorem results_by_hash (s : Store) (scope : Scope) :
    (s.results scope).Sublist s.reports ∧
    (s.results (scope.folded true) = leaders (·.bugHash) (s.results (scope.folded false)) ∧
      s.resultCount (scope.folded true) =
        (hashes (s.results (scope.folded false))).toFinset.card ∧
      s.resultCount (scope.folded true) ≤ s.resultCount (scope.folded false)) ∧
    (∀ c : Comparison,
      (∀ d h, h ∈ hashes (s.results (scope.against c d)) ↔
        shows (hashes (s.baseline scope)) (hashes (s.comparisonRows c scope.filter)) d h) ∧
      (∀ d e, d ≠ e → ∀ u v,
        (hashes (s.results ((scope.folded u).against c d))).Disjoint
          (hashes (s.results ((scope.folded v).against c e)))) ∧
      let every (d : DiffType) := s.results ((scope.folded false).against c d)
      (every .new ++ every .unresolved).Perm (s.comparisonRows c scope.filter) ∧
        (every .new).Disjoint (every .unresolved)) ∧
    ∀ a b : List Int, a ≠ [] → b ≠ [] → scope.filter.runTag = [] → ∀ x y : Comparison,
      x.runIds = some b → x.runTag.getD [] = [] → y.runIds = some a → y.runTag.getD [] = [] →
      let between (runs : List Int) := Scope.mk runs scope.filter none
      s.results ((between a).against x .new) = s.results ((between b).against y .resolved) ∧
        ∀ h, h ∈ hashes (s.results ((between a).against x .unresolved)) ↔
          h ∈ hashes (s.results ((between b).against y .unresolved)) := by
  have hdisjoint : ∀ (c : Comparison) (d e : DiffType), d ≠ e → ∀ u v,
      (hashes (s.results ((scope.folded u).against c d))).Disjoint
        (hashes (s.results ((scope.folded v).against c e))) := by
    intro c d e hne u v h hd he
    rw [mem_hashes_against] at hd he
    exact shows_disjoint hne hd he
  refine ⟨s.results_sublist scope, ⟨s.results_folded scope, s.resultCount_folded scope, ?_⟩,
    fun c => ⟨fun d h => s.mem_hashes_against scope c d h, hdisjoint c, ?_, ?_⟩, ?_⟩
  · exact (firstOfEach_sublist _ _).length_le
  · exact perm_compared (s.baseline scope) (s.comparisonRows c scope.filter)
  · intro r hnew hold
    exact hdisjoint c .new .unresolved (by decide) false false (List.mem_map.2 ⟨r, hnew, rfl⟩)
      (List.mem_map.2 ⟨r, hold, rfl⟩)
  · intro a b ha hb hf x y hx hxt hy hyt between
    refine ⟨s.results_exchange ha hb hf ⟨hx, hxt⟩ ⟨hy, hyt⟩, fun h => ?_⟩
    rw [mem_hashes_against, mem_hashes_against, s.baseline_eq_comparisonRows ha hf hy hyt,
      s.baseline_eq_comparisonRows hb hf hx hxt]
    exact and_comm

/-- two runs with a report of one hash, of different severities, and another report each -/
def recurring : Store where
  runs := [⟨1, "alpha"⟩, ⟨2, "beta"⟩]
  reports :=
    [{ id := 1, runId := 1, bugHash := "h1", filePath := "/a.c", checkerName := "c",
       severity := .low, detectedAt := 0 },
     { id := 2, runId := 1, bugHash := "h2", filePath := "/b.c", checkerName := "c",
       severity := .low, detectedAt := 0 },
     { id := 3, runId := 2, bugHash := "h1", filePath := "/a.c", checkerName := "c",
       severity := .high, detectedAt := 0 },
     { id := 4, runId := 2, bugHash := "h3", filePath := "/c.c", checkerName := "c",
       severity := .high, detectedAt := 0 }]

theorem results_by_hash_recurring :
    let alpha : Scope := ⟨[1], {}, none⟩
    let beta : Scope := ⟨[2], {}, none⟩
    let toBeta : Comparison := { runIds := some [2] }
    let toAlpha : Comparison := { runIds := some [1] }
    recurring.results (alpha.against toBeta .new) =
        recurring.results (beta.against toAlpha .resolved) ∧
      hashes (recurring.results (alpha.against toBeta .new)) = ["h3"] ∧
      (hashes (recurring.results ((alpha.folded true).against toBeta .new))).Disjoint
        (hashes (recurring.results ((alpha.folded false).against toBeta .unresolved))) := by
  intro alpha beta toBeta toAlpha
  have h := results_by_hash recurring alpha
  exact ⟨(h.2.2.2 [1] [2] (by decide) (by decide) rfl toBeta toAlpha rfl rfl rfl rfl).1,
    by decide +kernel, (h.2.2.1 toBeta).2.1 .new .unresolved (by decide) true false⟩

end Store

end Triage
