import Triage.Report.Counts

/-!
# Only the members of a condition count

A scope holds its conditions as lists of ids, patterns and codes.  Neither the order of a list nor a
member that it repeats shows in the selected reports:

* `SameMembers a b`     two lists have the same members;
* `Query.Same`, `Scope.Same`   two queries, two scopes agree up to `SameMembers`;
* `Query.Same.scope`    such queries have such scopes;
* `Store.results_same`  and these select the same reports, in the same order.
-/

namespace Triage

/-- two lists have the same members -/
def SameMembers {α : Type} (a b : List α) : Prop := ∀ x, x ∈ a ↔ x ∈ b

namespace SameMembers

variable {α : Type} {a b : List α}

theorem refl (a : List α) : SameMembers a a := fun _ => Iff.rfl
theorem of_eq (h : a = b) : SameMembers a b := fun _ => by rw [h]

theorem nil_iff (h : SameMembers a b) : a = [] ↔ b = [] := by
  rw [List.eq_nil_iff_forall_not_mem, List.eq_nil_iff_forall_not_mem]
  exact forall_congr' fun x => not_congr (h x)

theorem isEmpty_eq (h : SameMembers a b) : a.isEmpty = b.isEmpty := by
  rw [Bool.eq_iff_iff, List.isEmpty_iff, List.isEmpty_iff]
  exact h.nil_iff

theorem contains_eq [BEq α] [LawfulBEq α] (h : SameMembers a b) (x : α) :
    a.contains x = b.contains x := by
  rw [Bool.eq_iff_iff, List.contains_iff_mem, List.contains_iff_mem]
  exact h x

theorem isOneOf_eq [BEq α] [LawfulBEq α] (h : SameMembers a b) (x : α) :
    Store.isOneOf a x = Store.isOneOf b x := by
  rw [Store.isOneOf, Store.isOneOf, h.isEmpty_eq, h.contains_eq]

theorem any_eq (h : SameMembers a b) (p : α → Bool) : a.any p = b.any p := by
  rw [Bool.eq_iff_iff, List.any_eq_true, List.any_eq_true]
  exact exists_congr fun x => and_congr_left fun _ => h x

theorem anyGlob_eq {a b : List String} (h : SameMembers a b) (text : String) :
    anyGlob a text = anyGlob b text := h.any_eq _

theorem wanted_eq {a b : List String} (h : SameMembers a b) (text : String) :
    wanted a text = wanted b text := by
  rw [wanted, wanted, h.isEmpty_eq, h.anyGlob_eq]

theorem filterMap {β : Type} (h : SameMembers a b) (f : α → Option β) :
    SameMembers (a.filterMap f) (b.filterMap f) := by
  intro y
  rw [List.mem_filterMap, List.mem_filterMap]
  exact exists_congr fun x => and_congr_left fun _ => h x

end SameMembers

/-! ## scopes with the same conditions -/

structure ReportFilter.Same (a b : ReportFilter) : Prop where
  filepath : SameMembers a.filepath b.filepath
  checkerMsg : SameMembers a.checkerMsg b.checkerMsg
  checkerName : SameMembers a.checkerName b.checkerName
  reportHash : SameMembers a.reportHash b.reportHash
  severity : SameMembers a.severity b.severity
  reviewStatus : SameMembers a.reviewStatus b.reviewStatus
  detectionStatus : SameMembers a.detectionStatus b.detectionStatus
  runTag : SameMembers a.runTag b.runTag
  componentNames : SameMembers a.componentNames b.componentNames
  bugPathLength : a.bugPathLength = b.bugPathLength
  date : a.date = b.date
  isUnique : a.isUnique = b.isUnique

structure Comparison.Same (a b : Comparison) : Prop where
  runIds : SameMembers (a.runIds.getD []) (b.runIds.getD [])
  runTag : SameMembers (a.runTag.getD []) (b.runTag.getD [])
  diffType : a.diffType = b.diffType

structure Scope.Same (a b : Scope) : Prop where
  runIds : SameMembers a.runIds b.runIds
  filter : a.filter.Same b.filter
  comparison : Option.Rel Comparison.Same a.comparison b.comparison

structure Query.Same (a b : Query) : Prop where
  runIds : SameMembers a.runIds b.runIds
  filter : a.filter.Same b.filter
  compareRunIds : SameMembers a.compareRunIds b.compareRunIds
  compareRunTags : SameMembers a.compareRunTags b.compareRunTags
  diffType : a.diffType = b.diffType

theorem ReportFilter.Same.refl (a : ReportFilter) : a.Same a :=
  ⟨.refl _, .refl _, .refl _, .refl _, .refl _, .refl _, .refl _, .refl _, .refl _, rfl, rfl, rfl⟩

theorem Query.Same.refl (a : Query) : a.Same a := ⟨.refl _, .refl _, .refl _, .refl _, rfl⟩

theorem unlessEmpty_getD {α : Type} (l : List α) : (unlessEmpty l).getD [] = l := by
  cases l <;> rfl

/-- two comparisons made of sides with the same members -/
theorem Comparison.rel_ofSides {as bs as' bs' : List Int} {d d' : DiffType}
    (h : SameMembers as as') (k : SameMembers bs bs') (hd : d = d') :
    Option.Rel Comparison.Same (ofSides as bs d) (ofSides as' bs' d') := by
  have e : (as = [] ∧ bs = []) ↔ (as' = [] ∧ bs' = []) := and_congr h.nil_iff k.nil_iff
  unfold ofSides
  by_cases hb : as' = [] ∧ bs' = []
  · rw [if_pos hb, if_pos (e.2 hb)]
    exact .none
  · rw [if_neg hb, if_neg fun ha => hb (e.1 ha)]
    refine .some ⟨?_, ?_, hd⟩
    · show SameMembers ((unlessEmpty as).getD []) ((unlessEmpty as').getD [])
      rw [unlessEmpty_getD, unlessEmpty_getD]
      exact h
    · show SameMembers ((unlessEmpty bs).getD []) ((unlessEmpty bs').getD [])
      rw [unlessEmpty_getD, unlessEmpty_getD]
      exact k

theorem Query.Same.scope {a b : Query} (h : a.Same b) : a.scope.Same b.scope :=
  ⟨h.runIds, h.filter, Comparison.rel_ofSides h.compareRunIds h.compareRunTags h.diffType⟩

/-! ## the selected reports -/

namespace Store

variable (s : Store)

theorem hasTag_same {a b : List Int} (h : SameMembers a b) (r : Report) :
    s.hasTag a r = s.hasTag b r := by
  have e : (fun t : RunTag => a.contains t.id) = fun t => b.contains t.id :=
    funext fun t => h.contains_eq t.id
  rw [hasTag, hasTag, e]

theorem hasComponent_same {a b : List String} (h : SameMembers a b) (r : Report) :
    s.hasComponent a r = s.hasComponent b r := by
  have e : (fun c : Component => anyGlob a c.name) = fun c => anyGlob b c.name :=
    funext fun c => h.anyGlob_eq c.name
  rw [hasComponent, hasComponent, e]

theorem meets_same {a b : ReportFilter} (h : a.Same b) (r : Report) :
    s.meets a r = s.meets b r := by
  rw [meets, meets, h.filepath.wanted_eq, h.checkerName.wanted_eq, h.checkerMsg.wanted_eq,
    h.reportHash.wanted_eq, h.severity.isOneOf_eq, h.reviewStatus.isOneOf_eq,
    h.detectionStatus.isOneOf_eq, h.componentNames.isEmpty_eq,
    s.hasComponent_same h.componentNames, h.bugPathLength, h.date]

theorem inBaseline_same {a b : Scope} (h : a.Same b) (r : Report) :
    s.inBaseline a r = s.inBaseline b r := by
  rw [inBaseline, inBaseline, h.runIds.isOneOf_eq, h.filter.runTag.isEmpty_eq,
    s.hasTag_same h.filter.runTag]

theorem baseline_same {a b : Scope} (h : a.Same b) : s.baseline a = s.baseline b := by
  refine List.filter_congr fun r _ => ?_
  rw [s.inBaseline_same h, s.meets_same h.filter]

theorem comparisonRows_same {c d : Comparison} (h : c.Same d) {f g : ReportFilter}
    (k : f.Same g) : s.comparisonRows c f = s.comparisonRows d g := by
  refine List.filter_congr fun r _ => ?_
  rw [inComparison, inComparison, h.runIds.contains_eq, s.hasTag_same h.runTag, s.meets_same k]

theorem rows_same {a b : Scope} (h : a.Same b) : s.rows a = s.rows b := by
  have hc := h.comparison
  unfold rows
  cases ha : a.comparison <;> cases hb : b.comparison <;> rw [ha, hb] at hc
  · exact s.baseline_same h
  · cases hc
  · cases hc
  · cases hc with
    | some k =>
      show compared _ _ _ = compared _ _ _
      rw [s.baseline_same h, s.comparisonRows_same k h.filter, k.diffType]

/-- neither order nor repetition shows in the selected reports -/
theorem results_same {a b : Scope} (h : a.Same b) : s.results a = s.results b := by
  rw [results, results, s.rows_same h, h.filter.isUnique]

end Store

end Triage
