import Triage.Proofs.Conditions

/-!
# Scopes that differ only in the order of their ids

A scope names runs and tags by lists of ids.  Only the members of these lists count:

* `SameIds a b`          two lists of ids have the same members;
* `Query.Alike`, `Scope.Alike`   two queries, two scopes agree up to `SameIds`;
* `Query.Alike.scope`    alike queries have alike scopes;
* `Store.results_congr`  alike scopes select the same reports, in the same order, and so all counted
                         answers agree (`runCounts_congr`, `tagCounts_congr`, `codesOf_congr`,
                         `namesOf_congr`, `componentCounts_congr`).
-/

namespace Triage

/-- two lists of ids have the same members -/
def SameIds (a b : List Int) : Prop := ∀ x, x ∈ a ↔ x ∈ b

namespace SameIds

theorem refl (a : List Int) : SameIds a a := fun _ => Iff.rfl
theorem symm {a b : List Int} (h : SameIds a b) : SameIds b a := fun x => (h x).symm
theorem trans {a b c : List Int} (h : SameIds a b) (k : SameIds b c) : SameIds a c :=
  fun x => (h x).trans (k x)

theorem isEmpty_eq {a b : List Int} (h : SameIds a b) : a.isEmpty = b.isEmpty :=
  SameMembers.isEmpty_eq h

end SameIds

/-! ## alike scopes -/

structure ReportFilter.Alike (a b : ReportFilter) : Prop where
  runTag : SameIds a.runTag b.runTag
  rest : { a with runTag := [] } = { b with runTag := [] }

structure Comparison.Alike (a b : Comparison) : Prop where
  runIds : SameIds (a.runIds.getD []) (b.runIds.getD [])
  runTag : SameIds (a.runTag.getD []) (b.runTag.getD [])
  diffType : a.diffType = b.diffType

structure Scope.Alike (a b : Scope) : Prop where
  runIds : SameIds a.runIds b.runIds
  filter : a.filter.Alike b.filter
  comparison : Option.Rel Comparison.Alike a.comparison b.comparison

structure Query.Alike (a b : Query) : Prop where
  runIds : SameIds a.runIds b.runIds
  filter : a.filter.Alike b.filter
  compareRunIds : SameIds a.compareRunIds b.compareRunIds
  compareRunTags : SameIds a.compareRunTags b.compareRunTags
  diffType : a.diffType = b.diffType

theorem ReportFilter.Alike.refl (a : ReportFilter) : a.Alike a := ⟨.refl _, rfl⟩

theorem ReportFilter.Alike.symm {a b : ReportFilter} (h : a.Alike b) : b.Alike a :=
  ⟨h.runTag.symm, h.rest.symm⟩

theorem ReportFilter.Alike.trans {a b c : ReportFilter} (h : a.Alike b) (k : b.Alike c) :
    a.Alike c := ⟨h.runTag.trans k.runTag, h.rest.trans k.rest⟩

theorem Comparison.Alike.refl (a : Comparison) : a.Alike a := ⟨.refl _, .refl _, rfl⟩

theorem Comparison.Alike.symm {a b : Comparison} (h : a.Alike b) : b.Alike a :=
  ⟨h.runIds.symm, h.runTag.symm, h.diffType.symm⟩

theorem Comparison.Alike.trans {a b c : Comparison} (h : a.Alike b) (k : b.Alike c) : a.Alike c :=
  ⟨h.runIds.trans k.runIds, h.runTag.trans k.runTag, h.diffType.trans k.diffType⟩

theorem Query.Alike.refl (a : Query) : a.Alike a := ⟨.refl _, .refl _, .refl _, .refl _, rfl⟩

/-- a relation between the values of two optional ones, kept by symmetry and transitivity -/
theorem rel_symm {α : Type} {R : α → α → Prop} (hR : ∀ a b, R a b → R b a) :
    ∀ {x y : Option α}, Option.Rel R x y → Option.Rel R y x
  | _, _, .none => .none
  | _, _, .some h => .some (hR _ _ h)

theorem rel_imp {α : Type} {R S : α → α → Prop} (h : ∀ a b, R a b → S a b) :
    ∀ {x y : Option α}, Option.Rel R x y → Option.Rel S x y
  | _, _, .none => .none
  | _, _, .some k => .some (h _ _ k)

theorem rel_trans {α : Type} {R : α → α → Prop} (hR : ∀ a b c, R a b → R b c → R a c) :
    ∀ {x y z : Option α}, Option.Rel R x y → Option.Rel R y z → Option.Rel R x z
  | _, _, _, .none, .none => .none
  | _, _, _, .some h, .some k => .some (hR _ _ _ h k)

namespace Scope.Alike

theorem refl (a : Scope) : a.Alike a := by
  refine ⟨.refl _, .refl _, ?_⟩
  cases a.comparison with
  | none => exact .none
  | some c => exact .some (.refl c)

theorem symm {a b : Scope} (h : a.Alike b) : b.Alike a :=
  ⟨h.runIds.symm, h.filter.symm, rel_symm (R := Comparison.Alike) (fun _ _ => .symm) h.comparison⟩

theorem trans {a b c : Scope} (h : a.Alike b) (k : b.Alike c) : a.Alike c :=
  ⟨h.runIds.trans k.runIds, h.filter.trans k.filter,
    rel_trans (R := Comparison.Alike) (fun _ _ _ => .trans) h.comparison k.comparison⟩

end Scope.Alike

theorem Query.Alike.scope {a b : Query} (h : a.Alike b) : a.scope.Alike b.scope :=
  ⟨h.runIds, h.filter, rel_imp (fun _ _ k => ⟨k.runIds, k.runTag, k.diffType⟩)
    (Comparison.rel_ofSides h.compareRunIds h.compareRunTags h.diffType)⟩

/-! ## the selected reports -/

theorem ReportFilter.Alike.same {a b : ReportFilter} (h : a.Alike b) : a.Same b := by
  have hr := h.rest
  simp only [ReportFilter.mk.injEq] at hr
  obtain ⟨h1, h2, h3, h4, h5, h6, h7, -, h8, h9, h10, h11⟩ := hr
  exact ⟨.of_eq h1, .of_eq h2, .of_eq h3, .of_eq h4, .of_eq h5, .of_eq h6, .of_eq h7, h.runTag,
    .of_eq h8, h9, h10, h11⟩

theorem Scope.Alike.same {a b : Scope} (h : a.Alike b) : a.Same b :=
  ⟨h.runIds, h.filter.same, rel_imp (fun _ _ k => ⟨k.runIds, k.runTag, k.diffType⟩) h.comparison⟩

namespace Store

/-- only the members of the id lists count -/
theorem results_congr (s : Store) {a b : Scope} (h : a.Alike b) : s.results a = s.results b :=
  s.results_same h.same

theorem resultCount_congr (s : Store) {a b : Scope} (h : a.Alike b) :
    s.resultCount a = s.resultCount b := by
  rw [resultCount, resultCount, results_congr s h]

/-! ## counted answers -/

theorem runCounts_congr (s : Store) {a b : Scope} (h : a.Alike b) (patterns : List String) :
    s.runCounts a patterns = s.runCounts b patterns := by
  have e : ∀ r : Run, s.resultCount { a with runIds := [r.id] } =
      s.resultCount { b with runIds := [r.id] } := fun r =>
    resultCount_congr s ⟨.refl _, h.filter, h.comparison⟩
  simp only [runCounts, e]

theorem tagCounts_congr (s : Store) {a b : Scope} (h : a.Alike b) (patterns : List String) :
    s.tagCounts a patterns = s.tagCounts b patterns := by
  have hr := h.filter.rest
  have e : ∀ t : RunTag,
      s.resultCount { a with filter := { a.filter with runTag := [t.id] } } =
        s.resultCount { b with filter := { b.filter with runTag := [t.id] } } := fun t =>
    resultCount_congr s ⟨h.runIds, ⟨.refl _, hr⟩, h.comparison⟩
  simp only [tagCounts, e]

theorem codesOf_congr {α : Type} [Coded α] [BEq α] (s : Store) (key : Report → α) {a b : Scope}
    (h : a.Alike b) : s.codesOf key a = s.codesOf key b := by
  simp only [codesOf, results_congr s h]

end Store

theorem ReportFilter.Alike.setPatterns {a b : ReportFilter} (h : a.Alike b)
    (field : TextAttribute) (ps : List String) :
    (field.setPatterns ps a).Alike (field.setPatterns ps b) := by
  have hr := h.rest
  cases field <;>
    exact ⟨h.runTag, by simp only [TextAttribute.setPatterns, ReportFilter.mk.injEq] at hr ⊢; simp [hr]⟩

theorem ReportFilter.Alike.setComponents {a b : ReportFilter} (h : a.Alike b)
    (names : List String) :
    ReportFilter.Alike { a with componentNames := names } { b with componentNames := names } := by
  have hr := h.rest
  refine ⟨h.runTag, ?_⟩
  simp only [ReportFilter.mk.injEq] at hr ⊢
  simp [hr]

theorem ReportFilter.Alike.patterns_eq {a b : ReportFilter} (h : a.Alike b)
    (field : TextAttribute) : field.patterns a = field.patterns b := by
  have e : ∀ f : ReportFilter, field.patterns f = field.patterns { f with runTag := [] } := by
    cases field <;> exact fun _ => rfl
  rw [e a, e b, h.rest]

theorem ReportFilter.Alike.componentNames_eq {a b : ReportFilter} (h : a.Alike b) :
    a.componentNames = b.componentNames := by
  have e := congrArg ReportFilter.componentNames h.rest
  exact e

namespace Store

theorem namesOf_congr (s : Store) (field : TextAttribute) {a b : Scope} (h : a.Alike b) :
    s.namesOf field a = s.namesOf field b := by
  have e : s.textsOf field a = s.textsOf field b := by
    have hr : s.results { a with filter := field.setPatterns [] a.filter } =
        s.results { b with filter := field.setPatterns [] b.filter } :=
      results_congr s ⟨h.runIds, h.filter.setPatterns field [], h.comparison⟩
    rw [textsOf, textsOf, hr]
  simp only [namesOf, e, h.filter.patterns_eq field]

theorem componentCounts_congr (s : Store) {a b : Scope} (h : a.Alike b) :
    s.componentCounts a = s.componentCounts b := by
  have e : s.results { a with filter := { a.filter with componentNames := [] } } =
      s.results { b with filter := { b.filter with componentNames := [] } } :=
    results_congr s ⟨h.runIds, h.filter.setComponents [], h.comparison⟩
  simp only [componentCounts, e, h.filter.componentNames_eq]

end Store

end Triage
