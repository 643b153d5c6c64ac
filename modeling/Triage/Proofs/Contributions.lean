import Triage.Proofs.Operations
import Triage.Proofs.ShareLinks

/-!
# What a facet contributes to the query

A facet contributes nothing for a selected value that it cannot read again.  No operation brings
such a value in, so every selected value has its effect on the query:

* `proper_edit`, `proper_visited`   what an operation does to a facet keeps its selection proper;
* `proper_applyAll`                 so does every sequence of operations on a standard panel;
* `FacetKind.only k q`              the part of a query that belongs to the facet of kind `k`
                                    (`only_queryOf`: it is what that facet contributes);
* `Facet.ReflectedIn q f`           the query says exactly what is selected in the facet
                                    (`reflectedIn_addTo`);
* `selections_reflected`            in every state that operations can reach, every selected value is
                                    in its canonical form, and the query says what is selected.
-/

namespace Triage

/-! ## selections stay proper -/

namespace Facet

theorem Proper.of_face {f g : Facet} (h : g.face = f.face) (hf : f.Proper) : g.Proper := by
  have hv : g.selection.values = f.selection.values := values_of_face h
  unfold Proper at hf ⊢
  rw [kind_of_face h]
  exact hf.of_sublist (mode_of_face h) (hv ▸ .refl _)

theorem proper_visited {f : Facet} (h : f.Proper) (except : List String) :
    (f.visited except).Proper := by
  unfold visited
  split
  · exact h
  · exact f.steady_forget.proper h

theorem proper_searching {f : Facet} (h : f.Proper) (now : Nat) : (f.searching now).Proper := by
  unfold searching
  split
  · exact h
  · exact h

theorem proper_taking {f : Facet} (h : f.Proper) (h? : Option History) :
    (f.taking h?).Proper := by
  cases h? with
  | none => exact h
  | some taken => exact proper_load h taken

end Facet

namespace Panel

theorem proper_edit (p : Panel) (o : Operation) {f : Facet} (h : f.Proper) :
    (p.edit o f).Proper := by
  have hif : ∀ {id : String} {g : Facet}, g.Proper → (if f.id = id then g else f).Proper := by
    intro id g hg
    split
    · exact hg
    · exact h
  unfold edit
  split
  · exact hif (Facet.proper_selected h _ _)
  · exact hif (Facet.proper_deselect h _)
  · exact hif (Facet.proper_clear h)
  · exact Facet.proper_clear h
  · exact hif h
  · exact Facet.proper_searching h _
  · exact hif h
  · exact hif h
  · exact Facet.proper_taking h _

theorem proper_effect (p : Panel) (o : Operation) {f : Facet} (h : f.Proper) :
    (p.effect o f).Proper := by
  unfold effect
  split
  · exact Facet.proper_visited (proper_edit p o h) _
  · exact proper_edit p o h

/-- nothing can be selected that a facet would not read again -/
theorem proper_applyAll (config : Config) (g : Gateway) (tab : String) (os : List Operation) :
    ∀ f ∈ ((standard config g tab).applyAll os).facets, f.Proper := by
  refine forall_applyAll (I := Facet.Proper) Facet.Proper.of_face Facet.proper_make
    (fun p o f => proper_effect p o) os (complete_standard config g tab []).distinct ?_
  intro f hf
  obtain ⟨k, -, rfl⟩ := List.mem_map.1 hf
  exact Facet.proper_make k _

end Panel

/-! ## the part of a query that belongs to a facet -/

namespace FacetKind

def onlyFilter (k : FacetKind) (q : ReportFilter) : ReportFilter :=
  match k with
  | .runTag .baseline => { runTag := q.runTag }
  | .unique => { isUnique := q.isUnique }
  | .reviewStatus => { reviewStatus := q.reviewStatus }
  | .detectionStatus => { detectionStatus := q.detectionStatus }
  | .severity => { severity := q.severity }
  | .pathLength => { bugPathLength := q.bugPathLength }
  | .date .detected => { date := { detected := q.date.detected } }
  | .date .fixed => { date := { fixed := q.date.fixed } }
  | .text field => field.setPatterns (field.patterns q) {}
  | .component => { componentNames := q.componentNames }
  | .reportHash => { reportHash := q.reportHash }
  | .run _ | .runTag .compare | .diffType => {}

/-- the part of a query that belongs to the facet of a kind -/
def only (k : FacetKind) (q : Query) : Query :=
  match k with
  | .run .baseline => { runIds := q.runIds }
  | .run .compare => { compareRunIds := q.compareRunIds }
  | .runTag .compare => { compareRunTags := q.compareRunTags }
  | .diffType => { diffType := q.diffType }
  | k => { filter := k.onlyFilter q.filter }

end FacetKind

namespace Facet

/-- a facet contributes its own part -/
theorem only_addTo_self (f : Facet) (q : Query) : f.kind.only (f.addTo q) = f.addTo {} := by
  unfold addTo constrain
  cases hk : f.kind with
  | run side | runTag side => cases side <;> rfl
  | date field | text field => cases field <;> rfl
  | _ => rfl

/-- and leaves the others alone -/
theorem only_addTo_of_ne {k : FacetKind} {f : Facet} (h : f.kind ≠ k) (q : Query) :
    k.only (f.addTo q) = k.only q := by
  unfold addTo constrain
  -- every kind writes a field of its own, which no other kind reads
  rcases hk : f.kind
    with (_ | _) | (_ | _) | _ | _ | _ | _ | _ | _ | (_ | _) | (_ | _ | _) | _ | _ <;>
    rcases k with (_ | _) | (_ | _) | _ | _ | _ | _ | _ | _ | (_ | _) | (_ | _ | _) | _ | _ <;>
    first
      | rfl
      | exact absurd hk h

end Facet

namespace Panel

theorem only_foldl_of_ne {k : FacetKind} {fs : List Facet} (h : ∀ f ∈ fs, f.kind ≠ k) :
    ∀ q : Query, k.only (fs.foldl (fun q f => f.addTo q) q) = k.only q := by
  induction fs with
  | nil => intro q; rfl
  | cons f fs ih =>
    intro q
    rw [List.foldl_cons, ih fun g hg => h g (List.mem_cons_of_mem _ hg),
      Facet.only_addTo_of_ne (h f List.mem_cons_self)]

/-- in the query of a panel, the part of a facet is what it contributes -/
theorem only_queryOf {fs : List Facet} (hd : Distinct fs) {f : Facet} (hf : f ∈ fs) :
    f.kind.only (queryOf fs) = f.addTo {} := by
  obtain ⟨before, after, rfl⟩ := List.append_of_mem hf
  have hafter : ∀ g ∈ after, g.kind ≠ f.kind := by
    intro g hg e
    rw [Distinct, List.map_append, List.map_cons] at hd
    have hn := (List.nodup_cons.1 (List.nodup_append.1 hd).2.1).1
    exact hn (List.mem_map.2 ⟨g, hg, e⟩)
  rw [queryOf, List.foldl_append, List.foldl_cons, only_foldl_of_ne hafter, Facet.only_addTo_self]

end Panel

/-! ## what a query says -/

namespace Facet

/-- the query says exactly what is selected in the facet -/
def ReflectedIn (q : Query) (f : Facet) : Prop :=
  match f.kind with
  | .run .baseline => q.runIds = [] ↔ f.values = []
  | .run .compare => q.compareRunIds = [] ↔ f.values = []
  | .runTag .baseline => q.filter.runTag = [] ↔ f.values = []
  | .runTag .compare => q.compareRunTags = [] ↔ f.values = []
  | .diffType => ∀ v ∈ f.values, f.values = [v] ∧ Coded.label q.diffType = v
  | .unique => q.filter.isUnique = true ↔ "on" ∈ f.values
  | .reviewStatus => q.filter.reviewStatus.map Coded.label = f.values
  | .detectionStatus => q.filter.detectionStatus.map Coded.label = f.values
  | .severity => q.filter.severity.map Coded.label = f.values
  | .pathLength => (q.filter.bugPathLength.map FacetKind.rangeText).toList = f.values
  | .date .detected => (q.filter.date.detected.map Calendar.Interval.encode).toList = f.values
  | .date .fixed => (q.filter.date.fixed.map Calendar.Interval.encode).toList = f.values
  | .text field => field.patterns q.filter = f.values
  | .component => q.filter.componentNames = f.values
  | .reportHash => q.filter.reportHash = f.values

/-- this reads nothing but the facet's own part of the query -/
theorem reflectedIn_only (f : Facet) (q : Query) :
    f.ReflectedIn (f.kind.only q) ↔ f.ReflectedIn q := by
  unfold ReflectedIn
  rcases f.kind with (_ | _) | (_ | _) | _ | _ | _ | _ | _ | _ | (_ | _) | (_ | _ | _) | _ | _ <;>
    exact Iff.rfl

/-! ## one kind after the other -/

/-- ids are missing from a condition only when nothing is selected -/
theorem idCondition_eq_nil_iff (f : Facet) : f.idCondition = [] ↔ f.values = [] := by
  have he : f.selection.isEmpty = true ↔ f.values = [] := f.selection.isEmpty_iff
  rw [← he]
  unfold idCondition
  cases hs : f.selection.isEmpty with
  | true =>
    have hi : f.selection.ids = [] := by
      rw [Selection.isEmpty, List.isEmpty_iff] at hs
      rw [Selection.ids, hs]
      rfl
    simp [hi]
  | false =>
    by_cases hi : f.selection.ids = []
    · simp [hi]
    · simp [hi]

theorem labels_codes {α : Type} [Coded α] {f : Facet}
    (h : ∀ v ∈ f.values, FacetKind.labelValue? α v = some v) :
    (f.codes α).map Coded.label = f.values := by
  rw [codes, List.map_filterMap]
  exact (List.filterMap_congr h).trans List.filterMap_some

theorem labels_diffType {f : Facet} {v : String} (hv : f.values = [v])
    (h : FacetKind.labelValue? DiffType v = some v) : Coded.label f.diffType = v := by
  obtain ⟨d, hd, hl⟩ := Option.map_eq_some_iff.1 h
  have he : f.diffType = d := by
    unfold diffType
    rw [hv]
    show ((Coded.ofLabel? v : Option DiffType)).getD .new = d
    rw [hd]
    rfl
  rw [he, hl]

theorem encode_interval {f : Facet} {v : String} (hv : f.values = [v]) (ht : Text.IsTrimmed v)
    (h : FacetKind.dateValue? v = some v) :
    (f.interval.map Calendar.Interval.encode).toList = [v] := by
  unfold FacetKind.dateValue? at h
  rw [ht.trim] at h
  cases hp : Calendar.Interval.parse v with
  | error e =>
    rw [hp] at h
    cases h
  | ok i =>
    rw [hp] at h
    dsimp only at h
    split at h
    · cases h
    · have hi : f.interval = some i := by
        unfold interval
        rw [hv]
        show (Calendar.Interval.parse v).toOption = some i
        rw [hp]
        rfl
      rw [hi]
      exact congrArg Option.toList h

/-- a proper selection contributes all of its values -/
theorem reflectedIn_addTo {f : Facet} (hf : f.Proper) : f.ReflectedIn (f.addTo {}) := by
  have hcanon : ∀ v ∈ f.values, f.kind.canonical v = some v := fun v hv =>
    (spelled_of_mem hf hv).canonical
  have hone := values_of_single hf
  unfold ReflectedIn addTo constrain
  cases hk : f.kind with
  | run side | runTag side => cases side <;> exact f.idCondition_eq_nil_iff
  | diffType =>
    intro v hv
    obtain hnil | ⟨w, hw⟩ := hone (by rw [hk]; rfl)
    · rw [hnil] at hv
      cases hv
    · have hvw : v = w := by rwa [hw, List.mem_singleton] at hv
      rw [hk] at hcanon
      rw [hvw]
      exact ⟨hw, labels_diffType hw (hcanon w (hw ▸ List.mem_singleton_self w))⟩
  | unique => exact f.selection.contains_iff "on"
  | reviewStatus | detectionStatus | severity =>
    rw [hk] at hcanon
    exact labels_codes hcanon
  | pathLength =>
    show (f.range.map FacetKind.rangeText).toList = f.values
    obtain hnil | ⟨v, hv⟩ := hone (by rw [hk]; rfl)
    · rw [range, hnil]
      rfl
    · obtain ⟨r, -, ht, hr⟩ := range_of_values hf hk hv
      rw [hr, hv, ← ht]
      rfl
  | date field =>
    have hdate : (f.interval.map Calendar.Interval.encode).toList = f.values := by
      obtain hnil | ⟨v, hv⟩ := hone (by rw [hk]; rfl)
      · rw [interval, hnil]
        rfl
      · have hm : v ∈ f.values := hv ▸ List.mem_singleton_self v
        have hc := hcanon v hm
        rw [hk] at hc
        rw [hv]
        exact encode_interval hv (spelled_of_mem hf hm).trimmed hc
    cases field <;> exact hdate
  | text field => cases field <;> rfl
  | component => rfl
  | reportHash => rfl

end Facet

namespace Panel

/-- In every state of a standard panel, whatever is done to it and whatever the service answers: the
values of a facet are distinct, at most one where only one can be chosen, and each in its canonical
form; and the query says exactly what is selected. -/
theorem selections_reflected (config : Config) (g : Gateway) (tab : String)
    (os : List Operation) :
    let p := (standard config g tab).applyAll os
    p.facets.map (·.kind) = FacetKind.all ∧
    ∀ f ∈ p.facets, f.values.Nodup ∧ (f.kind.mode = .single → f.values.length ≤ 1) ∧
      (∀ v ∈ f.values, f.kind.canonical v = some v) ∧ f.ReflectedIn p.query := by
  intro p
  have hc : p.Complete config tab := complete_standard config g tab os
  refine ⟨hc.kinds, fun f hf => ?_⟩
  have hproper : f.Proper := proper_applyAll config g tab os f hf
  refine ⟨Selection.Proper.distinct hproper, Selection.Proper.single hproper,
    fun v hv => (Facet.spelled_of_mem hproper hv).canonical, ?_⟩
  rw [← Facet.reflectedIn_only]
  show f.ReflectedIn (f.kind.only (queryOf p.facets))
  rw [only_queryOf hc.distinct hf]
  exact Facet.reflectedIn_addTo hproper

end Panel
end Triage
