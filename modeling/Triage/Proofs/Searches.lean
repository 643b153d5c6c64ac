import Triage.Proofs.Bookkeeping
import Triage.Proofs.Patterns
import Triage.Proofs.Tallies

/-!
# Searching by text

A search in a text facet asks for the names that the trimmed text stands somewhere in:

* `ItemsRequest.offer_ofText`   the typed text comes first, unless it is a name of its own;
* `Store.Found`                 what is found in a store: the names that contain the text, ranked by
                                their results (`Store.found_namesOf`);
* `FacetKind.answer_search`     what the service answers to a search, row by row;
* `Panel.candidatesFor_put`     a facet is offered the same whatever it holds itself;
* `Panel.typed_search`          so a search finds exactly the names in the results of the other
                                facets that contain the text.
-/

namespace Triage

namespace ItemsRequest

variable {q : String} (h : Text.trim q ≠ "") (page : Page)
include h

theorem needle_ofText : (ofText q page).needle = some (Text.trim q) :=
  (Option.filter_eq_some_iff).2 ⟨rfl, decide_eq_true h⟩

theorem patterns_ofText : (ofText q page).patterns = [containing (Text.trim q)] := by
  show ((ofText q page).needle.map containing).toList = _
  rw [needle_ofText h]
  rfl

/-- a search offers the typed text in front, unless a row has exactly this text -/
theorem offer_ofText (items : List Candidate) : (ofText q page).offer items =
    (if Text.trim q ∈ items.map (·.value) then [] else [.typed (Text.trim q)]) ++ items := by
  have hvalues : (ofText q page).values = none := rfl
  rw [offer, retain, prependTyped, hvalues, needle_ofText h]
  dsimp only
  have hany : items.any (·.value == Text.trim q) = true ↔ Text.trim q ∈ items.map (·.value) := by
    simp only [List.any_eq_true, beq_iff_eq, List.mem_map]
  by_cases hm : Text.trim q ∈ items.map (·.value)
  · rw [if_pos hm, if_pos (hany.2 hm)]
    rfl
  · rw [if_neg hm, if_neg (mt hany.1 hm)]
    rfl

end ItemsRequest

/-! ## the answer to a search -/

/-- The rows that a search for a text finds: every name in the results that the text stands somewhere
in, once, with its results, the most frequent first and then in the order of strings. -/
structure Store.Found (s : Store) (field : TextAttribute) (scope : Scope) (text : String)
    (rows : List NameTally) : Prop where
  once : (rows.map (·.name)).Nodup
  order : rows.Pairwise fun a b => b.count < a.count ∨ a.count = b.count ∧ a.name < b.name
  names : ∀ name, name ∈ rows.map (·.name) ↔
    (∃ r ∈ s.results scope, field.ofReport r = name) ∧ text.toList <:+: name.toList
  count : ∀ row ∈ rows, row.count =
    (s.results scope).countP fun r => field.ofReport r == row.name

/-- the names between two wildcards are those that contain the text -/
theorem Store.found_namesOf (s : Store) {field : TextAttribute} {scope : Scope}
    (ho : field.patterns scope.filter = []) {text : String} (h : '*' ∉ text.toList) :
    s.Found field scope text
      (s.namesOf field (scope.withTexts field [ItemsRequest.containing text])) := by
  have hranked := s.namesRanked field (scope.withTexts field [ItemsRequest.containing text])
  have hbare : (scope.withTexts field [ItemsRequest.containing text]).withTexts field [] = scope := by
    simp only [Scope.withTexts, TextAttribute.setPatterns_setPatterns,
      FacetKind.setPatterns_of_open ho]
  have hpatterns : field.patterns (scope.withTexts field [ItemsRequest.containing text]).filter =
      [ItemsRequest.containing text] := TextAttribute.patterns_setPatterns _ _ _
  refine ⟨hranked.once, hranked.order, fun name => ?_, fun row hrow => ?_⟩
  · rw [hranked.names name, hbare, hpatterns]
    simp only [List.cons_ne_nil, false_or, List.mem_singleton, exists_eq_left]
    exact and_congr_right fun _ => Glob.accepts_iff_infix h name
  · rw [← hbare]
    exact (hranked.count row hrow).2

/-- rows behind the typed text, which is not repeated -/
def searchItems (text : String) (rows : List NameTally) : List Candidate :=
  (if text ∈ rows.map (·.name) then [] else [.typed text]) ++
    rows.map fun row => .counted row.name row.count

theorem values_rows (rows : List NameTally) :
    (rows.map fun row => Candidate.counted row.name row.count).map (·.value) =
      rows.map (·.name) := by
  rw [List.map_map]
  rfl

/-- what is offered to a search has every value once -/
theorem nodup_searchItems {rows : List NameTally} (h : (rows.map (·.name)).Nodup) (text : String) :
    ((searchItems text rows).map (·.value)).Nodup := by
  rw [searchItems, List.map_append, values_rows]
  split
  · exact h
  · next hne => exact List.nodup_cons.2 ⟨hne, h⟩

theorem FacetKind.answer_search (s : Store) (field : TextAttribute) (scope : Scope) {q : String}
    (h : Text.trim q ≠ "") :
    (FacetKind.text field).answer s scope (.ofText q .all) = searchItems (Text.trim q)
      (s.namesOf field (scope.withTexts field [ItemsRequest.containing (Text.trim q)])) := by
  rw [answer, ItemsRequest.patterns_ofText h, searchItems, ← values_rows]
  exact ItemsRequest.offer_ofText h .all _

/-! ## searching in a panel -/

namespace Panel

variable {s : Store}

theorem Serving.put {p : Panel} (h : p.Serving s) (f : Facet) : (p.put f).Serving s :=
  ⟨h.distinct.of_kinds (kinds_putIn f p.facets), h.store, h.answers⟩

/-- What a facet is offered does not depend on the facet itself: not on its selection, not on its
candidates, nor on anything else that it holds. -/
theorem candidatesFor_put {p : Panel} (hp : p.Serving s) {f g : Facet} (hg : g ∈ p.facets)
    (hk : f.kind = g.kind) (r : ItemsRequest) :
    ((p.put f).candidatesFor g.id r).1 = (p.candidatesFor g.id r).1 := by
  have hid : f.id = g.id := congrArg FacetKind.id hk
  have hf : f ∈ (p.put f).facets := List.mem_map.2 ⟨g, hg, if_pos hk.symm⟩
  obtain ⟨q, hq⟩ := candidatesFor_ok hp hg r
  obtain ⟨q', hq'⟩ := candidatesFor_ok (hp.put f) hf r
  rw [put_facets, scopeOf_putIn, hk, hid] at hq'
  rw [hq, hq']

/-- Search by text. In every state that operations can reach from an empty panel, while the service
answers, a search in a text facet for anything that is not blank and has no wildcard brings candidates:
each name in the results of the other facets that contains the trimmed text, once and with its results,
ranked; and in front the typed text, unless it is one of these names. No value comes twice, and the
answer is the same whatever the facet itself holds. -/
theorem typed_search (config : Config) (s : Store) (g : Gateway) (tab : Option String)
    (os : List Operation) :
    let p := ({ config, gateway := g, tab } : Panel).applyAll os
    p.gateway.store = s → p.gateway.failure = none →
    ∀ field : TextAttribute, FacetKind.text field ∈ p.facets.map (·.kind) → ∀ q : String,
    let k := FacetKind.text field
    let text := Text.trim q
    text ≠ "" → '*' ∉ text.toList →
    ∃ rows items p', p.candidatesFor k.id (.ofText q .all) = (.ok items, p') ∧
      s.Found field (p.scopeWithout k.id) text rows ∧
      items = searchItems text rows ∧ (items.map (·.value)).Nodup ∧
      ∀ f : Facet, f.kind = k → ((p.put f).candidatesFor k.id (.ofText q .all)).1 = .ok items := by
  intro p hs ha field hfield q k text hne hplain
  have hp : p.Serving s := ⟨distinct_applyAll os (registered_empty config g tab).distinct, hs, ha⟩
  obtain ⟨f, hf, hkind⟩ := List.mem_map.1 hfield
  have hid : f.id = k.id := congrArg FacetKind.id hkind
  have hopen : field.patterns (p.scopeWithout k.id).filter = [] :=
    FacetKind.isOpen_others k p.facets
  have hfound := s.found_namesOf hopen hplain
  obtain ⟨p', hitems⟩ := candidatesFor_ok hp hf (.ofText q .all)
  have hown : ∀ f' : Facet, f'.kind = k → ((p.put f').candidatesFor k.id (.ofText q .all)).1 =
      (p.candidatesFor k.id (.ofText q .all)).1 := fun f' hk => by
    rw [← hid]
    exact candidatesFor_put hp hf (hk.trans hkind.symm) _
  rw [hid, hkind, ← scopeWithout_eq, FacetKind.answer_search s field _ hne] at hitems
  rw [hitems] at hown
  exact ⟨_, _, p', hitems, hfound, rfl, nodup_searchItems hfound.once text, hown⟩

/-- all facets and groups, and a path chosen -/
def pathChosen : List Operation :=
  FacetKind.all.map .addFacet ++ standardGroups.map .addGroup ++
    [.request (.select "filepath" "/ab" {})]

theorem typed_search_pathChosen :
    let p := ({ gateway := { store := oddNames } } : Panel).applyAll pathChosen
    p.valuesOf (.text .filePath) = ["/ab"] ∧
      ∃ items q, p.candidatesFor "filepath" (.ofText " b " .all) = (.ok items, q) ∧
        .typed "b" ∈ items ∧ .counted "/b.c" 1 ∈ items := by
  intro p
  obtain ⟨rows, items, q, hitems, hfound, rfl, -, -⟩ :=
    typed_search {} oddNames { store := oddNames } none pathChosen (by decide +kernel)
      (by decide +kernel) .filePath (by decide +kernel) " b " (by decide +kernel)
      (by decide +kernel)
  have htrim : Text.trim " b " = "b" := by decide +kernel
  rw [htrim] at hfound hitems
  have hb : "b" ∉ rows.map (·.name) := fun h =>
    absurd ((hfound.names "b").1 h).1 (by decide +kernel)
  have hbc : "/b.c" ∈ rows.map (·.name) := (hfound.names "/b.c").2 (by decide +kernel)
  obtain ⟨row, hrow, hname⟩ := List.mem_map.1 hbc
  have hcount : row.count = 1 := by
    rw [hfound.count row hrow, hname]
    decide +kernel
  refine ⟨by decide +kernel, _, q, hitems, ?_, ?_⟩
  · rw [searchItems, if_neg hb]
    exact List.mem_cons_self
  · exact List.mem_append_right _ (List.mem_map.2 ⟨row, hrow, by rw [hname, hcount]⟩)

end Panel

end Triage
