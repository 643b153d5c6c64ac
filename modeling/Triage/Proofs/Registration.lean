import Triage.Proofs.Bookkeeping

/-!
# The history is the image of the facets

Facets come in one after the other, in any order and with repetitions.

* `FacetKind.disjoint_keys`   two kinds of facets have no key in common, and none has that of the
                              tab (`FacetKind.tabKey_notMem_keys`);
* `Panel.addFacet_eq`         so a facet is refused exactly when there is one of its kind;
* `Panel.Mirrored p`          the history consists of the tab and what the facets write, in the
                              order of their registration: so it is after every operation that
                              writes it (`mirrored_of_writes`), and no operation changes that
                              (`mirrored_apply`);
* `Panel.history_mirrors`     all this in every state that operations can reach.
-/

namespace Triage

namespace FacetKind

theorem mainKey_mem_keys (k : FacetKind) : k.mainKey ∈ k.keys := by
  unfold mainKey keys
  cases k <;> exact List.mem_cons_self

theorem disjoint_keys {k k' : FacetKind} (h : k ≠ k') : List.Disjoint k.keys k'.keys := by
  have hall : FacetKind.all.Pairwise (Function.onFun List.Disjoint keys) :=
    (List.nodup_flatMap.1 (List.nodup_cons.1 Panel.nodup_allKeys).2).2
  have hsymm : Std.Symm (Function.onFun List.Disjoint keys) := ⟨fun _ _ h => List.Disjoint.symm h⟩
  exact hall.forall (Panel.mem_all k) (Panel.mem_all k') h

theorem nodup_keys (k : FacetKind) : k.keys.Nodup :=
  (List.nodup_flatMap.1 (List.nodup_cons.1 Panel.nodup_allKeys).2).1 k (Panel.mem_all k)

theorem tabKey_notMem_keys (k : FacetKind) : Panel.tabKey ∉ k.keys := fun h =>
  (List.nodup_cons.1 Panel.nodup_allKeys).1 (List.mem_flatMap.2 ⟨k, Panel.mem_all k, h⟩)

end FacetKind

namespace Facet

/-- a facet without a selection has nothing to write -/
theorem filled_entries_of_empty {f : Facet} (h : f.values = []) :
    f.entries.filterMap History.filled = [] := by
  have hr : f.range = none := by
    rw [range, h]
    rfl
  unfold entries
  split
  · rw [hr]
    rfl
  · rw [h]
    rfl

/-- a history without the keys of a facet asks for nothing -/
theorem incoming_of_no_key {k : FacetKind} {h : History}
    (hk : ∀ key ∈ k.keys, h.get? key = none) : incoming k h = [] := by
  unfold incoming
  split
  · have hmin := hk FacetKind.minKey (by decide)
    have hmax := hk FacetKind.maxKey (by decide)
    rw [History.first?, History.first?, hmin, hmax]
    exact if_pos ⟨rfl, rfl⟩
  · rw [hk _ (FacetKind.mainKey_mem_keys _)]
    rfl

end Facet

namespace Panel

variable {p : Panel}

/-! ## registration -/

theorem nodup_keys {fs : List Facet} (hd : Distinct fs) :
    (tabKey :: fs.flatMap (·.kind.keys)).Nodup := by
  refine List.nodup_cons.2 ⟨fun h => ?_, List.nodup_flatMap.2 ⟨fun f _ => f.kind.nodup_keys, ?_⟩⟩
  · obtain ⟨f, -, hf⟩ := List.mem_flatMap.1 h
    exact f.kind.tabKey_notMem_keys hf
  · exact (List.pairwise_map.1 hd).imp fun h => FacetKind.disjoint_keys h

/-- the refusal names the first key and the facet that has it -/
theorem addFacet_of_mem {kind : FacetKind} (h : kind ∈ p.facets.map (·.kind)) :
    p.addFacet kind = .error (.duplicateKey kind.mainKey kind.id) := by
  obtain ⟨rest, hkeys⟩ : ∃ rest, kind.keys = kind.mainKey :: rest := by
    cases kind <;> exact ⟨_, rfl⟩
  have hclash : p.keyClash? kind kind.mainKey =
      some (.duplicateKey kind.mainKey kind.id) := by
    have htab : kind.mainKey ≠ tabKey := fun e =>
      kind.tabKey_notMem_keys (e ▸ kind.mainKey_mem_keys)
    obtain ⟨f, hf, hkind⟩ := List.mem_map.1 h
    rw [keyClash?, if_neg htab]
    cases ho : p.facets.find? fun f => f.kind == kind || f.kind.keys.contains kind.mainKey with
    | none => simpa [hkind] using List.find?_eq_none.1 ho f hf
    | some owner =>
      have hsame : owner.kind = kind := by
        by_contra hne
        have hkey := List.find?_some ho
        rw [Bool.or_eq_true, beq_iff_eq, List.contains_iff_mem] at hkey
        exact FacetKind.disjoint_keys hne (hkey.resolve_left hne) kind.mainKey_mem_keys
      rw [Option.map_some, Facet.id, hsame]
  rw [addFacet, hkeys, List.findSome?_cons, hclash]

/-- a facet is refused exactly when there is one of its kind -/
theorem addFacet_eq (hd : Distinct p.facets) (kind : FacetKind) :
    p.addFacet kind =
      if kind ∈ p.facets.map (·.kind) then .error (.duplicateKey kind.mainKey kind.id)
      else .ok { p with facets := p.facets ++ [.make kind p.config.searchDebounceMs] } := by
  split
  · next h => exact addFacet_of_mem h
  · next h =>
    refine addFacet_of_free ?_
    have hd' : Distinct (p.facets ++ [.make kind p.config.searchDebounceMs]) := by
      rw [Distinct, List.map_append]
      exact List.Nodup.append hd (List.nodup_singleton kind) (List.disjoint_singleton.2 h)
    have hn := nodup_keys hd'
    rwa [List.flatMap_append, List.flatMap_singleton] at hn

/-! ## the history -/

/-- the tab first, then what the facets write, in the order of their registration -/
def image (p : Panel) : List (String × List String) :=
  p.tab.toList.map (fun tab => (tabKey, [tab])) ++
    p.facets.flatMap fun f => f.entries.filterMap History.filled

/-- the history is the image of the facets -/
def Mirrored (p : Panel) : Prop := p.history.entries = p.image

theorem filled_allEntries (p : Panel) : p.allEntries.filterMap History.filled = p.image := by
  have htab : p.tabEntry.filterMap History.filled =
      p.tab.toList.map fun tab => (tabKey, [tab]) := by
    rw [tabEntry]
    cases p.tab <;> rfl
  rw [allEntries, List.filterMap_append, htab, List.filterMap_flatMap, image]

theorem nodup_allEntries (hd : Distinct p.facets) : (p.allEntries.map (·.1)).Nodup := by
  have hkeys : (p.facets.flatMap Facet.entries).map (·.1) = p.facets.flatMap (·.kind.keys) := by
    rw [List.map_flatMap]
    exact congrArg (List.flatMap · p.facets) (funext Facet.keys_entries)
  have hn := nodup_keys hd
  rw [allEntries, List.map_append, hkeys, tabEntry]
  cases p.tab with
  | none => exact (List.nodup_cons.1 hn).2
  | some tab => exact hn

theorem ofEntries_allEntries (hd : Distinct p.facets) :
    History.ofEntries p.allEntries = ⟨p.image⟩ := by
  rw [History.ofEntries_eq (nodup_allEntries hd), filled_allEntries]

theorem Mirrored.eq (h : p.Mirrored) (hd : Distinct p.facets) :
    p.history = History.ofEntries p.allEntries := by
  rw [ofEntries_allEntries hd, ← show p.history.entries = p.image from h]

theorem mirrored_of_writes (hp : p.Registered) {o : Operation} (hw : p.writes o = true) :
    (p.apply o).Mirrored := by
  rw [Mirrored, (books_apply hp o).history, if_pos hw,
    ofEntries_allEntries (distinct_apply hp.distinct o)]

theorem image_of_picks {q : Panel} {new : List Facet} (ht : q.tab = p.tab)
    (hq : q.facets.map Facet.pick = (p.facets ++ new).map Facet.pick)
    (hnew : ∀ f ∈ new, f.values = []) : q.image = p.image := by
  have hfilled := congrArg (List.filterMap History.filled) (entries_of_picks hq)
  rw [List.filterMap_flatMap, List.filterMap_flatMap, List.flatMap_append] at hfilled
  have hempty : (new.flatMap fun f => f.entries.filterMap History.filled) = [] :=
    List.flatMap_eq_nil_iff.2 fun f hf => Facet.filled_entries_of_empty (hnew f hf)
  rw [image, image, ht, hfilled, hempty, List.append_nil]

/-- no operation makes a history wrong -/
theorem mirrored_apply (hp : p.Registered) (h : p.Mirrored) (o : Operation) :
    (p.apply o).Mirrored := by
  cases hw : p.writes o with
  | true => exact mirrored_of_writes hp hw
  | false =>
    have ho := outcome_apply hp.distinct o
    have hhist : (p.apply o).history = p.history := by
      rw [(books_apply hp o).history, hw]
      rfl
    have hpicks : (p.apply o).facets.map Facet.pick = (p.facets ++ p.added o).map Facet.pick := by
      rw [picks_apply hp.distinct, List.map_append, List.map_append, List.map_map]
      exact congrArg (· ++ _) (List.map_congr_left fun f hf => pick_of_core (core_edit hw hf))
    rw [Mirrored, hhist, image_of_picks ho.tab hpicks]
    · exact h
    · intro f hf
      rcases added_cases p o with ha | ⟨kind, n, -, ha⟩
      · rw [ha] at hf
        cases hf
      · rw [ha, List.mem_singleton] at hf
        rw [hf]
        rfl

theorem mirrored_applyAll (os : List Operation) :
    ∀ {p : Panel}, p.Registered → p.Mirrored → (p.applyAll os).Mirrored := by
  induction os with
  | nil => exact fun _ h => h
  | cons o os ih => exact fun hp h => ih (registered_apply hp o) (mirrored_apply hp h o)

/-! ## the keys of one facet -/

/-- in a history that is the image of the facets, each has its own entries -/
theorem Mirrored.get? (h : p.Mirrored) (hd : Distinct p.facets) {f : Facet} (hf : f ∈ p.facets)
    {e : String × Option (List String)} (he : e ∈ f.entries) :
    p.history.get? e.1 = e.2.bind unlessEmpty := by
  rw [h.eq hd]
  exact History.get?_ofEntries (nodup_allEntries hd) (mem_allEntries hf he)

theorem Mirrored.incoming (h : p.Mirrored) (hd : Distinct p.facets) {f : Facet}
    (hf : f ∈ p.facets) (hproper : f.Proper) : Facet.incoming f.kind p.history = f.values :=
  Facet.incoming_eq_values hproper fun _ he => h.get? hd hf he

/-- a facet has a key in the history exactly when it has a selection -/
theorem Mirrored.no_key_iff (h : p.Mirrored) (hd : Distinct p.facets) {f : Facet}
    (hf : f ∈ p.facets) (hproper : f.Proper) :
    (∀ key ∈ f.kind.keys, p.history.get? key = none) ↔ f.values = [] := by
  constructor
  · intro hk
    rw [← h.incoming hd hf hproper]
    exact Facet.incoming_of_no_key hk
  · intro hv key hkey
    rw [← f.keys_entries] at hkey
    obtain ⟨e, he, rfl⟩ := List.mem_map.1 hkey
    rw [h.get? hd hf he]
    exact History.filled_eq_none
      (List.filterMap_eq_nil_iff.1 (Facet.filled_entries_of_empty hv) e he)

theorem Mirrored.nodup_keys (h : p.Mirrored) (hd : Distinct p.facets) : p.history.keys.Nodup := by
  show (p.history.entries.map (·.1)).Nodup
  rw [show p.history.entries = p.image from h, ← filled_allEntries]
  exact (nodup_allEntries hd).sublist (History.sublist_keys_filled _)

/-! ## every state -/

theorem history_mirrors (config : Config) (g : Gateway) (tab : Option String)
    (os : List Operation) :
    let start : Panel := { config, gateway := g, tab }
    let p := start.applyAll os
    ((p.facets.map Facet.id).Nodup ∧ (tabKey :: p.facets.flatMap (·.kind.keys)).Nodup) ∧
    (∀ kind, p.addFacet kind =
      if kind ∈ p.facets.map (·.kind) then .error (.duplicateKey kind.mainKey kind.id)
      else .ok { p with facets := p.facets ++ [.make kind p.config.searchDebounceMs] }) ∧
    (∀ kind e, p.addFacet kind = .error e → p.apply (.addFacet kind) = p) ∧
    (∀ group e, p.addGroup group = .error e → p.apply (.addGroup group) = p) ∧
    ∀ before o after, os = before ++ o :: after → (start.applyAll before).writes o = true →
      p.history.entries = tab.toList.map (fun tab => (tabKey, [tab])) ++
          p.facets.flatMap (fun f => f.entries.filterMap History.filled) ∧
        p.history.keys.Nodup ∧
        ∀ f ∈ p.facets, (∀ e ∈ f.entries, p.history.get? e.1 = e.2.bind unlessEmpty) ∧
          Facet.incoming f.kind p.history = f.values ∧
          ((∀ key ∈ f.kind.keys, p.history.get? key = none) ↔ f.values = []) := by
  intro start p
  have hp : p.Registered := registered_applyAll os (registered_empty config g tab)
  have hd := hp.distinct
  refine ⟨⟨hd.ids, Panel.nodup_keys hd⟩, addFacet_eq hd, fun kind e h => ?_,
    fun group e h => ?_, ?_⟩
  · rw [apply_addFacet, h]
    rfl
  · show (p.addGroup group).toOption.getD p = p
    rw [h]
    rfl
  · intro before o after hos hw
    have hbefore : (start.applyAll before).Registered :=
      registered_applyAll before (registered_empty config g tab)
    have hsplit : p = ((start.applyAll before).apply o).applyAll after := by
      show start.applyAll os = _
      rw [hos, applyAll_append]
      rfl
    have hm : p.Mirrored := by
      rw [hsplit]
      exact mirrored_applyAll after (registered_apply hbefore o) (mirrored_of_writes hbefore hw)
    have htab : p.tab = tab := tab_applyAll os (registered_empty config g tab).distinct
    refine ⟨?_, hm.nodup_keys hd, fun f hf => ?_⟩
    · rw [← htab]
      exact hm
    · have hproper := proper_of_empty config g tab os f hf
      exact ⟨fun e he => hm.get? hd hf he, hm.incoming hd hf hproper, hm.no_key_iff hd hf hproper⟩

/-- facets in another order and one of them twice, a choice, and one more facet after it -/
def mixedRegistrations : List Operation :=
  [.addFacet .severity, .addFacet .pathLength, .addFacet .severity,
    .request (.select "bug-path-length" "2:" {}), .addFacet (.run .baseline),
    .addFacet .pathLength]

theorem history_mirrors_mixedRegistrations :
    let p := ({ tab := some "t" } : Panel).applyAll mixedRegistrations
    p.facets.map (·.kind) = [.severity, .pathLength, .run .baseline] ∧
      p.history.entries = [("tab", ["t"]), ("min-bug-path-length", ["2"])] := by
  intro p
  have hw : (({ tab := some "t" } : Panel).applyAll (mixedRegistrations.take 3)).writes
      (.request (.select "bug-path-length" "2:" {})) = true := by decide +kernel
  refine ⟨by decide +kernel, ?_⟩
  have h := ((history_mirrors {} {} (some "t") mixedRegistrations).2.2.2.2 _ _
    (mixedRegistrations.drop 4) rfl hw).1
  exact h.trans (by decide +kernel)

end Panel
end Triage
