import Mathlib.Data.List.Basic
import Triage.History.State
import Triage.Proofs.Encoding
import Triage.Report.Filter

/-!
# Histories read back from their query string

* `Text.IsTrimmed s`        a non-empty text without blanks at its ends;
* `History.Clean h`         the keys are distinct and trimmed, and each has trimmed values;
* `parse_queryString`       a clean history reads back from its query string;
* `get?_set_ne`             setting one key leaves the others alone;
* `ofEntries_eq`            setting distinct keys one after the other keeps those with values.
-/

namespace Triage

/-! ## trimmed texts -/

namespace Text

/-- something is left, and nothing to trim -/
def IsTrimmed (s : String) : Prop := s ≠ "" ∧ trimChars s.toList = s.toList

theorem trimStart_of_head {cs : List Char} (h : ∀ c ∈ cs.head?, isBlank c = false) :
    trimStart cs = cs := by
  cases cs with
  | nil => rfl
  | cons c cs => rw [trimStart_cons, h c rfl]; rfl

/-- nothing is trimmed between two characters that are not blank -/
theorem trimChars_of_ends {cs : List Char} (hfirst : ∀ c ∈ cs.head?, isBlank c = false)
    (hlast : ∀ c ∈ cs.getLast?, isBlank c = false) : trimChars cs = cs := by
  rw [trimChars, trimStart_of_head hfirst, trimEnd, trimStart_of_head, List.reverse_reverse]
  rwa [List.head?_reverse]

theorem trimChars_of_notBlank {cs : List Char} (h : ∀ c ∈ cs, isBlank c = false) :
    trimChars cs = cs :=
  trimChars_of_ends (fun c hc => h c (List.mem_of_mem_head? hc))
    fun c hc => h c (List.mem_of_getLast? hc)

theorem cut?_of_some {p cs rest : List Char} {c : Char} (h : after? p (c :: cs) = some rest) :
    cut? p (c :: cs) = some ([], rest) := by rw [cut?, h]

theorem cut?_of_none {p cs : List Char} {c : Char} (h : after? p (c :: cs) = none) :
    cut? p (c :: cs) = (cut? p cs).map fun x => (c :: x.1, x.2) := by
  rw [cut?, h]

/-- the first place of a character that does not stand before it -/
theorem cut?_append {c : Char} {a : List Char} (h : c ∉ a) (b : List Char) :
    cut? [c] (a ++ c :: b) = some (a, b) := by
  induction a with
  | nil => exact cut?_of_some (by rw [after?, if_pos rfl, after?_nil])
  | cons d a ih =>
    rw [List.mem_cons, not_or] at h
    have hd : after? [c] (d :: (a ++ c :: b)) = none := by rw [after?, if_neg h.1]
    rw [List.cons_append, cut?_of_none hd, ih h.2]
    rfl

/-- the same for a doubled character -/
theorem cut?_pair {c : Char} {a : List Char} (h : c ∉ a) (b : List Char) :
    cut? [c, c] (a ++ c :: c :: b) = some (a, b) := by
  induction a with
  | nil => exact cut?_of_some (by rw [after?, if_pos rfl, after?, if_pos rfl, after?_nil])
  | cons d a ih =>
    rw [List.mem_cons, not_or] at h
    have hd : after? [c, c] (d :: (a ++ c :: c :: b)) = none := by rw [after?, if_neg h.1]
    rw [List.cons_append, cut?_of_none hd, ih h.2]
    rfl

end Text

/-! ## tables -/

theorem Table.get?_erase_ne {α : Type} {key other : String} (h : other ≠ key)
    (table : List (String × α)) : get? other (erase key table) = get? other table := by
  have e : (fun r : String × α => decide ((r.1 != key) = true ∧ (r.1 == other) = true)) =
      fun r => r.1 == other := by
    funext r
    by_cases hr : r.1 = other
    · simp [hr, h]
    · simp [hr]
  rw [get?, get?, erase, List.find?_filter, e]

/-- a key that is not there yet comes in at the end -/
theorem Table.put_of_notMem {α : Type} {key : String} (v : α) {table : List (String × α)}
    (h : key ∉ table.map (·.1)) : put key v table = table ++ [(key, v)] := by
  induction table with
  | nil => rfl
  | cons e rest ih =>
    obtain ⟨k, w⟩ := e
    rw [List.map_cons, List.mem_cons, not_or] at h
    rw [put_cons, if_neg (Ne.symm h.1), ih h.2]
    rfl

/-- a key that is there keeps its place -/
theorem Table.put_append {α : Type} {key : String} (v w : α) {table : List (String × α)}
    (h : key ∉ table.map (·.1)) : put key v (table ++ [(key, w)]) = table ++ [(key, v)] := by
  induction table with
  | nil => exact if_pos rfl
  | cons e rest ih =>
    obtain ⟨k, u⟩ := e
    rw [List.map_cons, List.mem_cons, not_or] at h
    rw [List.cons_append, put_cons, if_neg (Ne.symm h.1), ih h.2]
    rfl

theorem Table.erase_of_notMem {α : Type} {key : String} {table : List (String × α)}
    (h : key ∉ table.map (·.1)) : erase key table = table :=
  List.filter_eq_self.2 fun e he => by
    have hne : e.1 ≠ key := fun hk => h (List.mem_map.2 ⟨e, he, hk⟩)
    simpa using hne

theorem Table.get?_of_notMem {α : Type} {key : String} {table : List (String × α)}
    (h : key ∉ table.map (·.1)) : get? key table = none := by
  induction table with
  | nil => rfl
  | cons e rest ih =>
    obtain ⟨k, w⟩ := e
    rw [List.map_cons, List.mem_cons, not_or] at h
    rw [get?_cons, if_neg (Ne.symm h.1), ih h.2]

theorem Table.get?_append_self {α : Type} {key : String} (v : α) {table : List (String × α)}
    (h : key ∉ table.map (·.1)) : get? key (table ++ [(key, v)]) = some v := by
  induction table with
  | nil => exact (get?_cons key key v []).trans (if_pos rfl)
  | cons e rest ih =>
    obtain ⟨k, w⟩ := e
    rw [List.map_cons, List.mem_cons, not_or] at h
    rw [List.cons_append, get?_cons, if_neg (Ne.symm h.1), ih h.2]

namespace History

theorem get?_put_ne {key other : String} (h : other ≠ key) (t : History) (vs : List String) :
    (t.put key vs).get? other = t.get? other := Table.get?_put_ne h vs t.entries

theorem get?_set_ne {key other : String} (h : other ≠ key) (t : History)
    (vs : Option (List String)) : (t.set key vs).get? other = t.get? other := by
  unfold set
  split
  · exact Table.get?_erase_ne h t.entries
  · exact Table.get?_erase_ne h t.entries
  · exact get?_put_ne h t _

/-! ## pairs -/

theorem append_of_notMem {h : History} {key : String} (hk : key ∉ h.keys) (v : String) :
    h.append key v = ⟨h.entries ++ [(key, [v])]⟩ := by
  have hget : h.get? key = none := Table.get?_of_notMem hk
  rw [append, hget]
  exact congrArg History.mk (Table.put_of_notMem _ hk)

/-- values of the last key come in behind each other -/
theorem foldl_append_values (key : String) (vs : List String) :
    ∀ (entries : List (String × List String)) (ws : List String), key ∉ entries.map (·.1) →
      vs.foldl (fun h v => h.append key v) ⟨entries ++ [(key, ws)]⟩ =
        (⟨entries ++ [(key, ws ++ vs)]⟩ : History) := by
  induction vs with
  | nil => intro entries ws _; rw [List.append_nil]; rfl
  | cons v vs ih =>
    intro entries ws hk
    have hone : History.append ⟨entries ++ [(key, ws)]⟩ key v =
        ⟨entries ++ [(key, ws ++ [v])]⟩ := by
      have hget : History.get? ⟨entries ++ [(key, ws)]⟩ key = some ws :=
        Table.get?_append_self ws hk
      rw [append, hget]
      exact congrArg History.mk (Table.put_append _ _ hk)
    rw [List.foldl_cons, hone, ih entries (ws ++ [v]) hk, List.append_assoc]
    rfl

/-- the pairs of a history with distinct keys give it back -/
theorem ofPairs_entries (entries : List (String × List String))
    (hd : (entries.map (·.1)).Nodup) (hv : ∀ e ∈ entries, e.2 ≠ []) :
    ofPairs (entries.flatMap fun e => e.2.map fun v => (e.1, v)) = ⟨entries⟩ := by
  suffices ∀ (rest done : List (String × List String)), ((done ++ rest).map (·.1)).Nodup →
      (∀ e ∈ rest, e.2 ≠ []) →
      (rest.flatMap fun e => e.2.map fun v => (e.1, v)).foldl
        (fun h (p : String × String) => h.append p.1 p.2) (⟨done⟩ : History) = ⟨done ++ rest⟩ from
    this entries [] hd hv
  intro rest
  induction rest with
  | nil => intro done _ _; rw [List.append_nil]; rfl
  | cons e rest ih =>
    intro done hd hv
    obtain ⟨key, values⟩ := e
    have hnotin : key ∉ done.map (·.1) := by
      rw [List.map_append, List.nodup_append] at hd
      exact fun hm => hd.2.2 key hm key List.mem_cons_self rfl
    rw [List.flatMap_cons, List.foldl_append, List.foldl_map]
    cases hval : values with
    | nil => exact absurd hval (hv (key, values) List.mem_cons_self)
    | cons v vs =>
      rw [List.foldl_cons, append_of_notMem (h := ⟨done⟩) hnotin v]
      have hvs := foldl_append_values key vs done [v] hnotin
      show List.foldl _ (vs.foldl (fun (h : History) w => h.append key w)
        ⟨done ++ [(key, [v])]⟩) _ = _
      rw [hvs]
      have hstep := ih (done ++ [(key, v :: vs)])
        (by rw [List.append_assoc]; rw [hval] at hd; exact hd)
        fun e he => hv e (List.mem_cons_of_mem _ he)
      rw [List.append_assoc] at hstep
      exact hstep

/-! ## the query string -/

/-- distinct keys and their values, all trimmed -/
structure Clean (h : History) : Prop where
  distinct : h.keys.Nodup
  keys : ∀ k ∈ h.keys, Text.IsTrimmed k
  nonempty : ∀ e ∈ h.entries, e.2 ≠ []
  values : ∀ e ∈ h.entries, ∀ v ∈ e.2, Text.IsTrimmed v

theorem pair_pairText (key value : String) :
    Form.pair (pairText key value) = (key.toList, value.toList) := by
  have hno : '=' ∉ Form.encode key.toList := fun hm => by
    have h := Form.isSafe_of_mem_encode hm
    exact absurd h (by decide)
  rw [Form.pair, pairText, Text.cut?_append hno]
  dsimp only
  rw [Form.decode_encode, Form.decode_encode]

theorem mem_pairText {key value : String} {c : Char} (h : c ∈ pairText key value) :
    Form.isSafe c = true ∨ c = '=' := by
  rcases List.mem_append.1 h with h | h
  · exact .inl (Form.isSafe_of_mem_encode h)
  · rcases List.mem_cons.1 h with h | h
    · exact .inr h
    · exact .inl (Form.isSafe_of_mem_encode h)

theorem cleanPairs_of_trimmed {ps : List (String × String)}
    (h : ∀ p ∈ ps, Text.IsTrimmed p.1 ∧ Text.IsTrimmed p.2) :
    cleanPairs (ps.map fun p => (p.1.toList, p.2.toList)) = ps := by
  rw [cleanPairs, List.filterMap_map]
  refine (List.filterMap_congr (g := some) fun p hp => ?_).trans List.filterMap_some
  obtain ⟨h1, h2⟩ := h p hp
  have e1 : p.1.toList ≠ [] := fun e => h1.1 (String.toList_eq_nil_iff.1 e)
  have e2 : p.2.toList ≠ [] := fun e => h2.1 (String.toList_eq_nil_iff.1 e)
  simp only [Function.comp, h1.2, h2.2, e1, e2, or_self, if_false, String.ofList_toList]

theorem pairs_of_pieces (ps : List (String × String)) :
    Form.pairs (['&'].intercalate (ps.map fun p => pairText p.1 p.2)) =
      ps.map fun p => (p.1.toList, p.2.toList) := by
  cases hps : ps with
  | nil => rfl
  | cons p rest =>
    rw [← hps]
    have hne : (ps.map fun p => pairText p.1 p.2) ≠ [] := by
      rw [hps]
      exact List.cons_ne_nil _ _
    have hno : ∀ piece ∈ ps.map fun p => pairText p.1 p.2, '&' ∉ piece := by
      intro piece hpiece hm
      obtain ⟨q, -, rfl⟩ := List.mem_map.1 hpiece
      rcases mem_pairText hm with h | h
      · exact absurd h (by decide)
      · exact absurd h (by decide)
    have hfull : ∀ piece ∈ ps.map fun p => pairText p.1 p.2, decide (piece ≠ []) = true := by
      intro piece hpiece
      obtain ⟨q, -, rfl⟩ := List.mem_map.1 hpiece
      simp [pairText]
    rw [Form.pairs, List.splitOn_intercalate '&' hno hne, List.filter_eq_self.2 hfull, List.map_map]
    exact List.map_congr_left fun q _ => pair_pairText q.1 q.2

/-- no character of a query string is blank or marks its beginning -/
theorem mem_intercalate_pieces {ps : List (List Char)} {c : Char}
    (hps : ∀ piece ∈ ps, ∀ c ∈ piece, Form.isSafe c = true ∨ c = '=')
    (h : c ∈ ['&'].intercalate ps) : Text.isBlank c = false ∧ c ≠ '#' ∧ c ≠ '?' := by
  have hsafe : ∀ {c : Char}, Form.isSafe c = true → Text.isBlank c = false ∧ c ≠ '#' ∧ c ≠ '?' := by
    intro c hc
    simp only [Form.isSafe, Bool.and_eq_true, bne_iff_ne, Bool.not_eq_true'] at hc
    exact ⟨hc.2, hc.1.1.2, hc.1.2⟩
  induction ps with
  | nil => cases h
  | cons p ps ih =>
    cases ps with
    | nil =>
      rw [List.intercalate_singleton] at h
      rcases hps p List.mem_cons_self c h with h | rfl
      · exact hsafe h
      · decide
    | cons q ps =>
      rw [List.intercalate_cons_cons, List.mem_append, List.mem_append] at h
      rcases h with (h | h) | h
      · rcases hps p List.mem_cons_self c h with h | rfl
        · exact hsafe h
        · decide
      · cases List.mem_singleton.1 h
        decide
      · exact ih (fun piece hpiece => hps piece (List.mem_cons_of_mem _ hpiece)) h

theorem body_of_ne {cs : List Char} (h : ∀ c ∈ cs, c ≠ '#' ∧ c ≠ '?') : body cs = cs := by
  cases cs with
  | nil => rfl
  | cons c cs =>
    obtain ⟨h1, h2⟩ := h c List.mem_cons_self
    unfold body
    split
    · next e => exact absurd (List.cons.inj e).1 h1
    · next e => exact absurd (List.cons.inj e).1 h2
    · rfl

theorem toList_queryString (h : History) :
    h.queryString.toList =
      ['&'].intercalate (h.entries.flatMap fun e => e.2.map (pairText e.1)) :=
  String.toList_ofList

theorem mem_queryString {h : History} {c : Char} (hc : c ∈ h.queryString.toList) :
    Text.isBlank c = false ∧ c ≠ '#' ∧ c ≠ '?' := by
  rw [toList_queryString] at hc
  refine mem_intercalate_pieces (fun piece hpiece d hd => ?_) hc
  obtain ⟨e, -, he⟩ := List.mem_flatMap.1 hpiece
  obtain ⟨v, -, rfl⟩ := List.mem_map.1 he
  exact mem_pairText hd

/-- the pairs of its query string give a clean history back -/
theorem ofPairs_queryString {h : History} (hc : h.Clean) :
    ofPairs (cleanPairs (Form.pairs h.queryString.toList)) = h := by
  have hpieces : h.entries.flatMap (fun e => e.2.map (pairText e.1)) =
      (h.entries.flatMap fun e => e.2.map fun v => (e.1, v)).map fun p => pairText p.1 p.2 := by
    rw [List.map_flatMap]
    refine congrArg (List.flatMap · h.entries) (funext fun e => ?_)
    rw [List.map_map]
    rfl
  rw [toList_queryString, hpieces, pairs_of_pieces, cleanPairs_of_trimmed,
    ofPairs_entries h.entries hc.distinct hc.nonempty]
  intro p hp
  obtain ⟨e, he, hv⟩ := List.mem_flatMap.1 hp
  obtain ⟨v, hve, rfl⟩ := List.mem_map.1 hv
  exact ⟨hc.keys e.1 (List.mem_map.2 ⟨e, he, rfl⟩), hc.values e he v hve⟩

theorem parse_queryString {h : History} (hc : h.Clean) : parse h.queryString = h := by
  rw [parse, Text.trimChars_of_notBlank fun c hm => (mem_queryString hm).1,
    body_of_ne fun c hm => (mem_queryString hm).2, ofPairs_queryString hc]

/-! ## setting keys one after the other -/

/-- an entry that has values -/
def filled (e : String × Option (List String)) : Option (String × List String) :=
  match e.2 with
  | none | some [] => none
  | some (v :: vs) => some (e.1, v :: vs)

/-- distinct keys set one after the other come in in this order, those without values not at all -/
theorem foldl_set_eq (es : List (String × Option (List String))) :
    ∀ (h : History), (h.keys ++ es.map (·.1)).Nodup →
      es.foldl (fun h e => h.set e.1 e.2) h = ⟨h.entries ++ es.filterMap filled⟩ := by
  induction es with
  | nil => intro h _; rw [List.filterMap_nil, List.append_nil]; rfl
  | cons e es ih =>
    intro h hd
    obtain ⟨key, values⟩ := e
    have hnotin : key ∉ h.keys := by
      rw [List.nodup_append] at hd
      exact fun hm => hd.2.2 key hm key List.mem_cons_self rfl
    have hrest : (h.keys ++ es.map (·.1)).Nodup := by
      refine hd.sublist (List.Sublist.append_left ?_ _)
      exact List.sublist_cons_self _ _
    have hdrop : h.remove key = h := congrArg History.mk (Table.erase_of_notMem hnotin)
    rw [List.foldl_cons, List.filterMap_cons]
    match values with
    | none =>
      show es.foldl _ (h.remove key) = _
      rw [hdrop]
      exact ih h hrest
    | some [] =>
      show es.foldl _ (h.remove key) = _
      rw [hdrop]
      exact ih h hrest
    | some (v :: vs) =>
      have hput : h.put key (v :: vs) = ⟨h.entries ++ [(key, v :: vs)]⟩ :=
        congrArg History.mk (Table.put_of_notMem _ hnotin)
      show es.foldl _ (h.put key (v :: vs)) = _
      rw [hput, ih]
      · show History.mk (_ ++ [_] ++ _) = History.mk (_ ++ _ :: _)
        rw [List.append_assoc]
        rfl
      · show ((h.entries ++ [(key, v :: vs)]).map (·.1) ++ es.map (·.1)).Nodup
        rw [List.map_append, List.append_assoc]
        exact hd

/-- a history whose distinct keys are set one after the other -/
def ofEntries (es : List (String × Option (List String))) : History :=
  es.foldl (fun h e => h.set e.1 e.2) {}

theorem ofEntries_eq {es : List (String × Option (List String))} (hd : (es.map (·.1)).Nodup) :
    ofEntries es = ⟨es.filterMap filled⟩ := foldl_set_eq es {} hd

theorem key_filled {e : String × Option (List String)} {r : String × List String}
    (h : filled e = some r) : r.1 = e.1 ∧ unlessEmpty r.2 = some r.2 ∧ e.2 = some r.2 := by
  obtain ⟨key, values⟩ := e
  match values with
  | none => cases h
  | some [] => cases h
  | some (v :: vs) =>
    cases h
    exact ⟨rfl, rfl, rfl⟩

theorem filled_eq_none {e : String × Option (List String)} (h : filled e = none) :
    e.2.bind unlessEmpty = none := by
  obtain ⟨key, values⟩ := e
  match values with
  | none => rfl
  | some [] => rfl
  | some (v :: vs) => cases h

theorem sublist_keys_filled (es : List (String × Option (List String))) :
    ((es.filterMap filled).map (·.1)).Sublist (es.map (·.1)) := by
  induction es with
  | nil => exact .slnil
  | cons e es ih =>
    rw [List.filterMap_cons, List.map_cons]
    cases hf : filled e with
    | none => exact ih.cons _
    | some r =>
      rw [← (key_filled hf).1]
      exact ih.cons_cons _

/-- each key has the values that it was set to -/
theorem get?_ofEntries {es : List (String × Option (List String))} (hd : (es.map (·.1)).Nodup)
    {e : String × Option (List String)} (he : e ∈ es) :
    (ofEntries es).get? e.1 = e.2.bind unlessEmpty := by
  rw [ofEntries_eq hd]
  show Table.get? e.1 (es.filterMap filled) = _
  induction es with
  | nil => cases he
  | cons d es ih =>
    rw [List.map_cons, List.nodup_cons] at hd
    rw [List.filterMap_cons]
    rcases List.mem_cons.1 he with rfl | he
    · cases hf : filled e with
      | none =>
        rw [filled_eq_none hf]
        exact Table.get?_of_notMem fun hm => hd.1 ((sublist_keys_filled es).subset hm)
      | some r =>
        obtain ⟨hkey, hfull, hval⟩ := key_filled hf
        show Table.get? e.1 ((r.1, r.2) :: _) = _
        rw [Table.get?_cons, if_pos hkey, hval]
        exact hfull.symm
    · have hne : d.1 ≠ e.1 := fun h => hd.1 (h ▸ List.mem_map.2 ⟨e, he, rfl⟩)
      cases hf : filled d with
      | none => exact ih hd.2 he
      | some r =>
        show Table.get? e.1 ((r.1, r.2) :: _) = _
        rw [Table.get?_cons, if_neg fun h => hne ((key_filled hf).1.symm.trans h)]
        exact ih hd.2 he

/-- a history whose distinct trimmed keys are set to trimmed values is clean -/
theorem clean_ofEntries {es : List (String × Option (List String))} (hd : (es.map (·.1)).Nodup)
    (hk : ∀ e ∈ es, Text.IsTrimmed e.1) (hv : ∀ e ∈ es, ∀ vs ∈ e.2, ∀ v ∈ vs, Text.IsTrimmed v) :
    (ofEntries es).Clean := by
  rw [ofEntries_eq hd]
  refine ⟨hd.sublist (sublist_keys_filled es), ?_, ?_, ?_⟩
  · intro key hkey
    obtain ⟨e, he, rfl⟩ := List.mem_map.1 ((sublist_keys_filled es).subset hkey)
    exact hk e he
  · intro r hr hnil
    obtain ⟨e, -, hf⟩ := List.mem_filterMap.1 hr
    have h := (key_filled hf).2.1
    rw [hnil] at h
    cases h
  · intro r hr v hvr
    obtain ⟨e, he, hf⟩ := List.mem_filterMap.1 hr
    exact hv e he r.2 (key_filled hf).2.2 v hvr

end History
end Triage
