import Mathlib.Data.List.Nodup
import Triage.Proofs.Spellings

/-!
# Query strings and the histories they stand for

* `Table.mem_put`, `Table.nodup_keys_put`   what a new value for a key does to a table;
* `clean_append`, `clean_parse`   pairs of trimmed texts come together to a clean history, so
                                  whatever is read is clean;
* `parse_marked`                  a mark before a query string does not count;
* `query_string_round_trip`       exactly the clean histories read back from their query string.
-/

namespace Triage

/-! ## tables -/

theorem Table.mem_put {α : Type} {key : String} {v : α} {table : List (String × α)}
    {e : String × α} (h : e ∈ put key v table) : e = (key, v) ∨ e ∈ table := by
  induction table with
  | nil => exact .inl (List.mem_singleton.1 h)
  | cons d rest ih =>
    obtain ⟨k, w⟩ := d
    rw [put_cons] at h
    split at h
    · next hk =>
      rcases List.mem_cons.1 h with rfl | h
      · exact .inl (by rw [hk])
      · exact .inr (List.mem_cons_of_mem _ h)
    · rcases List.mem_cons.1 h with rfl | h
      · exact .inr List.mem_cons_self
      · exact (ih h).imp id (List.mem_cons_of_mem _)

theorem Table.keys_put {α : Type} (key : String) (v : α) (table : List (String × α)) :
    (put key v table).map (·.1) =
      if key ∈ table.map (·.1) then table.map (·.1) else table.map (·.1) ++ [key] := by
  induction table with
  | nil => rfl
  | cons d rest ih =>
    obtain ⟨k, w⟩ := d
    rw [put_cons]
    by_cases hk : k = key
    · subst hk
      simp
    · rw [if_neg hk, List.map_cons, ih]
      simp only [List.map_cons, List.mem_cons, Ne.symm hk, false_or]
      split <;> rfl

theorem Table.nodup_keys_put {α : Type} {table : List (String × α)}
    (h : (table.map (·.1)).Nodup) (key : String) (v : α) : ((put key v table).map (·.1)).Nodup := by
  rw [keys_put]
  split
  · exact h
  · next hk =>
    refine List.nodup_append.2 ⟨h, List.nodup_singleton _, fun a ha b hb e => hk ?_⟩
    rw [← List.mem_singleton.1 hb, ← e]
    exact ha

theorem Table.mem_of_get? {α : Type} {key : String} {v : α} {table : List (String × α)}
    (h : get? key table = some v) : (key, v) ∈ table := by
  obtain ⟨e, he, rfl⟩ := Option.map_eq_some_iff.1 h
  have hkey : e.1 = key := by simpa using List.find?_some he
  rw [← hkey]
  exact List.mem_of_find?_eq_some he

namespace History

/-! ## what is read is clean -/

theorem clean_empty : empty.Clean where
  distinct := List.nodup_nil
  keys _ h := absurd h List.not_mem_nil
  nonempty _ h := absurd h List.not_mem_nil
  values _ h := absurd h List.not_mem_nil

theorem clean_append {h : History} (hc : h.Clean) {key value : String}
    (hk : Text.IsTrimmed key) (hv : Text.IsTrimmed value) : (h.append key value).Clean := by
  -- the values that the key had are those of an entry
  have hold : ∀ v ∈ (h.get? key).getD [], Text.IsTrimmed v := by
    intro v hmem
    cases hg : h.get? key with
    | none => rw [hg] at hmem; cases hmem
    | some vs =>
      rw [hg] at hmem
      exact hc.values (key, vs) (Table.mem_of_get? hg) v hmem
  have hentry : ∀ e ∈ (h.append key value).entries,
      e = (key, (h.get? key).getD [] ++ [value]) ∨ e ∈ h.entries := fun e he => Table.mem_put he
  refine ⟨Table.nodup_keys_put hc.distinct _ _, fun k hmem => ?_, fun e he => ?_,
    fun e he v hmem => ?_⟩
  · obtain ⟨e, he, rfl⟩ := List.mem_map.1 hmem
    rcases hentry e he with rfl | he
    · exact hk
    · exact hc.keys e.1 (List.mem_map.2 ⟨e, he, rfl⟩)
  · rcases hentry e he with rfl | he
    · exact List.append_ne_nil_of_right_ne_nil _ (List.cons_ne_nil _ _)
    · exact hc.nonempty e he
  · rcases hentry e he with rfl | he
    · rcases List.mem_append.1 hmem with hmem | hmem
      · exact hold v hmem
      · rw [List.mem_singleton.1 hmem]
        exact hv
    · exact hc.values e he v hmem

theorem clean_ofPairs {ps : List (String × String)}
    (h : ∀ p ∈ ps, Text.IsTrimmed p.1 ∧ Text.IsTrimmed p.2) : (ofPairs ps).Clean := by
  suffices ∀ start : History, start.Clean →
      (ps.foldl (fun h p => h.append p.1 p.2) start).Clean from this empty clean_empty
  induction ps with
  | nil => exact fun start hs => hs
  | cons p ps ih =>
    intro start hs
    obtain ⟨h1, h2⟩ := h p List.mem_cons_self
    exact ih (fun q hq => h q (List.mem_cons_of_mem _ hq)) _ (clean_append hs h1 h2)

theorem isTrimmed_cleanPairs (ps : List (List Char × List Char)) :
    ∀ p ∈ cleanPairs ps, Text.IsTrimmed p.1 ∧ Text.IsTrimmed p.2 := by
  intro p hp
  obtain ⟨⟨name, value⟩, -, h⟩ := List.mem_filterMap.1 hp
  dsimp only at h
  split at h
  · cases h
  · next hne =>
    rw [not_or] at hne
    cases h
    exact ⟨Text.isTrimmed_ofList hne.1 (Text.trimChars_trimChars name),
      Text.isTrimmed_ofList hne.2 (Text.trimChars_trimChars value)⟩

theorem clean_parse (raw : String) : (parse raw).Clean := clean_ofPairs (isTrimmed_cleanPairs _)

/-! ## marks -/

/-- what may stand before a query string -/
def marks : List String := ["", "#", "?"]

theorem parse_marked {h : History} (hc : h.Clean) {mark : String} (hm : mark ∈ marks) :
    parse (mark ++ h.queryString) = h := by
  -- neither the mark nor the query string has anything to trim
  have htrim : Text.trimChars (mark ++ h.queryString).toList =
      mark.toList ++ h.queryString.toList := by
    rw [String.toList_append]
    refine Text.trimChars_of_notBlank fun c hcm => ?_
    rcases List.mem_append.1 hcm with hcm | hcm
    · simp only [marks, List.mem_cons, List.not_mem_nil, or_false] at hm
      rcases hm with rfl | rfl | rfl
      · cases hcm
      · cases List.mem_singleton.1 hcm
        decide
      · cases List.mem_singleton.1 hcm
        decide
    · exact (mem_queryString hcm).1
  have hbody : body (mark.toList ++ h.queryString.toList) = h.queryString.toList := by
    simp only [marks, List.mem_cons, List.not_mem_nil, or_false] at hm
    rcases hm with rfl | rfl | rfl
    · exact body_of_ne fun c hcm => (mem_queryString hcm).2
    · rfl
    · rfl
  rw [parse, htrim, hbody, ofPairs_queryString hc]

/-! ## round trips -/

theorem query_string_round_trip :
    (∀ h : History, ∀ mark ∈ marks, parse (mark ++ h.queryString) = h ↔ h.Clean) ∧
      ∀ raw : String, (parse raw).Clean ∧ ∀ mark ∈ marks,
        parse (mark ++ (parse raw).queryString) = parse raw ∧
          (parse (mark ++ (parse raw).queryString)).queryString = (parse raw).queryString := by
  constructor
  · intro h mark hm
    constructor
    · intro he
      rw [← he]
      exact clean_parse _
    · intro hc
      exact parse_marked hc hm
  · intro raw
    refine ⟨clean_parse raw, fun mark hm => ?_⟩
    have he := parse_marked (clean_parse raw) hm
    exact ⟨he, by rw [he]⟩

/-- separators, percent signs, blanks and other alphabets within keys and values -/
def oddTexts : History :=
  ⟨[("review status", ["False positive", "a&b=c", "#1"]), ("größe?", ["100%", "%41+é", "日本"])]⟩

theorem query_string_round_trip_oddTexts :
    "#" ∈ marks ∧ oddTexts.Clean ∧ parse ("#" ++ oddTexts.queryString) = oddTexts := by
  have hm : "#" ∈ marks := by decide
  have hc : oddTexts.Clean :=
    ⟨by decide, by unfold Text.IsTrimmed; decide +kernel, by decide,
      by unfold Text.IsTrimmed; decide +kernel⟩
  exact ⟨hm, hc, (query_string_round_trip.1 oddTexts "#" hm).2 hc⟩

end History
end Triage
