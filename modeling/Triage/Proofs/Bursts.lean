import Triage.Proofs.Replies

/-!
# Searches while somebody types

A text typed into a search box waits until nobody has typed for the quiet period. It is then
searched for by the next poll, whose clock may go backwards.

* `Panel.Types k o`, `Panel.Ends`   an operation types into the search box of a facet; it ends the
                       wait of a text that was typed at some time: by another text, by a clear, or by
                       a poll that finds the quiet period over;
* `Panel.Waits`        what a run says about the text that waits: it was typed, and nothing since has
                       ended its wait (`waits_append_singleton`);
* `SearchBox.after`    what an operation does to a search box (`search_effect`, `pending_after`);
* `Boxed`              a search box holds the text that waits (`exists_boxed`, for all runs);
* `fst_runSearches`    what a poll brings: one answer to a fetch for each search that is due;
* `searches_once`      so a text is searched for once, unless it is replaced or cleared before.
-/

namespace Triage

namespace SearchBox

variable {d : SearchBox} {text : String} {since now : Nat}

theorem due?_eq_some : d.due? now = some text ↔
    ∃ since, d.pending = some (text, since) ∧ d.interval ≤ now - since := by
  unfold due?
  cases hp : d.pending with
  | none => exact ⟨nofun, fun ⟨_, h, _⟩ => nomatch h⟩
  | some typed =>
    obtain ⟨text', since'⟩ := typed
    show (if d.interval ≤ now - since' then some text' else none) = some text ↔ _
    rw [Option.ite_none_right_eq_some]
    constructor
    · rintro ⟨hdue, h⟩
      cases h
      exact ⟨since', rfl, hdue⟩
    · rintro ⟨_, h, hdue⟩
      cases h
      exact ⟨hdue, rfl⟩

theorem interval_take : (d.take now).2.interval = d.interval := by
  unfold take
  cases d.due? now <;> rfl

/-- a text that is not due goes on waiting -/
theorem pending_take : (d.take now).2.pending = some (text, since) ↔
    d.pending = some (text, since) ∧ ¬ d.interval ≤ now - since := by
  unfold take
  cases hdue : d.due? now with
  | none =>
    refine (and_iff_left_of_imp fun hp hle => ?_).symm
    rw [due?_eq_some.2 ⟨since, hp, hle⟩] at hdue
    cases hdue
  | some text' =>
    obtain ⟨since', hp, hle⟩ := due?_eq_some.1 hdue
    refine ⟨nofun, fun ⟨hp', hno⟩ => absurd ?_ hno⟩
    rw [hp] at hp'
    cases hp'
    exact hle

end SearchBox

namespace Panel

/-! ## what waits -/

/-- the operation types into the search box of a facet -/
def Types (k : FacetKind) : Operation → Prop
  | .request (.typeText id _ _) => k.id = id
  | _ => False

/-- a text that was typed at some time does not wait any longer after the operation -/
def Ends (interval : Nat) (k : FacetKind) (since : Nat) (o : Operation) : Prop :=
  Types k o ∨ Clears k o ∨ ∃ now, o = .request (.runSearches now) ∧ interval ≤ now - since

/-- a text typed into the search box of a facet -/
def typed (k : FacetKind) (text : String) (since : Nat) : Operation :=
  .request (.typeText k.id text since)

theorem types_typed (k : FacetKind) (text : String) (since : Nat) : Types k (typed k text since) :=
  rfl

/-- the text was typed at some time, and nothing since has ended its wait -/
def Waits (interval : Nat) (k : FacetKind) (os : List Operation) (text : String) (since : Nat) :
    Prop :=
  k.source.isSearchable = true ∧ ∃ before after, os = before ++ typed k text since :: after ∧
    ∀ o ∈ after, ¬ Ends interval k since o

variable {interval : Nat} {k : FacetKind} {os os' : List Operation} {o : Operation}
  {text : String} {since : Nat}

theorem not_waits_nil : ¬ Waits interval k [] text since := by
  rintro ⟨-, before, after, h, -⟩
  cases before <;> cases h

theorem waits_append_singleton : Waits interval k (os ++ [o]) text since ↔
    (k.source.isSearchable = true ∧ o = typed k text since) ∨
      (Waits interval k os text since ∧ ¬ Ends interval k since o) := by
  constructor
  · rintro ⟨hk, before, after, h, hafter⟩
    rcases List.eq_nil_or_concat after with rfl | ⟨after', o', rfl⟩
    · exact .inl ⟨hk, List.head_eq_of_cons_eq (List.append_inj' h rfl).2⟩
    · rw [List.concat_eq_append] at h hafter
      rw [← List.cons_append, ← List.append_assoc] at h
      obtain ⟨rfl, ho⟩ := List.append_inj' h rfl
      cases ho
      refine .inr ⟨⟨hk, before, after', rfl, fun o ho => ?_⟩, ?_⟩
      · exact hafter o (List.mem_append_left _ ho)
      · exact hafter _ (List.mem_append_right _ List.mem_cons_self)
  · rintro (⟨hk, rfl⟩ | ⟨⟨hk, before, after, rfl, hafter⟩, ho⟩)
    · exact ⟨hk, os, [], rfl, List.forall_mem_nil _⟩
    · refine ⟨hk, before, after ++ [o], by rw [List.append_assoc]; rfl, ?_⟩
      exact List.forall_mem_append.2 ⟨hafter, List.forall_mem_singleton.2 ho⟩

/-- while nobody types, what waits has waited before -/
theorem Waits.of_append (hos : ∀ o ∈ os', ¬ Types k o)
    (h : Waits interval k (os ++ os') text since) : Waits interval k os text since := by
  induction os' using List.reverseRecOn with
  | nil => rwa [List.append_nil] at h
  | append_singleton os' o ih =>
    obtain ⟨hos', ho⟩ := List.forall_mem_append.1 hos
    rw [← List.append_assoc] at h
    rcases waits_append_singleton.1 h with ⟨-, rfl⟩ | ⟨h, -⟩
    · exact absurd (types_typed k text since) (ho _ List.mem_cons_self)
    · exact ih hos' h

end Panel

/-! ## what an operation does to a search box -/

/-- the search box of a facet after an operation -/
def SearchBox.after (k : FacetKind) (o : Operation) (d : SearchBox) : SearchBox :=
  match o with
  | .request (.typeText id text now) => if k.id = id then d.note text now else d
  | .request (.clear id) => if k.id = id then d.cancel else d
  | .request .reset => d.cancel
  | .request (.runSearches now) => (d.take now).2
  | _ => d

namespace Panel

variable {k : FacetKind} {d : SearchBox} {p : Panel}

theorem search_visited (except : List String) (f : Facet) :
    (f.visited except).search = f.search := by
  unfold Facet.visited Facet.forget
  split
  · rfl
  · split <;> rfl

theorem search_edit (p : Panel) (o : Operation) (f : Facet) :
    (p.edit o f).search = f.search.map (·.after f.kind o) := by
  have hsame : f.search = f.search.map fun d => d := Option.map_id'.symm
  have hselect : ∀ raw info, (f.select raw info).search = f.search := by
    intro raw info
    unfold Facet.select
    split <;> rfl
  have htaking : ∀ h?, (f.taking h?).search = f.search := fun h? => by cases h? <;> rfl
  -- an edit of one facet that keeps the search box
  have hif : ∀ {id : String} {g : Facet}, g.search = f.search →
      (if f.id = id then g else f).search = f.search.map fun d => d := by
    intro id g hg
    split
    · exact hg.trans hsame
    · exact hsame
  cases o with
  | request a =>
    cases a with
    | start h | appear h origin | navigate h => exact (htaking _).trans hsame
    | select id raw info => exact hif (hselect raw info)
    | deselect id raw => exact hif rfl
    | clear id =>
      show (if f.id = id then f.clear else f).search =
        f.search.map fun d => if f.id = id then d.cancel else d
      by_cases h : f.id = id
      · simp only [if_pos h]
        rfl
      · simp only [if_neg h]
        exact hsame
    | reset => rfl
    | setExpanded name expanded | refreshAll except => exact hsame
    | candidatesFor id r => exact hif rfl
    | typeText id text now =>
      show (if f.id = id then f.noting text now else f).search =
        f.search.map fun d => if f.id = id then d.note text now else d
      by_cases h : f.id = id
      · simp only [if_pos h]
        rfl
      · simp only [if_neg h]
        exact hsame
    | runSearches now =>
      show (f.searching now).search = (takeSearch now f).search
      unfold Facet.searching
      by_cases h : (f.dueText now).isSome = true
      · rw [if_pos h]
        rfl
      · rw [if_neg h, takeSearch_of_notDue (by simpa using h)]
  | load h origin => exact (htaking _).trans hsame
  | openFetch id r => exact hif rfl
  | runFetch | closeFetch | addFacet | addGroup | service => exact hsame

theorem search_effect (p : Panel) (o : Operation) (f : Facet) :
    (p.effect o f).search = f.search.map (·.after f.kind o) := by
  unfold effect
  split
  · exact (search_visited _ _).trans (search_edit p o f)
  · exact search_edit p o f

theorem interval_after {o : Operation} : (d.after k o).interval = d.interval := by
  have hif : ∀ {c : Prop} [Decidable c] {e : SearchBox}, e.interval = d.interval →
      (if c then e else d).interval = d.interval := by
    intro c _ e he
    split
    · exact he
    · rfl
  unfold SearchBox.after
  split
  · exact hif rfl
  · exact hif rfl
  · rfl
  · exact SearchBox.interval_take
  · rfl

variable {o : Operation} {text : String} {since : Nat}

/-- a text waits after an operation if it has just been typed, or has waited and goes on to -/
theorem pending_after : (d.after k o).pending = some (text, since) ↔ o = typed k text since ∨
    (d.pending = some (text, since) ∧ ¬ Ends d.interval k since o) := by
  have htyped : ¬ Types k o → o ≠ typed k text since := by
    rintro h rfl
    exact h (types_typed k text since)
  -- an operation that has nothing to do with the search box
  have hkept : ¬ Types k o → ¬ Clears k o → (∀ now, o ≠ .request (.runSearches now)) →
      (d.pending = some (text, since) ↔ o = typed k text since ∨
        (d.pending = some (text, since) ∧ ¬ Ends d.interval k since o)) := by
    intro ht hc hpoll
    have hends : ¬ Ends d.interval k since o := not_or.2 ⟨ht, not_or.2 ⟨hc, fun ⟨now, h, _⟩ =>
      hpoll now h⟩⟩
    rw [or_iff_right (htyped ht), and_iff_left hends]
  -- an operation after which nothing waits
  have hcleared : ¬ Types k o → Clears k o → ((none : Option (String × Nat)) = some (text, since) ↔
      o = typed k text since ∨ (d.pending = some (text, since) ∧ ¬ Ends d.interval k since o)) := by
    intro ht hc
    rw [or_iff_right (htyped ht)]
    exact iff_of_false nofun fun h => h.2 (.inr (.inl hc))
  cases o with
  | request a =>
    cases a with
    | typeText id text' now =>
      show (if k.id = id then d.note text' now else d).pending = _ ↔ _
      by_cases h : k.id = id
      · subst h
        rw [if_pos rfl, or_iff_left fun hw => hw.2 (.inl rfl)]
        constructor
        · intro hp
          cases hp
          rfl
        · intro ho
          cases ho
          rfl
      · rw [if_neg h]
        exact hkept h (fun h => h) nofun
    | clear id =>
      show (if k.id = id then d.cancel else d).pending = _ ↔ _
      by_cases h : k.id = id
      · rw [if_pos h]
        exact hcleared (fun h => h) h
      · rw [if_neg h]
        exact hkept (fun h => h) h nofun
    | reset => exact hcleared (fun h => h) trivial
    | runSearches now =>
      have hends : Ends d.interval k since (.request (.runSearches now)) ↔
          d.interval ≤ now - since := by
        constructor
        · rintro (h | h | ⟨now', h, hle⟩)
          · exact absurd h (fun h => h)
          · exact absurd h (fun h => h)
          · cases h
            exact hle
        · exact fun hle => .inr (.inr ⟨now, rfl, hle⟩)
      rw [or_iff_right (htyped fun h => h), hends]
      exact SearchBox.pending_take
    | _ => exact hkept (fun h => h) (fun h => h) nofun
  | _ => exact hkept (fun h => h) (fun h => h) nofun

/-! ## what a run leaves in a search box -/

/-- the search box of a facet after a run holds the text that waits -/
structure Boxed (interval : Nat) (os : List Operation) (f : Facet) : Prop where
  isSome : f.search.isSome = f.kind.source.isSearchable
  interval_eq : ∀ d ∈ f.search, d.interval = interval
  pending : ∀ d ∈ f.search, ∀ text since,
    d.pending = some (text, since) ↔ Waits interval f.kind os text since

theorem boxed_make (k : FacetKind) (interval : Nat) : Boxed interval [] (.make k interval) := by
  by_cases hk : k.source.isSearchable = true
  · have hs : (Facet.make k interval).search = some { interval } := if_pos hk
    refine ⟨?_, fun d hd => ?_, fun d hd text since => ?_⟩
    · rw [hs]
      exact hk.symm
    · rw [hs] at hd
      cases hd
      rfl
    · rw [hs] at hd
      cases hd
      exact iff_of_false nofun not_waits_nil
  · have hs : (Facet.make k interval).search = none := if_neg hk
    refine ⟨?_, fun d hd => ?_, fun d hd => ?_⟩
    · rw [hs]
      exact (Bool.eq_false_iff.2 hk).symm
    · rw [hs] at hd
      cases hd
    · rw [hs] at hd
      cases hd

variable {interval : Nat} {os : List Operation} {f g : Facet}

theorem search_of_face (h : g.face = f.face) : g.search = f.search := by
  show g.face.search = f.face.search
  rw [h]

theorem Boxed.apply (h : Boxed interval os f) (p : Panel) (o : Operation)
    (hg : g.face = (p.effect o f).face) : Boxed interval (os ++ [o]) g := by
  have hk : g.kind = f.kind := (Facet.kind_of_face hg).trans (kind_effect p o f)
  have hs : g.search = f.search.map (·.after f.kind o) :=
    (search_of_face hg).trans (search_effect p o f)
  refine ⟨?_, fun d hd => ?_, fun d hd text since => ?_⟩
  · rw [hs, hk, Option.isSome_map, h.isSome]
  · rw [hs] at hd
    obtain ⟨e, he, rfl⟩ := Option.mem_map.1 hd
    exact interval_after.trans (h.interval_eq e he)
  · rw [hs] at hd
    obtain ⟨e, he, rfl⟩ := Option.mem_map.1 hd
    have hsearchable : f.kind.source.isSearchable = true :=
      h.isSome.symm.trans (Option.isSome_of_mem he)
    rw [pending_after, h.pending e he, h.interval_eq e he, hk, waits_append_singleton]
    simp only [hsearchable, true_and]

/-- every facet of a run has a search box that holds what waits -/
theorem exists_boxed (config : Config) (g : Gateway) (tab : String) (os : List Operation)
    (k : FacetKind) : ∃ f, ((standard config g tab).applyAll os).find? k.id = some f ∧
      f.kind = k ∧ Boxed config.searchDebounceMs os f := by
  induction os using List.reverseRecOn with
  | nil =>
    have hm : Facet.make k config.searchDebounceMs ∈ (standard config g tab).facets :=
      List.mem_map_of_mem (mem_all k)
    have hd := (complete_standard config g tab []).distinct
    exact ⟨_, find?_of_mem hd hm, rfl, boxed_make k _⟩
  | append_singleton os o ih =>
    obtain ⟨f, hf, hk, hbox⟩ := ih
    have hd := (complete_standard config g tab os).distinct
    obtain ⟨f', hf', hface⟩ := find?_apply hd o hf
    rw [applyAll_append]
    refine ⟨f', hf', ?_, hbox.apply _ o hface⟩
    exact ((Facet.kind_of_face hface).trans (kind_effect _ o f)).trans hk

/-! ## what a poll brings -/

/-- the search box of a facet -/
def searchBox (p : Panel) (k : FacetKind) : Option SearchBox := (p.find? k.id).bind (·.search)

/-- the text in the search box of a facet, and when it was typed -/
def waiting (p : Panel) (k : FacetKind) : Option (String × Nat) := (p.searchBox k).bind (·.pending)

variable {p : Panel}

theorem mem_dueSearches {now : Nat} {id text : String} : (id, text) ∈ p.dueSearches now ↔
    ∃ f ∈ p.facets, f.id = id ∧ f.dueText now = some text := by
  show (id, text) ∈ p.facets.filterMap (fun f => (f.dueText now).map (f.id, ·)) ↔ _
  simp only [List.mem_filterMap, Option.map_eq_some_iff, Prod.mk.injEq]
  constructor
  · rintro ⟨f, hf, text, hdue, rfl, rfl⟩
    exact ⟨f, hf, rfl, hdue⟩
  · rintro ⟨f, hf, rfl, hdue⟩
    exact ⟨f, hf, text, hdue, rfl, rfl⟩

/-- one fetch after the other brings what each of them would have brought alone -/
theorem fst_fetchEach (page : Page) (searches : List (String × String)) :
    ∀ {p : Panel}, Distinct p.facets → (fetchEach page searches p).1 =
      searches.map fun s => (s.1, (p.candidatesFor s.1 (.ofText s.2 page)).1) := by
  induction searches with
  | nil => exact fun _ => rfl
  | cons search rest ih =>
    intro p hd
    have hq := quiet_candidatesFor hd search.1 (.ofText search.2 page)
    show (search.1, _) :: (fetchEach page rest (p.candidatesFor search.1 _).2).1 = _
    rw [ih (hq.distinct hd), List.map_cons]
    refine congrArg (_ :: ·) (List.map_congr_left fun s _ => ?_)
    rw [hq.candidatesFor hd]

theorem fst_runSearches (hd : Distinct p.facets) (now : Nat) : (p.runSearches now).1 =
    (p.dueSearches now).map fun s =>
      (s.1, (p.candidatesFor s.1 (.ofText s.2 (.first p.config.itemsPageSize))).1) := by
  have hq := quiet_takeSearch p now
  refine (fst_fetchEach _ _ (hq.distinct hd)).trans (List.map_congr_left fun s _ => ?_)
  rw [hq.candidatesFor hd]

theorem ids_runSearches (hd : Distinct p.facets) (now : Nat) :
    (p.runSearches now).1.map Prod.fst = (p.dueSearches now).map Prod.fst := by
  rw [fst_runSearches hd, List.map_map]
  rfl

/-- a poll with nothing due -/
theorem runSearches_of_none {now : Nat} (h : ∀ f ∈ p.facets, f.dueText now = none) :
    p.runSearches now = ([], p) := by
  have hdue : p.dueSearches now = [] := by
    refine List.eq_nil_iff_forall_not_mem.2 fun s hs => ?_
    obtain ⟨f, hf, -, htext⟩ := mem_dueSearches.1 hs
    rw [h f hf] at htext
    cases htext
  have hfacets : p.facets.map (takeSearch now) = p.facets :=
    (List.map_congr_left fun f hf => takeSearch_of_notDue (h f hf)).trans (List.map_id p.facets)
  rw [runSearches, hdue, hfacets]
  rfl

/-- typing where there is no search box -/
theorem typeText_of_none {f : Facet} (hf : p.find? f.id = some f) (hs : f.search = none)
    (text : String) (now : Nat) : p.typeText f.id text now = .error (.searchUnsupported f.id) := by
  rw [typeText, facet, hf]
  simp only [bind, Except.bind, hs]
  rfl

/-! ## polls in a run -/

section
variable (config : Config) (g : Gateway) (tab : String) (os : List Operation)

theorem waiting_iff (k : FacetKind) (text : String) (since : Nat) :
    ((standard config g tab).applyAll os).waiting k = some (text, since) ↔
      Waits config.searchDebounceMs k os text since := by
  obtain ⟨f, hf, rfl, hbox⟩ := exists_boxed config g tab os k
  rw [waiting, searchBox, hf, Option.bind_some]
  cases hs : f.search with
  | none =>
    have hsearchable := hbox.isSome
    rw [hs] at hsearchable
    refine iff_of_false nofun fun h => ?_
    rw [h.1] at hsearchable
    cases hsearchable
  | some d => exact hbox.pending d hs text since

theorem dueSearches_iff (now : Nat) (k : FacetKind) (text : String) :
    (k.id, text) ∈ ((standard config g tab).applyAll os).dueSearches now ↔
      ∃ since, Waits config.searchDebounceMs k os text since ∧
        config.searchDebounceMs ≤ now - since := by
  have hd := (complete_standard config g tab os).distinct
  obtain ⟨f, hf, rfl, hbox⟩ := exists_boxed config g tab os k
  have hdue : (f.id, text) ∈ ((standard config g tab).applyAll os).dueSearches now ↔
      f.dueText now = some text := by
    rw [mem_dueSearches]
    constructor
    · rintro ⟨f', hf', hid, htext⟩
      rwa [hd.eq_of_id (mem_of_find? hf).1 hf' hid] at htext
    · exact fun htext => ⟨f, (mem_of_find? hf).1, rfl, htext⟩
  refine hdue.trans ?_
  rw [Facet.dueText, Option.bind_eq_some_iff]
  constructor
  · rintro ⟨d, hs, htext⟩
    obtain ⟨since, hp, hle⟩ := SearchBox.due?_eq_some.1 htext
    exact ⟨since, (hbox.pending d hs text since).1 hp, hbox.interval_eq d hs ▸ hle⟩
  · rintro ⟨since, hw, hle⟩
    obtain ⟨d, hs⟩ := Option.isSome_iff_exists.1 (hbox.isSome.trans hw.1)
    refine ⟨d, hs, SearchBox.due?_eq_some.2 ⟨since, ?_, ?_⟩⟩
    · exact (hbox.pending d hs text since).2 hw
    · rwa [hbox.interval_eq d hs]

theorem mem_runSearches_iff (now : Nat) (k : FacetKind)
    (answer : Except Refusal (List Candidate)) :
    let p := (standard config g tab).applyAll os
    (k.id, answer) ∈ (p.runSearches now).1 ↔ ∃ text since,
      Waits config.searchDebounceMs k os text since ∧ config.searchDebounceMs ≤ now - since ∧
        answer = (p.candidatesFor k.id (.ofText text (.first config.itemsPageSize))).1 := by
  intro p
  have hp := complete_standard config g tab os
  rw [fst_runSearches hp.distinct, List.mem_map, hp.config]
  constructor
  · rintro ⟨⟨id, text⟩, hdue, he⟩
    cases he
    obtain ⟨since, hw, hle⟩ := (dueSearches_iff config g tab os now k text).1 hdue
    exact ⟨text, since, hw, hle, rfl⟩
  · rintro ⟨text, since, hw, hle, rfl⟩
    exact ⟨(k.id, text), (dueSearches_iff config g tab os now k text).2 ⟨since, hw, hle⟩, rfl⟩

/-- the facets that a poll brings something for -/
theorem searched_iff (now : Nat) (k : FacetKind) :
    k.id ∈ (((standard config g tab).applyAll os).runSearches now).1.map Prod.fst ↔
      ∃ text since, Waits config.searchDebounceMs k os text since ∧
        config.searchDebounceMs ≤ now - since := by
  rw [ids_runSearches (complete_standard config g tab os).distinct, List.mem_map]
  constructor
  · rintro ⟨⟨id, text⟩, hdue, h⟩
    obtain rfl : id = k.id := h
    obtain ⟨since, hw⟩ := (dueSearches_iff config g tab os now k text).1 hdue
    exact ⟨text, since, hw⟩
  · rintro ⟨text, since, hw⟩
    exact ⟨(k.id, text), (dueSearches_iff config g tab os now k text).2 ⟨since, hw⟩, rfl⟩

/-- they come in the order of registration, and none comes twice -/
theorem sublist_runSearches (now : Nat) :
    ((((standard config g tab).applyAll os).runSearches now).1.map Prod.fst).Sublist
      (FacetKind.all.map FacetKind.id) := by
  have hp := complete_standard config g tab os
  have hids : ((standard config g tab).applyAll os).facets.map Facet.id =
      FacetKind.all.map FacetKind.id := by
    rw [← hp.kinds, List.map_map]
    rfl
  rw [ids_runSearches hp.distinct, map_fst_dueSearches, ← hids]
  exact List.filter_sublist.map _

/-- a poll leaves the search boxes alone that it brings nothing for -/
theorem searchBox_runSearches (now : Nat) (k : FacetKind)
    (h : k.id ∉ (((standard config g tab).applyAll os).runSearches now).1.map Prod.fst) :
    (((standard config g tab).applyAll os).runSearches now).2.searchBox k =
      ((standard config g tab).applyAll os).searchBox k := by
  have hd := (complete_standard config g tab os).distinct
  obtain ⟨f, hf, rfl, hbox⟩ := exists_boxed config g tab os k
  obtain ⟨f', hf', hface⟩ := find?_apply hd (.request (.runSearches now)) hf
  have hdue : f.dueText now = none := by
    rw [ids_runSearches hd, show f.kind.id = f.id from rfl,
      mem_dueSearches_iff hd (mem_of_find? hf).1] at h
    simpa using h
  have hkept : f'.search = f.search := by
    rw [search_of_face hface, search_effect]
    exact congrArg Facet.search (takeSearch_of_notDue hdue)
  have hq : (((standard config g tab).applyAll os).runSearches now).2.find? f.kind.id = some f' :=
    hf'
  rw [searchBox, searchBox, hf, hq]
  exact hkept

end

section
variable {k : FacetKind} {o : Operation} {os' : List Operation}

/-- what has ended its wait before nobody types any more is not searched for -/
theorem not_waits_of_ended {interval : Nat} {os : List Operation} (ho : ¬ Types k o)
    (hended : ∀ text since, Waits interval k os text since → Ends interval k since o)
    (hos' : ∀ o' ∈ os', ¬ Types k o') (text : String) (since : Nat) :
    ¬ Waits interval k (os ++ o :: os') text since := by
  intro h
  rw [List.append_cons] at h
  rcases waits_append_singleton.1 (h.of_append hos') with ⟨-, rfl⟩ | ⟨hw, hno⟩
  · exact ho (types_typed k text since)
  · exact hno (hended text since hw)

/-- a poll ends the wait of what it searches for -/
theorem ends_of_searched (config : Config) (g : Gateway) (tab : String) (os : List Operation)
    {now : Nat}
    (h : k.id ∈ (((standard config g tab).applyAll os).runSearches now).1.map Prod.fst)
    (text : String) (since : Nat) (hw : Waits config.searchDebounceMs k os text since) :
    Ends config.searchDebounceMs k since (.request (.runSearches now)) := by
  obtain ⟨text', since', hw', hle⟩ := (searched_iff config g tab os now k).1 h
  have hone := ((waiting_iff config g tab os k text since).2 hw).symm.trans
    ((waiting_iff config g tab os k text' since').2 hw')
  cases hone
  exact .inr (.inr ⟨now, rfl, hle⟩)

/-- nothing waits any more after a clear or a search, until somebody types again -/
theorem not_waits_of_emptied (config : Config) (g : Gateway) (tab : String) (os : List Operation)
    (h : Clears k o ∨ ∃ now, o = .request (.runSearches now) ∧
      k.id ∈ (((standard config g tab).applyAll os).runSearches now).1.map Prod.fst)
    (hos' : ∀ o' ∈ os', ¬ Types k o') (text : String) (since : Nat) :
    ¬ Waits config.searchDebounceMs k (os ++ o :: os') text since := by
  rcases h with hc | ⟨now, rfl, hs⟩
  · refine not_waits_of_ended (fun ht => ?_) (fun _ _ _ => .inr (.inl hc)) hos' text since
    unfold Types at ht
    split at ht
    · exact hc
    · exact ht
  · refine not_waits_of_ended ?_ (ends_of_searched config g tab os hs) hos' text since
    exact fun ht => ht

/-- a poll empties the search boxes that it brings something for -/
theorem waiting_of_searched (config : Config) (g : Gateway) (tab : String) (os : List Operation)
    {now : Nat}
    (h : k.id ∈ (((standard config g tab).applyAll os).runSearches now).1.map Prod.fst) :
    (((standard config g tab).applyAll os).runSearches now).2.waiting k = none := by
  have hq : (((standard config g tab).applyAll os).runSearches now).2 =
      (standard config g tab).applyAll (os ++ [.request (.runSearches now)]) :=
    (applyAll_append _ os [.request (.runSearches now)]).symm
  rw [hq, Option.eq_none_iff_forall_ne_some]
  rintro ⟨text, since⟩ hw
  exact not_waits_of_emptied config g tab os (.inr ⟨now, rfl, h⟩) (List.forall_mem_nil _) text
    since ((waiting_iff config g tab _ k text since).1 hw)

/-- typing where there is nothing to search for is refused, and changes nothing -/
theorem refused_of_not_searchable (config : Config) (g : Gateway) (tab : String)
    (os : List Operation) (text : String) (now : Nat) (hk : k.source.isSearchable = false) :
    let p := (standard config g tab).applyAll os
    p.typeText k.id text now = .error (.searchUnsupported k.id) ∧
      p.apply (typed k text now) = p := by
  intro p
  obtain ⟨f, hf, rfl, hbox⟩ := exists_boxed config g tab os k
  have hs : f.search = none := by
    rw [← Option.not_isSome_iff_eq_none, hbox.isSome, hk]
    exact Bool.false_ne_true
  have hrefused := typeText_of_none hf hs text now
  refine ⟨hrefused, ?_⟩
  show (p.typeText f.id text now).toOption.getD p = p
  rw [hrefused]
  rfl

end

/-- Searches fire once, with the text that was typed last. After any operations on a standard panel,
with clocks that may go backwards, a search box holds the text that was typed last, if no poll has
searched for it and no clear has dropped it since. A poll brings, in the order of registration, one
answer for each text that has waited for the quiet period: that of a fetch of the first page for this
text. The other search boxes stay as they are, and if nothing is due, so does everything. Until
somebody types again, what was searched for or cleared is not searched for, and what was replaced
is not searched for either. Where there is no search box, typing is refused. -/
theorem searches_once (config : Config) (g : Gateway) (tab : String) (os : List Operation) :
    let p := (standard config g tab).applyAll os
    let wait := config.searchDebounceMs
    let page := Page.first config.itemsPageSize
    (∀ k text since, p.waiting k = some (text, since) ↔ Waits wait k os text since) ∧
    (∀ now,
      let answers := (p.runSearches now).1
      let q := (p.runSearches now).2
      (answers.map Prod.fst).Sublist (FacetKind.all.map FacetKind.id) ∧
      (∀ k answer, (k.id, answer) ∈ answers ↔ ∃ text since, Waits wait k os text since ∧
        wait ≤ now - since ∧ answer = (p.candidatesFor k.id (.ofText text page)).1) ∧
      (∀ k, k.id ∈ answers.map Prod.fst → q.waiting k = none) ∧
      (∀ k, k.id ∉ answers.map Prod.fst → q.searchBox k = p.searchBox k) ∧
      ((∀ k text since, Waits wait k os text since → now - since < wait) →
        p.runSearches now = ([], p))) ∧
    (∀ k o, Clears k o ∨ (∃ now, o = .request (.runSearches now) ∧
        k.id ∈ (p.runSearches now).1.map Prod.fst) →
      ∀ os', (∀ o' ∈ os', ¬ Types k o') → ∀ now,
        k.id ∉ (((p.apply o).applyAll os').runSearches now).1.map Prod.fst) ∧
    (∀ k text since os', (∀ o' ∈ os', ¬ Types k o') →
      let q := (p.apply (typed k text since)).applyAll os'
      ∀ now answer, (k.id, answer) ∈ (q.runSearches now).1 →
        answer = (q.candidatesFor k.id (.ofText text page)).1) ∧
    (∀ k text now, k.source.isSearchable = false →
      p.typeText k.id text now = .error (.searchUnsupported k.id) ∧
        p.apply (typed k text now) = p) := by
  intro p wait page
  refine ⟨waiting_iff config g tab os, fun now => ⟨sublist_runSearches config g tab os now,
    mem_runSearches_iff config g tab os now, fun k => waiting_of_searched config g tab os,
    searchBox_runSearches config g tab os now, fun h => ?_⟩, ?_, ?_,
    fun k text now => refused_of_not_searchable config g tab os text now⟩
  · refine runSearches_of_none fun f hf => Option.eq_none_iff_forall_ne_some.2 fun text htext => ?_
    obtain ⟨since, hw, hle⟩ := (dueSearches_iff config g tab os now f.kind text).1
      (mem_dueSearches.2 ⟨f, hf, rfl, htext⟩)
    exact absurd (h f.kind text since hw) (Nat.not_lt.2 hle)
  · intro k o h os' hos' now hs
    have hq : (p.apply o).applyAll os' = (standard config g tab).applyAll (os ++ o :: os') :=
      (applyAll_append _ os (o :: os')).symm
    rw [hq] at hs
    obtain ⟨text, since, hw, -⟩ := (searched_iff config g tab _ now k).1 hs
    exact not_waits_of_emptied config g tab os h hos' text since hw
  · intro k text since os' hos' q now answer hm
    have hq : q = (standard config g tab).applyAll (os ++ typed k text since :: os') :=
      (applyAll_append _ os (typed k text since :: os')).symm
    rw [hq] at hm ⊢
    obtain ⟨text', since', hw, -, rfl⟩ := (mem_runSearches_iff config g tab _ now k answer).1 hm
    rw [List.append_cons] at hw
    rcases waits_append_singleton.1 (hw.of_append hos') with ⟨-, h⟩ | ⟨-, hno⟩
    · cases h
      rfl
    · exact absurd (.inl (types_typed k text since)) hno

/-- somebody types into two search boxes, and the clock goes back -/
def twoBursts : List Operation :=
  [typed (.run .baseline) "a" 1000, typed (.run .baseline) "al" 1200,
    typed (.text .filePath) "x" 1400, .request (.runSearches 900)]

theorem searches_once_twoBursts :
    let p := (standard {} { store := twoRuns } "reports").applyAll twoBursts
    ("run", (p.candidatesFor "run" (.ofText "al" (.first 10))).1) ∈ (p.runSearches 1500).1 ∧
    "filepath" ∉ (p.runSearches 1500).1.map Prod.fst ∧
    (p.runSearches 1500).2.searchBox (.text .filePath) = some ⟨300, some ("x", 1400)⟩ ∧
    "run" ∉ ((p.apply (.request (.runSearches 1500))).runSearches 9000).1.map Prod.fst := by
  intro p
  obtain ⟨hwaiting, hpoll, hemptied, -, -⟩ :=
    searches_once {} { store := twoRuns } "reports" twoBursts
  obtain ⟨-, hanswers, -, hkept, -⟩ := hpoll 1500
  have hrun : ("run", (p.candidatesFor "run" (.ofText "al" (.first 10))).1) ∈
      (p.runSearches 1500).1 := by
    have hw := (hwaiting (.run .baseline) "al" 1200).1 (by decide +kernel)
    exact (hanswers (.run .baseline) _).2 ⟨"al", 1200, hw, by decide, rfl⟩
  have hpath : "filepath" ∉ (p.runSearches 1500).1.map Prod.fst := by
    rw [List.mem_map]
    rintro ⟨⟨id, answer⟩, hm, rfl⟩
    obtain ⟨text, since, hw, hle, -⟩ := (hanswers (.text .filePath) answer).1 hm
    have hone := (hwaiting (.text .filePath) text since).2 hw
    have hx : p.waiting (.text .filePath) = some ("x", 1400) := by decide +kernel
    cases hx.symm.trans hone
    exact absurd hle (by decide)
  refine ⟨hrun, hpath, (hkept (.text .filePath) hpath).trans (by decide +kernel), ?_⟩
  exact hemptied (.run .baseline) _ (.inr ⟨1500, rfl, List.mem_map.2 ⟨_, hrun, rfl⟩⟩) []
    (List.forall_mem_nil _) 9000

end Panel
end Triage
