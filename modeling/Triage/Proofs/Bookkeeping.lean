import Triage.Proofs.Contributions

/-!
# What an operation does to the phase, the groups and the history

* `Panel.regrouped p o`    the groups after an operation, and `Panel.writes p o` whether it ends
                           with writing the history;
* `Panel.Course p o q`     everything that an operation can do to a panel in which groups have known
                           members (`course_apply`);
* `Panel.Books p o q`      phase, groups and history after an operation, whatever the service
                           answers (`books_apply`);
* `Panel.picks_apply`      what is selected after an operation;
* `Panel.Registered p`     no two facets of one kind, and groups of known facets only: so is every
                           panel that operations make (`registered_applyAll`).
-/

namespace Triage

namespace Facet

theorem pick_face (f : Facet) : f.face.pick = f.pick := congrArg (Prod.mk f.kind) f.values_face

theorem pick_visited (except : List String) (f : Facet) : (f.visited except).pick = f.pick := by
  unfold visited
  split
  · rfl
  · exact f.steady_forget.pick

end Facet

namespace Panel

variable {p q : Panel}

/-- all that is selected after an operation comes from its edits -/
theorem picks_apply (hd : Distinct p.facets) (o : Operation) :
    (p.apply o).facets.map Facet.pick = (p.facets.map (p.edit o) ++ p.added o).map Facet.pick := by
  have hread : ∀ fs : List Facet, fs.map Facet.pick = (fs.map Facet.face).map Facet.pick :=
    fun fs => by
      rw [List.map_map]
      exact List.map_congr_left fun f _ => f.pick_face.symm
  have heffect : ∀ f, (p.effect o f).pick = (p.edit o f).pick := by
    intro f
    unfold effect
    split
    · exact Facet.pick_visited _ _
    · rfl
  rw [hread, (outcome_apply hd o).faces, ← hread, List.map_append, List.map_append, List.map_map,
    List.map_map]
  exact congrArg (· ++ _) (List.map_congr_left fun f _ => heffect f)

/-- no two facets of one kind, and all members of groups are facets -/
structure Registered (p : Panel) : Prop where
  distinct : Distinct p.facets
  members : ∀ g ∈ p.groups, ∀ m ∈ g.members, m ∈ p.facets.map Facet.id

/-- the groups after an operation -/
def regrouped (p : Panel) (o : Operation) : List Group :=
  match o with
  | .request (.setExpanded name expanded) =>
    ((setFirst name expanded p.groups).map (·.2)).getD p.groups
  | .addGroup g =>
    match g.members.find? fun m => (p.find? m).isNone with
    | some _ => p.groups
    | none => p.groups ++ [g]
  | o => ((p.takenFrom o).map fun h => (p.takingOver h).groups).getD p.groups

/-- A value selected or taken out, a facet cleared or all of them, a round, an initialisation: these
end with writing the history. -/
def writes (p : Panel) : Operation → Bool
  | .request .reset => true
  | o => (p.roundOf o).isSome

/-! ## operations that take over a history, and operations that write none -/

/-- what becomes of a panel that takes its selections from a history -/
theorem of_takenFrom {o : Operation} {h : History} (ht : p.takenFrom o = some h) :
    p.regrouped o = (p.takingOver h).groups ∧ p.writes o = true ∧ p.added o = [] ∧
      ∀ f, p.edit o f = f.load h := by
  have hway : p.regrouped o = ((p.takenFrom o).map fun h => (p.takingOver h).groups).getD p.groups →
      p.writes o = ((p.takenFrom o).map fun _ => ([] : List String)).isSome → p.added o = [] →
      (∀ f, p.edit o f = f.taking (p.takenFrom o)) →
      p.regrouped o = (p.takingOver h).groups ∧ p.writes o = true ∧ p.added o = [] ∧
        ∀ f, p.edit o f = f.load h := by
    intro hg hw ha he
    rw [ht] at hg hw he
    exact ⟨hg, hw, ha, he⟩
  cases o with
  | request a => cases a <;> first | exact hway rfl rfl rfl fun _ => rfl | cases ht
  | _ => first | exact hway rfl rfl rfl fun _ => rfl | cases ht

/-- an operation that does not write the history takes nothing from one -/
theorem takenFrom_of_not_writes {o : Operation} (hw : p.writes o = false) :
    p.takenFrom o = none := by
  have hround : p.roundOf o = (p.takenFrom o).map (fun _ => []) →
      p.writes o = (p.roundOf o).isSome → p.takenFrom o = none := by
    intro hr he
    rw [he, hr, Option.isSome_map] at hw
    exact Option.not_isSome_iff_eq_none.1 (by rw [hw]; decide)
  cases o with
  | request a => cases a <;> first | rfl | exact hround rfl rfl
  | _ => first | rfl | exact hround rfl rfl

theorem isSome_find? {f : Facet} (hf : f ∈ p.facets) : (p.find? f.id).isSome = true :=
  List.find?_isSome.2 ⟨f, hf, beq_self_eq_true f.id⟩

theorem writes_known {f : Facet} (hf : f ∈ p.facets) :
    (if (p.find? f.id).isSome then some [f.id] else none : Option (List String)).isSome = true := by
  rw [isSome_find? hf]
  rfl

theorem pick_of_core {f g : Facet} (h : core g = core f) : g.pick = f.pick :=
  congrArg (fun c : FacetKind × Selection => (c.1, c.2.values)) h

/-- an operation that does not write the history changes no selection -/
theorem core_edit {o : Operation} (hw : p.writes o = false) {f : Facet} (hf : f ∈ p.facets) :
    core (p.edit o f) = core f := by
  have hother : ∀ {id : String} {g : Facet}, p.writes o =
      (if (p.find? id).isSome then some [id] else none : Option (List String)).isSome →
      core (if f.id = id then g else f) = core f := by
    intro id g h
    have hne : f.id ≠ id := by
      rintro rfl
      rw [h, writes_known hf] at hw
      cases hw
    rw [if_neg hne]
  have hsame : ∀ {c : Prop} [Decidable c] {g : Facet}, core g = core f →
      core (if c then g else f) = core f := by
    intro c _ g h
    split
    · exact h
    · rfl
  have htaking : core (f.taking (p.takenFrom o)) = core f := by
    rw [takenFrom_of_not_writes hw]
    rfl
  cases o with
  | request a =>
    cases a with
    | select id raw info => exact hother rfl
    | deselect id raw => exact hother rfl
    | clear id => exact hother rfl
    | reset => cases hw
    | typeText id text now => exact hsame rfl
    | candidatesFor id r => exact hsame rfl
    | runSearches now => exact hsame rfl
    | _ => exact htaking
  | openFetch id r => exact hsame rfl
  | _ => exact htaking

/-- An operation takes values out of a facet, selects one in it, or takes its selection from a
history. -/
theorem edit_cases (p : Panel) (o : Operation) (f : Facet) :
    ((p.edit o f).selection.items.Sublist f.selection.items ∧
        ∀ raw info, o ≠ .request (.select f.id raw info)) ∨
      (∃ raw info, o = .request (.select f.id raw info) ∧ p.edit o f = f.select raw info) ∨
      ∃ h, p.takenFrom o = some h ∧ p.edit o f = f.load h := by
  cases ht : p.takenFrom o with
  | some h => exact .inr (.inr ⟨h, rfl, (of_takenFrom ht).2.2.2 f⟩)
  | none =>
    have hother : ∀ {id : String} {g : Facet}, g.selection.items.Sublist f.selection.items →
        (if f.id = id then g else f).selection.items.Sublist f.selection.items := by
      intro id g h
      split
      · exact h
      · exact .refl _
    have htaking : p.edit o f = f.taking (p.takenFrom o) →
        (p.edit o f).selection.items.Sublist f.selection.items := by
      intro he
      rw [he, ht]
      exact .refl _
    cases o with
    | request a =>
      cases a with
      | select id raw info =>
        by_cases hid : f.id = id
        · exact .inr (.inl ⟨raw, info, by rw [hid], if_pos hid⟩)
        · have he : p.edit (.request (.select id raw info)) f = f := if_neg hid
          refine .inl ⟨by rw [he], fun _ _ h => ?_⟩
          cases h
          exact hid rfl
      | deselect id raw => exact .inl ⟨hother List.filter_sublist, nofun⟩
      | clear id => exact .inl ⟨hother (List.nil_sublist _), nofun⟩
      | reset => exact .inl ⟨List.nil_sublist _, nofun⟩
      | typeText id text now => exact .inl ⟨hother (g := f.noting text now) (.refl _), nofun⟩
      | candidatesFor id r => exact .inl ⟨hother (g := f.fetching) (.refl _), nofun⟩
      | runSearches now =>
        have hs : (f.searching now).selection = f.selection := by
          unfold Facet.searching
          split <;> rfl
        exact .inl ⟨by rw [← hs]; exact .refl _, nofun⟩
      | _ => exact .inl ⟨htaking rfl, nofun⟩
    | openFetch id r => exact .inl ⟨hother (g := f.fetching) (.refl _), nofun⟩
    | _ => exact .inl ⟨htaking rfl, nofun⟩

/-! ## everything that an operation can do -/

inductive Course (p : Panel) : Operation → Panel → Prop where
  /-- refused, not called for, or a step of a fetch or a search -/
  | quiet {o : Operation} {q : Panel} (h : p.Quiet q) (hw : p.writes o = false)
    (hg : p.regrouped o = p.groups) (ha : p.added o = []) : Course p o q
  | selected {f : Facet} (hf : f ∈ p.facets) (raw : String) (info : ValueInfo) (asks : Bool) :
    Course p (.request (.select f.id raw info))
      ((p.putAsking asks (f.select raw info)).refreshAll [f.id]).2
  | deselected {f : Facet} (hf : f ∈ p.facets) (raw : String) :
    Course p (.request (.deselect f.id raw)) ((p.put (f.deselect raw)).refreshAll [f.id]).2
  | cleared {f : Facet} (hf : f ∈ p.facets) :
    Course p (.request (.clear f.id)) ((p.put f.clear).refreshAll [f.id]).2
  | loaded {o : Operation} {h : History} (ht : p.takenFrom o = some h) :
    Course p o { ((p.takingOver h).refreshAll []).2 with phase := .ready }
  | reset : Course p (.request .reset) p.reset
  | refreshed (except : List String) :
    Course p (.request (.refreshAll except)) (p.refreshAll except).2
  | grouped {name : String} {expanded : Bool} {old : Group} {groups : List Group}
    (hg : setFirst name expanded p.groups = some (old, groups)) :
    Course p (.request (.setExpanded name expanded)) { p with groups }
  | opened {name : String} {expanded : Bool} {old : Group} {groups : List Group} {t : Summary}
    {q : Panel} (hg : setFirst name expanded p.groups = some (old, groups))
    (hq : refreshMembers old.members {} { p with groups } = .ok (t, q)) :
    Course p (.request (.setExpanded name expanded)) q
  | facet {kind : FacetKind} {q : Panel} (h : p.addFacet kind = .ok q) : Course p (.addFacet kind) q
  | group {g : Group} {q : Panel} (h : p.addGroup g = .ok q) : Course p (.addGroup g) q
  | service (g : Gateway) : Course p (.service g) { p with gateway := g }

/-- a way into the panel that may not be called for -/
theorem course_loadedOr (origin : Origin) {c : Prop} [Decidable c] {h : History} {o : Operation}
    (ht : p.takenFrom o = (if c then some (p.load h origin) else none).map fun _ =>
      p.asked h origin)
    (hw : p.writes o = (p.takenFrom o).isSome) (ha : p.added o = [])
    (hg : p.regrouped o = ((p.takenFrom o).map fun h => (p.takingOver h).groups).getD p.groups) :
    p.Course o (p.loadedOr (if c then some (p.load h origin) else none)) := by
  by_cases hc : c
  · rw [if_pos hc] at ht ⊢
    exact .loaded ht
  · rw [if_neg hc] at ht ⊢
    exact .quiet (.refl p) (by rw [hw, ht]; rfl) (by rw [hg, ht]; rfl) ha

/-- a request about a facet that there is not -/
theorem course_unknown {id : String} {e : Refusal} (h : p.facet id = .error e) {o : Operation}
    (hw : p.writes o =
      (if (p.find? id).isSome then some [id] else none : Option (List String)).isSome)
    (hg : p.regrouped o = p.groups) (ha : p.added o = []) : p.Course o p := by
  refine .quiet (.refl p) (hw.trans ?_) hg ha
  rw [(facet_eq_error h).1]
  rfl

/-- the members of a group of known facets can all be asked -/
theorem exists_refreshMembers (ms : List String) :
    ∀ {p : Panel} (t : Summary), (∀ m ∈ ms, m ∈ p.facets.map Facet.id) →
      ∃ t' q, refreshMembers ms t p = .ok (t', q) := by
  induction ms with
  | nil => exact fun t _ => ⟨t, _, rfl⟩
  | cons m ms ih =>
    intro p t h
    obtain ⟨hm, hms⟩ := List.forall_mem_cons.1 h
    unfold refreshMembers
    cases hf : p.facet m with
    | error e =>
      obtain ⟨f, hmem, hid⟩ := List.mem_map.1 hm
      exact absurd hid ((facet_eq_error hf).2 f hmem)
    | ok f =>
      obtain ⟨outcome, g, n, hr, -⟩ := refreshOne_face p f
      simp only [bind, Except.bind, hr]
      refine ih _ fun m' hm' => ?_
      have hids : (p.withFacets (putIn g p.facets) n).facets.map Facet.id =
          p.facets.map Facet.id := ids_of_kinds (kinds_putIn g _)
      rw [hids]
      exact hms m' hm'

theorem mem_of_setFirst {name : String} {expanded : Bool} {old : Group} {groups : List Group} :
    ∀ {before : List Group}, setFirst name expanded before = some (old, groups) → old ∈ before := by
  intro before
  induction before generalizing groups with
  | nil => exact fun h => nomatch h
  | cons g gs ih =>
    intro h
    rw [setFirst] at h
    split at h
    · cases h
      exact List.mem_cons_self
    · obtain ⟨found, hf, he⟩ := Option.map_eq_some_iff.1 h
      cases he
      exact List.mem_cons_of_mem _ (ih hf)

theorem course_setExpanded (hp : p.Registered) (name : String) (expanded : Bool) :
    p.Course (.request (.setExpanded name expanded))
      (p.accepted (p.setExpanded name expanded)) := by
  unfold setExpanded
  cases hg : setFirst name expanded p.groups with
  | none => exact .quiet (.refl p) rfl (by rw [regrouped, hg]; rfl) rfl
  | some found =>
    obtain ⟨old, groups⟩ := found
    show p.Course _ (p.accepted (if _ then _ else _))
    split
    · obtain ⟨t, q, hq⟩ := exists_refreshMembers old.members (p := { p with groups }) {}
        (hp.members old (mem_of_setFirst hg))
      rw [hq]
      exact .opened hg hq
    · exact .grouped hg

theorem course_request (hp : p.Registered) (a : Action) :
    p.Course (.request a) (p.perform a) := by
  have hd := hp.distinct
  cases a with
  | start h =>
    refine course_loadedOr .deepLink ?_ (Option.isSome_map ..) rfl rfl
    rw [asked_deepLink]
    rfl
  | appear h origin => exact course_loadedOr origin rfl (Option.isSome_map ..) rfl rfl
  | navigate h =>
    refine course_loadedOr .deepLink ?_ (Option.isSome_map ..) rfl rfl
    rw [asked_deepLink]
    rfl
  | select id raw info =>
    show p.Course _ (p.accepted (p.select id raw info))
    unfold select
    cases h : p.facet id with
    | error e => exact course_unknown h rfl rfl rfl
    | ok f =>
      obtain ⟨hf, rfl⟩ := facet_eq_ok h
      exact .selected hf raw info _
  | deselect id raw =>
    show p.Course _ (p.accepted (p.deselect id raw))
    unfold deselect
    cases h : p.facet id with
    | error e => exact course_unknown h rfl rfl rfl
    | ok f =>
      obtain ⟨hf, rfl⟩ := facet_eq_ok h
      exact .deselected hf raw
  | clear id =>
    show p.Course _ (p.accepted (p.clear id))
    unfold clear
    cases h : p.facet id with
    | error e => exact course_unknown h rfl rfl rfl
    | ok f =>
      obtain ⟨hf, rfl⟩ := facet_eq_ok h
      exact .cleared hf
  | reset => exact .reset
  | setExpanded name expanded => exact course_setExpanded hp name expanded
  | refreshAll except => exact .refreshed except
  | candidatesFor id r => exact .quiet (quiet_candidatesFor hd id r) rfl rfl rfl
  | typeText id text now =>
    show p.Course _ ((p.typeText id text now).toOption.getD p)
    cases h : p.typeText id text now with
    | error e => exact .quiet (.refl p) rfl rfl rfl
    | ok q => exact .quiet (quiet_typeText hd h) rfl rfl rfl
  | runSearches now => exact .quiet (quiet_runSearches hd now) rfl rfl rfl

theorem regrouped_addGroup (p : Panel) (g : Group) :
    p.regrouped (.addGroup g) = ((p.addGroup g).toOption.map (·.groups)).getD p.groups := by
  unfold regrouped addGroup
  dsimp only
  cases g.members.find? fun m => (p.find? m).isNone <;> rfl

theorem course_apply (hp : p.Registered) (o : Operation) : p.Course o (p.apply o) := by
  cases o with
  | request a => exact course_request hp a
  | load h origin => exact .loaded rfl
  | openFetch id r =>
    show p.Course _ (p.stepped (p.openFetch id r))
    cases h : p.openFetch id r with
    | error e => exact .quiet (.refl p) rfl rfl rfl
    | ok opened => exact .quiet (quiet_openFetch hp.distinct h) rfl rfl rfl
  | runFetch fetch => exact .quiet (quiet_runFetch p fetch) rfl rfl rfl
  | closeFetch fetch answer =>
    show p.Course _ (p.stepped (p.closeFetch fetch answer))
    cases h : p.closeFetch fetch answer with
    | error e => exact .quiet (.refl p) rfl rfl rfl
    | ok closed => exact .quiet (quiet_closeFetch hp.distinct h) rfl rfl rfl
  | addFacet kind =>
    show p.Course _ ((p.addFacet kind).toOption.getD p)
    cases h : p.addFacet kind with
    | error e => exact .quiet (.refl p) rfl rfl (by rw [added_addFacet, h])
    | ok q => exact .facet h
  | addGroup g =>
    show p.Course _ ((p.addGroup g).toOption.getD p)
    cases h : p.addGroup g with
    | error e => exact .quiet (.refl p) rfl (by rw [regrouped_addGroup, h]; rfl) rfl
    | ok q => exact .group h
  | service g => exact .service g

/-! ## phase, groups and history -/

/-- the phase, the groups and the history after an operation -/
structure Books (p : Panel) (o : Operation) (q : Panel) : Prop where
  phase : q.phase = if (p.takenFrom o).isSome then .ready else p.phase
  groups : q.groups = p.regrouped o
  history : q.history = if p.writes o then History.ofEntries q.allEntries else p.history

/-- nothing is taken over and nothing written -/
theorem Books.of_same {o : Operation} (hp : q.phase = p.phase) (hg : q.groups = p.regrouped o)
    (hh : q.history = p.history) (hw : p.writes o = false) : p.Books o q := by
  refine ⟨?_, hg, ?_⟩
  · rw [hp, takenFrom_of_not_writes hw]
    rfl
  · rw [hh, hw]
    rfl

/-- a round over facets that an operation has changed -/
theorem books_round (fs : List Facet) (hd : Distinct fs) (n : Nat) (except : List String)
    {o : Operation} (ht : p.takenFrom o = none) (hr : p.regrouped o = p.groups)
    (hw : p.writes o = true) : p.Books o ((p.withFacets fs n).refreshAll except).2 := by
  obtain ⟨gs, m, hq, -⟩ := refreshAll_face (p := p.withFacets fs n) hd except
  rw [hq]
  refine ⟨?_, hr.symm, ?_⟩
  · rw [ht]
    rfl
  · rw [hw]
    rfl

theorem addGroup_eq_ok {g : Group} (h : p.addGroup g = .ok q) :
    (∀ m ∈ g.members, m ∈ p.facets.map Facet.id) ∧ q = { p with groups := p.groups ++ [g] } := by
  unfold addGroup at h
  split at h
  · cases h
  · next hn =>
    cases h
    refine ⟨fun m hm => ?_, rfl⟩
    obtain ⟨f, hf⟩ := Option.ne_none_iff_exists'.1 (by simpa using List.find?_eq_none.1 hn m hm)
    obtain ⟨hmem, rfl⟩ := mem_of_find? hf
    exact List.mem_map_of_mem hmem

theorem books_of_course (hd : Distinct p.facets) {o : Operation} (h : p.Course o q) :
    p.Books o q := by
  cases h with
  | quiet h hw hg ha => exact .of_same h.phase (h.groups.trans hg.symm) h.history hw
  | @selected f hf raw info asks =>
    obtain ⟨g, m, hput, -⟩ := p.putAsking_face asks (f.select raw info)
    rw [hput]
    exact books_round _ (hd.of_kinds (kinds_putIn g _)) m [f.id] rfl rfl (writes_known hf)
  | @deselected f hf raw =>
    exact books_round _ (hd.of_kinds (kinds_putIn (f.deselect raw) _)) 0 [f.id] rfl rfl
      (writes_known hf)
  | @cleared f hf =>
    exact books_round _ (hd.of_kinds (kinds_putIn f.clear _)) 0 [f.id] rfl rfl (writes_known hf)
  | @loaded o h ht =>
    obtain ⟨hg, hw, -, -⟩ := of_takenFrom ht
    obtain ⟨fs, n, hq, -⟩ := refreshAll_face (p := p.takingOver h)
      (hd.of_kinds (kinds_takingOver p h)) []
    rw [hq]
    refine ⟨?_, hg.symm, ?_⟩
    · rw [ht]
      rfl
    · rw [hw]
      rfl
  | reset => exact ⟨rfl, rfl, rfl⟩
  | refreshed except => exact books_round p.facets hd 0 except rfl rfl rfl
  | grouped hg => exact .of_same rfl (by rw [regrouped, hg]; rfl) rfl rfl
  | @opened name expanded old groups t q hg hq =>
    obtain ⟨fs, n, rfl, -⟩ := refreshMembers_face old.members (p := { p with groups }) hd hq
    exact .of_same rfl (by rw [regrouped, hg]; rfl) rfl rfl
  | facet h =>
    obtain ⟨-, rfl⟩ := addFacet_eq_ok h
    exact .of_same rfl rfl rfl rfl
  | @group g q h =>
    have hg : p.regrouped (.addGroup g) = q.groups := by
      rw [regrouped_addGroup, h]
      rfl
    obtain ⟨-, rfl⟩ := addGroup_eq_ok h
    exact .of_same rfl hg.symm rfl rfl
  | service g => exact .of_same rfl rfl rfl rfl

theorem books_apply (hp : p.Registered) (o : Operation) : p.Books o (p.apply o) :=
  books_of_course hp.distinct (course_apply hp o)

/-! ## groups of known facets -/

theorem members_of_setFirst {name : String} {expanded : Bool} {found : Group × List Group} :
    ∀ {before : List Group}, setFirst name expanded before = some found →
      found.2.map (·.members) = before.map (·.members) := by
  intro before
  induction before generalizing found with
  | nil => exact fun h => nomatch h
  | cons g gs ih =>
    intro h
    rw [setFirst] at h
    split at h
    · cases h
      rfl
    · obtain ⟨found, hf, rfl⟩ := Option.map_eq_some_iff.1 h
      exact congrArg (g.members :: ·) (ih hf)

theorem members_takingOver (p : Panel) (h : History) :
    (p.takingOver h).groups.map (·.members) = p.groups.map (·.members) := by
  show (p.groups.map _).map _ = _
  rw [List.map_map]
  refine List.map_congr_left fun g _ => ?_
  show (if _ then _ else _ : Group).members = _
  split <;> rfl

theorem members_regrouped (hp : p.Registered) (o : Operation) :
    ∀ g ∈ p.regrouped o, ∀ m ∈ g.members, m ∈ p.facets.map Facet.id := by
  -- the members of all groups are those from before
  have hsame : ∀ {groups : List Group}, groups.map (·.members) = p.groups.map (·.members) →
      ∀ g ∈ groups, ∀ m ∈ g.members, m ∈ p.facets.map Facet.id := by
    intro groups he g hg m hm
    have hmem : g.members ∈ p.groups.map (·.members) := he ▸ List.mem_map_of_mem hg
    obtain ⟨g', hg', he'⟩ := List.mem_map.1 hmem
    exact hp.members g' hg' m (by rwa [he'])
  unfold regrouped
  split
  · next name expanded =>
    cases h : setFirst name expanded p.groups with
    | none => exact hp.members
    | some found => exact hsame (members_of_setFirst h)
  · next g =>
    change ∀ g' ∈ p.regrouped (.addGroup g), _
    rw [regrouped_addGroup]
    cases h : p.addGroup g with
    | error e => exact hp.members
    | ok q =>
      obtain ⟨hg, rfl⟩ := addGroup_eq_ok h
      intro g' hg'
      rcases List.mem_append.1 hg' with hg' | hg'
      · exact hp.members g' hg'
      · rw [List.mem_singleton.1 hg']
        exact hg
  · generalize p.takenFrom _ = taken
    cases taken with
    | none => exact hp.members
    | some h => exact hsame (members_takingOver p h)

theorem registered_apply (hp : p.Registered) (o : Operation) : (p.apply o).Registered := by
  refine ⟨distinct_apply hp.distinct o, fun g hg m hm => ?_⟩
  rw [(books_apply hp o).groups] at hg
  obtain ⟨f, hf, rfl⟩ := List.mem_map.1 (members_regrouped hp o g hg m hm)
  have hk : f.kind ∈ (p.apply o).facets.map (·.kind) := by
    rw [kinds_apply hp.distinct o]
    exact List.mem_append_left _ (List.mem_map_of_mem hf)
  obtain ⟨f', hf', hkind⟩ := List.mem_map.1 hk
  exact List.mem_map.2 ⟨f', hf', congrArg FacetKind.id hkind⟩

theorem registered_applyAll (os : List Operation) :
    ∀ {p : Panel}, p.Registered → (p.applyAll os).Registered := by
  induction os with
  | nil => exact fun hp => hp
  | cons o os ih => exact fun hp => ih (registered_apply hp o)

theorem tab_applyAll (os : List Operation) :
    ∀ {p : Panel}, Distinct p.facets → (p.applyAll os).tab = p.tab := by
  induction os with
  | nil => exact fun _ => rfl
  | cons o os ih =>
    exact fun hd => (ih (distinct_apply hd o)).trans (outcome_apply hd o).tab

/-- a panel without facets and groups -/
theorem registered_empty (config : Config) (g : Gateway) (tab : Option String) :
    ({ config, gateway := g, tab } : Panel).Registered :=
  ⟨List.nodup_nil, fun _ h => nomatch h⟩

/-- whatever is registered, nothing can be selected that a facet would not read again -/
theorem proper_of_empty (config : Config) (g : Gateway) (tab : Option String)
    (os : List Operation) :
    ∀ f ∈ (({ config, gateway := g, tab } : Panel).applyAll os).facets, f.Proper :=
  forall_applyAll (I := Facet.Proper) Facet.Proper.of_face Facet.proper_make
    (fun p o _ => proper_effect p o) os (registered_empty config g tab).distinct
    fun _ h => nomatch h

theorem registered_standard (config : Config) (g : Gateway) (tab : String) :
    (standard config g tab).Registered := by
  rw [standard_eq_applyAll]
  exact registered_applyAll _ (registered_empty config g (some tab))

end Panel
end Triage
