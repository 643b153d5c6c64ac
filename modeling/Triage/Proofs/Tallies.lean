import Triage.Proofs.Offered

/-!
# Counted answers as a whole

The service groups results by an attribute, ranks the groups and hands out pieces of the ranking:

* `pairwise_ranked`         rows are ranked by their counts, and then by their names, which are in the
                            order of strings (`Text.lt_of_le`);
* `Page.flatMap_slice`      pages of one length, one after the other, are the front of the whole list;
* `Store.SharedOut`         the counts of a coded attribute share out the results (`sharedOut`);
* `Store.NamesRanked`       the names of an attribute are ranked, each with its results, and chosen by
                            the attribute's own condition (`namesRanked`);
* `Listing`                 the questions answered page by page, and `Listing.page` the answers;
* `Store.grouped_counts`    all of this, for every store and every scope.
-/

namespace Triage

/-! ## the order of the rows -/

namespace Text

theorem lt_of_lexLe {as : List Char} : ∀ {bs : List Char}, as ≠ bs → lexLe charLe as bs = true →
    as < bs := by
  induction as with
  | nil =>
    intro bs hne _
    cases bs with
    | nil => exact absurd rfl hne
    | cons b bs => exact List.nil_lt_cons b bs
  | cons a as ih =>
    intro bs hne h
    cases bs with
    | nil => cases h
    | cons b bs =>
      rw [List.cons_lt_cons_iff]
      by_cases hab : a = b
      · subst hab
        rw [lexLe_cons_self] at h
        exact .inr ⟨rfl, ih (fun e => hne (congrArg _ e)) h⟩
      · rw [lexLe, if_neg hab, charLe, Nat.ble_eq] at h
        exact .inl (Nat.lt_of_le_of_ne h fun e => hab (Char.toNat_inj.1 e))

/-- of two texts the one in front is the smaller one -/
theorem lt_of_le {a b : String} (hne : a ≠ b) (h : le a b = true) : a < b :=
  lt_of_lexLe (fun e => hne (String.toList_inj.1 e)) h

theorem listLe_total (as bs : List String) : listLe as bs = true ∨ listLe bs as = true :=
  lexLe_total le_total as bs

theorem listLe_trans {as bs cs : List String} (hab : listLe as bs = true)
    (hbc : listLe bs cs = true) : listLe as cs = true :=
  lexLe_trans le_antisymm le_trans hab hbc

end Text

section
variable {α : Type} (count : α → Nat) (name : α → List String)

theorem rankedBefore_total (a b : α) :
    (rankedBefore count name a b || rankedBefore count name b a) = true := by
  rw [Bool.or_eq_true, rankedBefore, rankedBefore]
  by_cases h : count a = count b
  · rw [if_pos h, if_pos h.symm]
    exact Text.listLe_total _ _
  · rw [if_neg h, if_neg (Ne.symm h), decide_eq_true_eq, decide_eq_true_eq]
    omega

theorem rankedBefore_trans (a b c : α) (hab : rankedBefore count name a b = true)
    (hbc : rankedBefore count name b c = true) : rankedBefore count name a c = true := by
  unfold rankedBefore at *
  by_cases h : count a = count b <;> by_cases h' : count b = count c
  · rw [if_pos h] at hab
    rw [if_pos h'] at hbc
    rw [if_pos (h.trans h')]
    exact Text.listLe_trans hab hbc
  · rw [if_neg h', decide_eq_true_eq] at hbc
    rw [if_neg (h ▸ h'), decide_eq_true_eq]
    omega
  · rw [if_neg h, decide_eq_true_eq] at hab
    rw [if_neg (h' ▸ h), decide_eq_true_eq]
    omega
  · rw [if_neg h, decide_eq_true_eq] at hab
    rw [if_neg h', decide_eq_true_eq] at hbc
    rw [if_neg (by omega), decide_eq_true_eq]
    omega

/-- rows are ranked by descending counts and then by their names -/
theorem pairwise_ranked (as : List α) :
    (ranked count name as).Pairwise fun a b => rankedBefore count name a b = true :=
  List.pairwise_mergeSort (rankedBefore_trans count name) (rankedBefore_total count name) as

end

/-! ## pages -/

namespace Page

theorem slice_all {α : Type} (rows : List α) : all.slice rows = rows := rfl

/-- the first pages of one length, one after the other, are the front of the list -/
theorem flatMap_slice {α : Type} (rows : List α) (limit n : Nat) :
    (List.range n).flatMap (fun i => slice ⟨some limit, i * limit⟩ rows) = rows.take (n * limit) := by
  induction n with
  | zero => rw [Nat.zero_mul, List.take_zero]; rfl
  | succ n ih =>
    rw [List.range_succ, List.flatMap_append, ih, List.flatMap_singleton, Nat.succ_mul, List.take_add]
    rfl

/-- and with enough pages the whole list -/
theorem flatMap_slice_of_le {α : Type} {rows : List α} {limit n : Nat}
    (h : rows.length ≤ n * limit) :
    (List.range n).flatMap (fun i => slice ⟨some limit, i * limit⟩ rows) = all.slice rows := by
  rw [flatMap_slice, List.take_of_length_le h, slice_all]

end Page

/-- the questions that are answered by a list, a page at a time -/
inductive Listing where
  | names (field : TextAttribute)
  | components
  | runs (patterns : List String)
  | tags (patterns : List String)
deriving DecidableEq, Repr

namespace Listing

abbrev Row : Listing → Type
  | .names _ | .components => NameTally
  | .runs _ => RunTally
  | .tags _ => TagTally

def rows : (q : Listing) → Store → Scope → List q.Row
  | .names field, s, scope => s.namesOf field scope
  | .components, s, scope => s.componentCounts scope
  | .runs patterns, s, scope => s.runCounts scope patterns
  | .tags patterns, s, scope => s.tagCounts scope patterns

def page (q : Listing) (s : Store) (scope : Scope) (p : Page) : List q.Row :=
  p.slice (q.rows s scope)

end Listing

/-! ## coded attributes -/

namespace Store

/-- the counts for the members of a coded attribute share out the results: each member that occurs is
listed once, with the number of its results -/
structure SharedOut {α : Type} [Coded α] [DecidableEq α] (s : Store) (key : Report → α)
    (scope : Scope) : Prop where
  once : ((s.codesOf key scope).map (·.1)).Nodup
  count : ∀ a n, (a, n) ∈ s.codesOf key scope ↔
    0 < n ∧ n = (s.results scope).countP fun r => key r == a
  total : ((s.codesOf key scope).map (·.2)).sum = s.resultCount scope

section
variable {α : Type} [DecidableEq α]

theorem count_map_key (rs : List Report) (key : Report → α) (a : α) :
    (rs.map key).count a = rs.countP fun r => key r == a := by
  rw [List.count_eq_countP, List.countP_map]
  rfl

variable [Coded α]

/-- the members that occur, each with its count -/
theorem codesOf_eq (s : Store) (key : Report → α) (scope : Scope) :
    s.codesOf key scope =
      ((Coded.all : List α).filter fun a => 0 < ((s.results scope).map key).count a).map
        fun a => (a, ((s.results scope).map key).count a) := by
  rw [codesOf, List.filter_map]
  rfl

variable [LawfulCoded α]

theorem sharedOut (s : Store) (key : Report → α) (scope : Scope) : s.SharedOut key scope := by
  have hnodup := (LawfulCoded.nodup_all (α := α)).filter
    fun a => decide (0 < ((s.results scope).map key).count a)
  refine ⟨?_, fun a n => ?_, ?_⟩
  · rw [codesOf_eq, List.map_map]
    exact (List.map_id _).symm ▸ hnodup
  · rw [codesOf_eq, List.mem_map, ← count_map_key]
    constructor
    · rintro ⟨b, hb, he⟩
      obtain ⟨rfl, rfl⟩ := Prod.mk.inj he
      exact ⟨by simpa using (List.mem_filter.1 hb).2, rfl⟩
    · rintro ⟨hpos, rfl⟩
      exact ⟨a, List.mem_filter.2 ⟨LawfulCoded.mem_all a, decide_eq_true hpos⟩, rfl⟩
  · have hperm : ((Coded.all : List α).filter fun a =>
        0 < ((s.results scope).map key).count a).Perm ((s.results scope).map key).dedup := by
      refine (List.perm_ext_iff_of_nodup hnodup (List.nodup_dedup _)).2 fun a => ?_
      rw [List.mem_filter, List.mem_dedup, decide_eq_true_eq, List.count_pos_iff]
      exact and_iff_right (LawfulCoded.mem_all a)
    rw [codesOf_eq, List.map_map]
    show (((Coded.all : List α).filter _).map ((s.results scope).map key).count).sum = _
    rw [(hperm.map _).sum_eq, List.sum_map_count_dedup_eq_length, List.length_map, resultCount]

end

/-! ## names -/

/-- The names of a text attribute are those of the results without the attribute's own condition, as
far as this condition covers them; they are ranked by the number of these results that have them. -/
structure NamesRanked (s : Store) (field : TextAttribute) (scope : Scope)
    (rows : List NameTally) : Prop where
  once : (rows.map (·.name)).Nodup
  order : rows.Pairwise fun a b => b.count < a.count ∨ a.count = b.count ∧ a.name < b.name
  names : ∀ name, name ∈ rows.map (·.name) ↔
    (∃ r ∈ s.results (scope.withTexts field []), field.ofReport r = name) ∧
      (field.patterns scope.filter = [] ∨
        ∃ p ∈ field.patterns scope.filter, Glob.accepts p name = true)
  count : ∀ row ∈ rows, 0 < row.count ∧ row.count =
    (s.results (scope.withTexts field [])).countP fun r => field.ofReport r == row.name
  total : field.patterns scope.filter = [] → (rows.map (·.count)).sum = s.resultCount scope

theorem tally_ne {a b : NameTally} (hname : a.name ≠ b.name)
    (h : rankedBefore (·.count) (fun row : NameTally => [row.name]) a b = true) :
    b.count < a.count ∨ a.count = b.count ∧ a.name < b.name := by
  unfold rankedBefore at h
  by_cases hc : a.count = b.count
  · rw [if_pos hc, Text.listLe, Text.lexLe, if_neg hname] at h
    exact .inr ⟨hc, Text.lt_of_le hname h⟩
  · rw [if_neg hc, decide_eq_true_eq] at h
    exact .inl h

section
variable (s : Store) (field : TextAttribute) (scope : Scope)

/-- the names of an answer are, in another order, those of the results that the attribute's own
condition covers -/
theorem names_perm : ((s.namesOf field scope).map (·.name)).Perm
    ((s.namesIn field scope).filter (wanted (field.patterns scope.filter))) := by
  have h := (ranked_perm (·.count) (fun row : NameTally => [row.name])
    (((s.namesIn field scope).filter (wanted (field.patterns scope.filter))).map
      (s.tallyOfText field scope))).map (·.name)
  rw [List.map_map] at h
  exact h.trans (.of_eq (List.map_id _))

theorem nodup_names : ((s.namesOf field scope).map (·.name)).Nodup :=
  (s.names_perm field scope).nodup_iff.2 ((nodup_firstOfEach_id _).filter _)

theorem mem_names (name : String) : name ∈ (s.namesOf field scope).map (·.name) ↔
    name ∈ s.textsOf field scope ∧ wanted (field.patterns scope.filter) name = true := by
  rw [(s.names_perm field scope).mem_iff, List.mem_filter, namesIn, mem_firstOfEach_id]

/-- all counts together are the texts that the attribute's own condition covers -/
theorem sum_names : ((s.namesOf field scope).map (·.count)).sum =
    (s.textsOf field scope).countP (wanted (field.patterns scope.filter)) := by
  have hcounts : (s.namesOf field scope).map (·.count) =
      ((s.namesOf field scope).map (·.name)).map (s.textsOf field scope).count := by
    rw [List.map_map]
    exact List.map_congr_left fun row hrow => mem_namesOf hrow
  rw [hcounts, ((s.names_perm field scope).map _).sum_eq, namesIn, sum_count_firstOfEach]

theorem namesRanked : s.NamesRanked field scope (s.namesOf field scope) where
  once := s.nodup_names field scope
  order := by
    refine ((pairwise_ranked _ _ _).and (List.pairwise_map.1 (s.nodup_names field scope))).imp ?_
    exact fun ⟨hbefore, hname⟩ => tally_ne hname hbefore
  names name := by
    rw [mem_names, wanted, Bool.or_eq_true, List.isEmpty_iff, anyGlob, List.any_eq_true]
    exact and_congr_left fun _ => List.mem_map
  count row hrow := by
    have hname : row.name ∈ s.textsOf field scope :=
      ((s.mem_names field scope row.name).1 (List.mem_map_of_mem hrow)).1
    rw [mem_namesOf hrow]
    exact ⟨List.count_pos_iff.2 hname, count_map_key _ _ _⟩
  total hopen := by
    have hall : (s.textsOf field scope).countP (wanted []) = (s.textsOf field scope).length :=
      List.countP_eq_length.2 fun _ _ => wanted_nil _
    rw [sum_names, hopen, hall, FacetKind.textsOf_of_open hopen, List.length_map, resultCount]

end

/-- The counted answers of every store to every scope, with a comparison or without, each hash once or
every report. The counts of a coded attribute share out the results. The names of a text attribute are
ranked by their results without the attribute's own condition, which chooses among them, and without
such a condition they share out the results. And whatever is answered by a list comes page by page
without a loss: pages of any one length, taken one after the other until they reach the end, are the
whole list. -/
theorem grouped_counts (s : Store) (scope : Scope) :
    (s.SharedOut (·.severity) scope ∧ s.SharedOut (·.reviewStatus) scope ∧
      s.SharedOut (·.detectionStatus) scope) ∧
    (∀ field, s.NamesRanked field scope ((Listing.names field).page s scope .all)) ∧
    ∀ (q : Listing) (limit n : Nat), 1 ≤ limit → (q.page s scope .all).length ≤ n * limit →
      (List.range n).flatMap (fun i => q.page s scope ⟨some limit, i * limit⟩) =
        q.page s scope .all :=
  ⟨⟨s.sharedOut _ scope, s.sharedOut _ scope, s.sharedOut _ scope⟩,
    fun field => s.namesRanked field scope,
    fun _ _ _ _ hlen => Page.flatMap_slice_of_le hlen⟩

theorem grouped_counts_recurring :
    let paths := (Listing.names .filePath).page recurring {} .all
    paths.length = 3 ∧ (paths.map (·.count)).sum = recurring.resultCount {} ∧
      (List.range 2).flatMap (fun i => (Listing.names .filePath).page recurring {} ⟨some 2, i * 2⟩) =
        paths := by
  intro paths
  have h := grouped_counts recurring {}
  have hlen : paths.length = 3 := by
    have hperm := (recurring.names_perm .filePath {}).length_eq
    rw [List.length_map] at hperm
    exact hperm.trans (by decide +kernel)
  refine ⟨hlen, (h.2.1 .filePath).total rfl, h.2.2 (.names .filePath) 2 2 (by decide) ?_⟩
  rw [hlen]
  decide

end Store

end Triage
