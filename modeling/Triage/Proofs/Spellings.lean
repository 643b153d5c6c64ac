import Triage.Facet.Kind
import Triage.Proofs.Timestamps

/-!
# Canonical spellings are fixed

Every kind of facet selects a value under one spelling, and this spelling is read as itself:

* `trimChars_trimChars`     trimming twice is trimming once;
* `range?_rangeText`        bounds read back from their text;
* `FacetKind.Spelled k v`   the value is its own canonical form, and trimmed;
* `spelled_of_canonical`    so is every canonical form, whatever it was read from.
-/

namespace Triage

namespace Text

/-! ## trimming -/

theorem head?_trimStart (cs : List Char) : ∀ c ∈ (trimStart cs).head?, isBlank c = false := by
  intro c hc
  have h := List.head?_dropWhile_not isBlank cs
  rw [trimStart] at hc
  rw [Option.mem_def.1 hc] at h
  exact h

/-- what is left after trimming the end is a beginning of the text -/
theorem trimEnd_begins (cs : List Char) : trimEnd cs <+: cs := by
  have h : trimStart cs.reverse <:+ cs.reverse := List.dropWhile_suffix _
  rw [trimEnd, ← List.reverse_suffix, List.reverse_reverse]
  exact h

theorem getLast?_trimEnd (cs : List Char) : ∀ c ∈ (trimEnd cs).getLast?, isBlank c = false := by
  intro c hc
  rw [trimEnd, List.getLast?_reverse] at hc
  exact head?_trimStart cs.reverse c hc

theorem head?_trimEnd {cs : List Char} (h : ∀ c ∈ cs.head?, isBlank c = false) :
    ∀ c ∈ (trimEnd cs).head?, isBlank c = false := by
  intro c hc
  obtain ⟨rest, hr⟩ := trimEnd_begins cs
  refine h c ?_
  rw [← hr]
  cases ht : trimEnd cs with
  | nil => rw [ht] at hc; cases hc
  | cons d ds => rw [ht] at hc; exact hc

theorem head?_trimChars (cs : List Char) : ∀ c ∈ (trimChars cs).head?, isBlank c = false :=
  head?_trimEnd (head?_trimStart cs)

theorem getLast?_trimChars (cs : List Char) : ∀ c ∈ (trimChars cs).getLast?, isBlank c = false :=
  getLast?_trimEnd (trimStart cs)

theorem trimChars_trimChars (cs : List Char) : trimChars (trimChars cs) = trimChars cs :=
  trimChars_of_ends (head?_trimChars cs) (getLast?_trimChars cs)

theorem mem_of_mem_trimChars {cs : List Char} {c : Char} (h : c ∈ trimChars cs) : c ∈ cs := by
  have h1 : c ∈ trimStart cs := (trimEnd_begins (trimStart cs)).subset h
  exact (List.dropWhile_suffix isBlank).subset h1

theorem isTrimmed_ofList {cs : List Char} (hne : cs ≠ []) (ht : trimChars cs = cs) :
    IsTrimmed (String.ofList cs) := by
  refine ⟨fun h => hne ?_, by rw [String.toList_ofList, ht]⟩
  have hl := congrArg String.toList h
  rwa [String.toList_ofList] at hl

theorem IsTrimmed.trim {s : String} (h : IsTrimmed s) : Text.trim s = s := by
  rw [Text.trim, h.2, String.ofList_toList]

/-- what stands before the first place of a character does not contain it -/
theorem notMem_of_cut? {c : Char} {s a b : List Char} (h : cut? [c] s = some (a, b)) : c ∉ a := by
  induction s generalizing a with
  | nil => cases h
  | cons d s ih =>
    rw [cut?] at h
    by_cases e : c = d
    · rw [after?, if_pos e, after?_nil] at h
      cases h
      exact List.not_mem_nil
    · rw [after?, if_neg e] at h
      obtain ⟨⟨a', b'⟩, h', hp⟩ := Option.map_eq_some_iff.1 h
      cases hp
      rw [List.mem_cons, not_or]
      exact ⟨e, ih h'⟩

end Text

namespace FacetKind

open Text

/-- the value is its own canonical form, and trimmed -/
structure Spelled (k : FacetKind) (v : String) : Prop where
  canonical : k.canonical v = some v
  trimmed : IsTrimmed v

/-! ## one codec at a time -/

theorem trimmed?_spec {raw v : String} (h : trimmed? raw = some v) :
    trimmed? v = some v ∧ IsTrimmed v := by
  unfold trimmed? at h
  dsimp only at h
  split at h
  · cases h
  · next hne =>
    cases h
    have ht : IsTrimmed (trim raw) := by
      refine isTrimmed_ofList (fun hnil => hne ?_) (trimChars_trimChars _)
      rw [trim, hnil]
    refine ⟨?_, ht⟩
    unfold trimmed?
    dsimp only
    rw [ht.trim, if_neg hne]

/-- the members of a coded type have trimmed labels that are read back -/
def LabelsReadBack (α : Type) [Coded α] : Prop :=
  ∀ a ∈ (Coded.all : List α), labelValue? α (Coded.label a) = some (Coded.label a) ∧
    IsTrimmed (Coded.label a)

theorem diffType_labels : LabelsReadBack DiffType := by
  intro a _
  cases a <;> exact ⟨by decide +kernel, by decide +kernel, by decide +kernel⟩

theorem reviewStatus_labels : LabelsReadBack ReviewStatus := by
  intro a _
  cases a <;> exact ⟨by decide +kernel, by decide +kernel, by decide +kernel⟩

theorem detectionStatus_labels : LabelsReadBack DetectionStatus := by
  intro a _
  cases a <;> exact ⟨by decide +kernel, by decide +kernel, by decide +kernel⟩

theorem severity_labels : LabelsReadBack Severity := by
  intro a _
  cases a <;> exact ⟨by decide +kernel, by decide +kernel, by decide +kernel⟩

theorem labelValue?_spec {α : Type} [Coded α] (hall : LabelsReadBack α) {raw v : String}
    (h : labelValue? α raw = some v) : labelValue? α v = some v ∧ IsTrimmed v := by
  obtain ⟨a, ha, rfl⟩ := Option.map_eq_some_iff.1 h
  refine hall a ?_
  unfold Coded.ofLabel? at ha
  split at ha
  · cases ha
  · exact List.mem_of_find?_eq_some ha

theorem flagValue?_spec {raw v : String} (h : flagValue? raw = some v) :
    flagValue? v = some v ∧ IsTrimmed v := by
  obtain ⟨on, -, rfl⟩ := Option.map_eq_some_iff.1 h
  cases on
  · exact ⟨by decide, by decide, by decide⟩
  · exact ⟨by decide, by decide, by decide⟩

theorem toList_tagToken (run tag : List Char) :
    (tagToken (String.ofList run) (String.ofList tag)).toList = run ++ ':' :: tag := by
  have hcolon : ":".toList = [':'] := rfl
  rw [tagToken, String.toList_append, String.toList_append, hcolon, String.toList_ofList,
    String.toList_ofList, List.append_assoc]
  rfl

/-- two trimmed sides around a colon make a trimmed text -/
theorem isTrimmed_tagToken {a b : List Char} (ha : a ≠ []) (hb : b ≠ [])
    (h1 : ∀ c ∈ a.head?, isBlank c = false) (h2 : ∀ c ∈ b.getLast?, isBlank c = false) :
    IsTrimmed (tagToken (String.ofList a) (String.ofList b)) := by
  constructor
  · intro h
    have hl := congrArg String.toList h
    rw [toList_tagToken] at hl
    exact List.append_ne_nil_of_left_ne_nil ha _ hl
  · rw [toList_tagToken]
    refine trimChars_of_ends ?_ ?_
    · rwa [List.head?_append_of_ne_nil _ ha]
    · rw [List.getLast?_append_of_ne_nil _ (List.cons_ne_nil _ _), List.getLast?_cons_of_ne_nil hb]
      exact h2

theorem tagValue?_spec {raw v : String} (h : tagValue? raw = some v) :
    tagValue? v = some v ∧ IsTrimmed v := by
  unfold tagValue? at h
  obtain ⟨⟨l, r⟩, hcut, h⟩ := Option.bind_eq_some_iff.1 h
  dsimp only at h
  split at h
  · cases h
  · next hne =>
    cases h
    rw [not_or] at hne
    have ht := isTrimmed_tagToken hne.1 hne.2 (head?_trimChars l) (getLast?_trimChars r)
    have hno : ':' ∉ trimChars l := fun hm => notMem_of_cut? hcut (mem_of_mem_trimChars hm)
    refine ⟨?_, ht⟩
    unfold tagValue?
    rw [ht.2, toList_tagToken, cut?_append hno]
    simp only [bind, Option.bind_some, trimChars_trimChars]
    rw [if_neg (not_or.2 hne)]

theorem dateValue?_spec {raw v : String} (h : dateValue? raw = some v) :
    dateValue? v = some v ∧ IsTrimmed v := by
  unfold dateValue? at h
  split at h
  · next i hi =>
    split at h
    · cases h
    · next ho =>
      cases h
      obtain ⟨hc, hr⟩ := Calendar.Interval.parse_eq_ok hi
      have ht := Calendar.Interval.isTrimmed_encode hc
      refine ⟨?_, ht⟩
      rw [dateValue?, ht.trim, Calendar.Interval.parse_encode hc hr]
      exact if_neg ho
  · cases h

/-! ## bounds -/

/-- a bound that can be read -/
def IsBound (b : Option Nat) : Prop := ∀ n ∈ b, n ≤ maxWord32

theorem isBound_of_bound? {cs : List Char} {b : Option Nat} (h : bound? cs = some b) :
    IsBound b := by
  unfold bound? at h
  dsimp only at h
  split at h
  · cases h
    intro n hn
    cases hn
  · obtain ⟨m, hm, rfl⟩ := Option.map_eq_some_iff.1 h
    intro n hn
    cases hn
    unfold unsigned? at hm
    simpa using (Option.filter_eq_some_iff.1 hm).2

theorem toList_boundText (b : Option Nat) :
    (boundText b).toList = (b.map digits).getD [] := by
  cases b with
  | none => rfl
  | some n =>
    have hneg : ¬ ((n : Int) < 0) := by omega
    show (integerText n).toList = digits n
    rw [integerText, if_neg hneg, String.toList_ofList, Int.natAbs_natCast]

theorem isDigit_of_mem_boundText {b : Option Nat} {c : Char} (h : c ∈ (boundText b).toList) :
    c.isDigit = true := by
  rw [toList_boundText] at h
  cases b with
  | none => cases h
  | some n => exact List.all_eq_true.1 (all_isDigit_digits n) c h

theorem bound?_boundText {b : Option Nat} (h : IsBound b) :
    bound? (boundText b).toList = some b := by
  have htrim : trimChars (boundText b).toList = (boundText b).toList :=
    trimChars_of_notBlank fun c hc => isBlank_of_isDigit (isDigit_of_mem_boundText hc)
  rw [bound?, htrim]
  cases b with
  | none => rfl
  | some n =>
    have hd : (boundText (some n)).toList = digits n := toList_boundText (some n)
    have hplus : unsigned? maxWord32 (digits n) = some n := by
      have hall := all_isDigit_digits n
      have hread := natural?_digits n
      unfold unsigned?
      split
      · next rest he =>
        rw [he, List.all_cons] at hall
        exact absurd hall (by simp)
      · show Option.filter _ (natural? (digits n)) = some n
        rw [hread]
        exact Option.filter_some_pos (by simpa using h n rfl)
    rw [hd, if_neg (digits_ne_nil n), hplus]
    rfl

theorem toList_rangeText (r : LengthRange) :
    (rangeText r).toList = (boundText r.min).toList ++ ':' :: (boundText r.max).toList := by
  rw [rangeText, String.toList_append, String.toList_append, List.append_assoc]
  rfl

/-- what a range that was read satisfies -/
structure IsRange (r : LengthRange) : Prop where
  min : IsBound r.min
  max : IsBound r.max
  ordered : LengthRange.make r.min r.max = .ok r
  bounded : ¬ (r.min.isNone ∧ r.max.isNone)

theorem make_eq_ok {lo hi : Option Nat} {r : LengthRange} (h : LengthRange.make lo hi = .ok r) :
    r = ⟨lo, hi⟩ := by
  unfold LengthRange.make at h
  split at h
  · split at h
    · cases h
    · cases h
      rfl
  · cases h
    rfl

theorem isRange_of_range? {token : String} {r : LengthRange} (h : range? token = some r) :
    IsRange r := by
  unfold range? at h
  obtain ⟨⟨a, b⟩, -, h⟩ := Option.bind_eq_some_iff.1 h
  obtain ⟨lo, hlo, h⟩ := Option.bind_eq_some_iff.1 h
  obtain ⟨hi, hhi, h⟩ := Option.bind_eq_some_iff.1 h
  split at h
  · next r' hmake =>
    split at h
    · cases h
    · next hb =>
      cases h
      have hr := make_eq_ok hmake
      subst hr
      exact ⟨isBound_of_bound? hlo, isBound_of_bound? hhi, hmake, hb⟩
  · cases h

/-- bounds read back from their text -/
theorem range?_rangeText {r : LengthRange} (h : IsRange r) : range? (rangeText r) = some r := by
  have hno : ':' ∉ (boundText r.min).toList := fun hm =>
    absurd (isDigit_of_mem_boundText hm) (by decide)
  unfold range?
  rw [toList_rangeText, cut?_append hno]
  simp only [bind, Option.bind_some, bound?_boundText h.min, bound?_boundText h.max, h.ordered]
  exact if_neg h.bounded

theorem isTrimmed_rangeText (r : LengthRange) : IsTrimmed (rangeText r) := by
  constructor
  · intro h
    have hl := congrArg String.toList h
    rw [toList_rangeText] at hl
    exact List.append_ne_nil_of_right_ne_nil _ (List.cons_ne_nil _ _) hl
  · refine trimChars_of_notBlank fun c hc => ?_
    rw [toList_rangeText, List.mem_append, List.mem_cons] at hc
    rcases hc with hc | rfl | hc
    · exact isBlank_of_isDigit (isDigit_of_mem_boundText hc)
    · decide
    · exact isBlank_of_isDigit (isDigit_of_mem_boundText hc)

/-! ## all kinds -/

theorem rangeValue_spec {raw v : String} (h : (range? (trim raw)).map rangeText = some v) :
    (range? (trim v)).map rangeText = some v ∧ IsTrimmed v := by
  obtain ⟨r, hr, rfl⟩ := Option.map_eq_some_iff.1 h
  have ht := isTrimmed_rangeText r
  refine ⟨?_, ht⟩
  rw [ht.trim, range?_rangeText (isRange_of_range? hr)]
  rfl

/-- every kind spells the values that it accepts -/
theorem spelled_of_canonical {k : FacetKind} {raw v : String} (h : k.canonical raw = some v) :
    k.Spelled v := by
  suffices k.canonical v = some v ∧ IsTrimmed v from ⟨this.1, this.2⟩
  cases k with
  | run _ | text _ | component | reportHash =>
    rw [canonical] at h ⊢
    exact trimmed?_spec h
  | runTag side =>
    rw [canonical] at h ⊢
    exact tagValue?_spec h
  | unique =>
    rw [canonical] at h ⊢
    exact flagValue?_spec h
  | date field =>
    rw [canonical] at h ⊢
    exact dateValue?_spec h
  | pathLength =>
    rw [canonical] at h ⊢
    exact rangeValue_spec h
  | diffType =>
    rw [canonical] at h ⊢
    exact labelValue?_spec diffType_labels h
  | reviewStatus =>
    rw [canonical] at h ⊢
    exact labelValue?_spec reviewStatus_labels h
  | detectionStatus =>
    rw [canonical] at h ⊢
    exact labelValue?_spec detectionStatus_labels h
  | severity =>
    rw [canonical] at h ⊢
    exact labelValue?_spec severity_labels h

end FacetKind
end Triage
