import Triage.Proofs.Timestamps

/-!
# Which intervals read back

* `timestamp?_of_noMinus`       a text without a minus behind its first character is no timestamp;
* `readTimestamp_outside`       so the plain number outside the calendar is refused;
* `parse_encode_eq`             what the text of an interval is read as, for every interval;
* `interval_round_trip`         exactly the intervals of the calendar that are not reversed read
                                back, and whatever was read does.
-/

namespace Triage.Calendar

open Text

/-! ## texts without a minus -/

theorem expect_of_notMem {c : Char} {cs : List Char} (h : c ∉ cs) : expect c cs = none := by
  cases cs with
  | nil => rfl
  | cons d cs =>
    rw [List.mem_cons, not_or] at h
    exact if_neg (Ne.symm h.1)

theorem fixed_rest {k n : Nat} {cs rest : List Char} (h : fixed k cs = some (n, rest)) :
    rest = cs.drop k := by
  unfold fixed at h
  split at h
  · obtain ⟨m, -, he⟩ := Option.map_eq_some_iff.1 h
    cases he
    rfl
  · cases h

/-- at least one digit is taken -/
theorem upTo_rest {k n : Nat} {cs rest : List Char} (h : upTo k cs = some (n, rest)) :
    rest <:+ cs.tail := by
  obtain ⟨m, hm, he⟩ := Option.map_eq_some_iff.1 h
  cases he
  cases hds : (cs.take k).takeWhile Char.isDigit with
  | nil => rw [hds, natural?_nil] at hm; cases hm
  | cons d ds =>
    cases cs with
    | nil => rw [List.take_nil] at hds; cases hds
    | cons c cs => exact List.drop_suffix ds.length cs

theorem looseYear_rest {cs rest : List Char} {y : Int} (ht : trimStart cs = cs)
    (h : looseYear cs = some (y, rest)) : rest <:+ cs.tail := by
  rw [looseYear, ht] at h
  split at h
  · obtain ⟨⟨n, r⟩, hu, he⟩ := Option.map_eq_some_iff.1 h
    cases he
    exact (upTo_rest hu).trans (List.tail_suffix _)
  · obtain ⟨⟨n, r⟩, hu, he⟩ := Option.map_eq_some_iff.1 h
    cases he
    exact (upTo_rest hu).trans (List.tail_suffix _)
  · obtain ⟨⟨n, r⟩, hu, he⟩ := Option.map_eq_some_iff.1 h
    cases he
    exact upTo_rest hu

section
variable {cs : List Char} (h : '-' ∉ cs.tail)
include h

theorem looseDate_of_noMinus (ht : trimStart cs = cs) : looseDate cs = none := by
  unfold looseDate
  cases hy : looseYear cs with
  | none => rfl
  | some p =>
    obtain ⟨y, rest⟩ := p
    have hno : '-' ∉ rest := fun hm => h ((looseYear_rest ht hy).subset hm)
    simp only [bind, Option.bind_some, expect_of_notMem hno, Option.bind_none]

theorem stamped?_of_noMinus : stamped? cs = none := by
  unfold stamped?
  cases hy : fixed 4 cs with
  | none => rfl
  | some p =>
    obtain ⟨y, rest⟩ := p
    have hsuf : rest <:+ cs.tail := by
      rw [fixed_rest hy, ← List.drop_one]
      exact List.drop_suffix_drop_left cs (by decide)
    have hno : '-' ∉ rest := fun hm => h (hsuf.subset hm)
    simp only [bind, Option.bind_some, expect_of_notMem hno, Option.bind_none]

theorem timestamp?_of_noMinus (ht : trimStart cs = cs) : timestamp? cs = none := by
  have hd := looseDate_of_noMinus h ht
  have hloose : ∀ sep, loose? sep cs = none := fun sep => by
    unfold loose?
    rw [hd]
    rfl
  have hbare : bareDate? cs = none := by
    unfold bareDate?
    rw [hd]
    rfl
  rw [timestamp?, stamped?_of_noMinus h, hloose, hloose, hbare]
  rfl

end

/-! ## numbers outside the calendar -/

theorem mem_integerText {n : Int} {c : Char} (hc : c ∈ (integerText n).toList) :
    c.isDigit = true ∨ c = '-' := by
  have hdigit : c ∈ digits n.natAbs → c.isDigit = true := fun h =>
    List.all_eq_true.1 (all_isDigit_digits _) c h
  rw [integerText, String.toList_ofList] at hc
  split at hc
  · rcases List.mem_cons.1 hc with rfl | hc
    · exact .inr rfl
    · exact .inl (hdigit hc)
  · exact .inl (hdigit hc)

theorem minus_notMem_tail_integerText (n : Int) : '-' ∉ (integerText n).toList.tail := by
  have hdigit : '-' ∉ digits n.natAbs := fun h =>
    absurd (List.all_eq_true.1 (all_isDigit_digits _) _ h) (by decide)
  rw [integerText, String.toList_ofList]
  split
  · exact hdigit
  · exact fun h => hdigit (List.mem_of_mem_tail h)

theorem isBlank_of_mem_integerText {n : Int} {c : Char} (h : c ∈ (integerText n).toList) :
    isBlank c = false := by
  rcases mem_integerText h with hd | rfl
  · exact isBlank_of_isDigit hd
  · decide

theorem readTimestamp_outside {ts : Int} (h : ¬ (earliest ≤ ts ∧ ts ≤ latest)) :
    readTimestamp (timestampText ts) = .error (.timestamp (timestampText ts)) := by
  have hblank : ∀ c ∈ (integerText ts).toList, isBlank c = false :=
    fun c hc => isBlank_of_mem_integerText hc
  have hstart : trimStart (integerText ts).toList = (integerText ts).toList :=
    trimStart_of_head fun c hc => hblank c (List.mem_of_mem_head? hc)
  have hnone := timestamp?_of_noMinus (minus_notMem_tail_integerText ts) hstart
  have htrim : trim (integerText ts) = integerText ts := by
    rw [trim, trimChars_of_notBlank hblank, String.ofList_toList]
  rw [timestampText, if_neg h]
  unfold readTimestamp
  dsimp only
  rw [htrim, hnone]

end Triage.Calendar

namespace Triage.Calendar.Interval

open Text

/-! ## intervals -/

/-- the side is open or of the calendar -/
def SideInCalendar (s : Option Int) : Prop := ∀ ts ∈ s, earliest ≤ ts ∧ ts ≤ latest

instance (s : Option Int) : Decidable (SideInCalendar s) :=
  match s with
  | none => .isTrue fun _ h => by cases h
  | some ts =>
    if h : earliest ≤ ts ∧ ts ≤ latest then .isTrue fun _ ht => by cases ht; exact h
    else .isFalse fun hs => h (hs ts rfl)

theorem dot_notMem_encodeSide (s : Option Int) : '.' ∉ (encodeSide s).toList := by
  intro hm
  by_cases hs : SideInCalendar s
  · exact ne_dot_of_isStamp (isStamp_of_mem_encodeSide hs hm) rfl
  · cases s with
    | none => exact absurd hm List.not_mem_nil
    | some ts =>
      have hout : ¬ (earliest ≤ ts ∧ ts ≤ latest) := fun h => hs fun _ ht => by cases ht; exact h
      rw [encodeSide, timestampText, if_neg hout] at hm
      rcases mem_integerText hm with h | h
      · exact absurd h (by decide)
      · exact absurd h (by decide)

theorem side_outside {s : Option Int} (h : ¬ SideInCalendar s) :
    side (encodeSide s).toList = .error (.timestamp (encodeSide s)) := by
  cases s with
  | none => exact absurd (fun _ ht => by cases ht) h
  | some ts =>
    have hout : ¬ (earliest ≤ ts ∧ ts ≤ latest) := fun hin => h fun _ ht => by cases ht; exact hin
    have htext : encodeSide (some ts) = integerText ts := if_neg hout
    have hne : trimChars (encodeSide (some ts)).toList ≠ [] := by
      rw [htext, trimChars_of_notBlank fun c hc => isBlank_of_mem_integerText hc, integerText,
        String.toList_ofList]
      split
      · exact List.cons_ne_nil _ _
      · exact digits_ne_nil _
    have hread : readTimestamp (encodeSide (some ts)) =
        .error (.timestamp (encodeSide (some ts))) := readTimestamp_outside hout
    rw [side, if_neg hne, String.ofList_toList, hread]
    rfl

/-- the first side outside the calendar is named, then the order of the sides is looked at -/
theorem parse_encode_eq (i : Interval) :
    parse i.encode =
      if ¬ SideInCalendar i.after then .error (.timestamp (encodeSide i.after))
      else if ¬ SideInCalendar i.before then .error (.timestamp (encodeSide i.before))
      else if i.isReversed then .error (.range i.encode)
      else .ok i := by
  unfold parse
  rw [toList_encode, cut?_pair (dot_notMem_encodeSide i.after)]
  by_cases ha : SideInCalendar i.after
  · rw [if_neg (not_not.2 ha)]
    by_cases hb : SideInCalendar i.before
    · rw [if_neg (not_not.2 hb)]
      simp only [side_encodeSide ha, side_encodeSide hb, bind, Except.bind]
      rfl
    · rw [if_pos hb]
      simp only [side_encodeSide ha, side_outside hb, bind, Except.bind]
  · rw [if_pos ha]
    simp only [side_outside ha, bind, Except.bind]

theorem isReversed_eq_false_iff (i : Interval) :
    i.isReversed = false ↔ ∀ a ∈ i.after, ∀ b ∈ i.before, a ≤ b := by
  obtain ⟨after, before⟩ := i
  cases after <;> cases before <;> simp [isReversed]

theorem interval_round_trip :
    (∀ i : Interval,
      (parse i.encode = .ok i ↔
        (∀ ts ∈ i.after, -8334601228800 ≤ ts ∧ ts ≤ 8210266876799) ∧
          (∀ ts ∈ i.before, -8334601228800 ≤ ts ∧ ts ≤ 8210266876799) ∧
            ∀ a ∈ i.after, ∀ b ∈ i.before, a ≤ b) ∧
      (parse i.encode ≠ .ok i → ∃ e, parse i.encode = .error e)) ∧
    (∀ ts : Int, -8334601228800 ≤ ts → ts ≤ 8210266876799 →
      readTimestamp (timestampText ts) = .ok ts) ∧
    ∀ (raw : String) (i : Interval), parse raw = .ok i → parse i.encode = .ok i := by
  refine ⟨fun i => ?_, fun ts h1 h2 => readTimestamp_timestampText ⟨h1, h2⟩, fun raw i h => ?_⟩
  · have heq := parse_encode_eq i
    constructor
    · constructor
      · intro hok
        obtain ⟨⟨ha, hb⟩, hr⟩ := parse_eq_ok hok
        exact ⟨ha, hb, i.isReversed_eq_false_iff.1 hr⟩
      · rintro ⟨ha, hb, hr⟩
        exact parse_encode ⟨ha, hb⟩ (i.isReversed_eq_false_iff.2 hr)
    · intro hne
      split at heq
      · exact ⟨_, heq⟩
      · split at heq
        · exact ⟨_, heq⟩
        · split at heq
          · exact ⟨_, heq⟩
          · exact absurd heq hne
  · obtain ⟨hc, hr⟩ := parse_eq_ok h
    exact parse_encode hc hr

/-- a leap second, a fraction, an offset that leads into the next year, and a year of five digits -/
theorem interval_round_trip_leapSecond :
    parse "9999-12-31T23:59:60.5-23:59..+10000-1- 2" = .ok ⟨some 253402387139, some 253402387200⟩ ∧
      parse (Interval.encode ⟨some 253402387139, some 253402387200⟩) =
        .ok ⟨some 253402387139, some 253402387200⟩ ∧
      readTimestamp (timestampText (-8334601228800)) = .ok (-8334601228800) := by
  have h : parse "9999-12-31T23:59:60.5-23:59..+10000-1- 2" =
      .ok ⟨some 253402387139, some 253402387200⟩ := by rfl
  exact ⟨h, interval_round_trip.2.2 _ _ h, interval_round_trip.2.1 _ (by decide) (by decide)⟩

end Triage.Calendar.Interval
