import Mathlib.Order.Monotone.Basic
import Triage.Calendar.Timestamp

/-!
# Days and moments

* `yearStart_mono`, `marchYearOf_spec`   the year that holds a day, counted from March;
* `dayNumber_ofDayNumber`                the date of a day number has that number, and it exists
                                         (`exists_ofDayNumber`);
* `timestamp_ofTimestamp`                the moment of a timestamp has that timestamp;
* `exists_ofTimestamp`                   it exists for the timestamps of the calendar;
* `timestamp_mem_range`                  a moment that exists has a timestamp of the calendar.
-/

namespace Triage.Calendar

/-! ## years from March -/

theorem yearStart_succ (y : Int) : yearStart y + 365 ≤ yearStart (y + 1) := by
  unfold yearStart
  omega

theorem yearStart_mono {a b : Int} (h : a ≤ b) : yearStart a ≤ yearStart b := by
  have hm : Monotone yearStart := monotone_int_of_le_succ fun y => by
    have hy := yearStart_succ y
    omega
  exact hm h

namespace Date

theorem marchYearOf_spec (z : Int) :
    yearStart (marchYearOf z) ≤ z ∧ z < yearStart (marchYearOf z + 1) := by
  have hlow : yearStart (z * 400 / 146097 - 1) ≤ z := by
    unfold yearStart
    omega
  have hhigh : z < yearStart (z * 400 / 146097 + 1 + 1) := by
    unfold yearStart
    omega
  unfold marchYearOf
  dsimp only
  split
  · next h => exact ⟨hlow, by rw [Int.sub_add_cancel]; exact h⟩
  · next h =>
    split
    · next h' => exact ⟨h', hhigh⟩
    · next h' => exact ⟨by omega, by omega⟩

/-- the days of a year counted from March: the leap day comes at its end -/
theorem yearStart_step (y : Int) :
    yearStart (y + 1) - yearStart y = if isLeap (y + 1) = true then 366 else 365 := by
  unfold yearStart isLeap
  simp only [decide_eq_true_eq]
  split <;> omega

/-- the month from March that holds a day of the year -/
theorem monthStart_spec {d : Nat} (h : d < 366) :
    (5 * d + 2) / 153 ≤ 11 ∧ monthStart ((5 * d + 2) / 153) ≤ d ∧
      d < monthStart ((5 * d + 2) / 153 + 1) := by
  unfold monthStart
  omega

/-- a date by its year and month counted from March -/
def ofMarch (y : Int) (m day : Nat) : Date :=
  if m < 10 then ⟨y, m + 3, day⟩ else ⟨y + 1, m - 9, day⟩

theorem dayNumber_ofMarch (y : Int) {m : Nat} (h : m ≤ 11) (day : Nat) :
    (ofMarch y m day).dayNumber = yearStart y + monthStart m + day - 1 - epoch := by
  unfold ofMarch
  by_cases hm : m < 10
  · have h1 : ¬ m + 3 ≤ 2 := by omega
    rw [if_pos hm, dayNumber]
    simp only [h1, if_false, Nat.add_sub_cancel]
  · have h1 : m - 9 ≤ 2 := by omega
    have h2 : m - 9 + 9 = m := by omega
    rw [if_neg hm, dayNumber]
    simp only [h1, if_true, h2, Int.add_sub_cancel]

theorem exists_ofMarch {y : Int} {m day : Nat} (hm : m ≤ 11) (h1 : 1 ≤ day)
    (h2 : monthStart m + day ≤ monthStart (m + 1))
    (h3 : m = 11 → day ≤ if isLeap (y + 1) = true then 29 else 28) : (ofMarch y m day).Exists := by
  unfold ofMarch Exists
  by_cases h11 : m = 11
  · subst h11
    exact ⟨(by decide : 1 ≤ 2), (by decide : 2 ≤ 12), h1, h3 rfl⟩
  · have hd : day ≤ daysInMonth y (if m < 10 then m + 3 else m - 9) := by
      unfold monthStart at h2
      have hcases : m = 0 ∨ m = 1 ∨ m = 2 ∨ m = 3 ∨ m = 4 ∨ m = 5 ∨ m = 6 ∨ m = 7 ∨ m = 8 ∨ m = 9 ∨
          m = 10 := by omega
      rcases hcases with rfl | rfl | rfl | rfl | rfl | rfl | rfl | rfl | rfl | rfl | rfl <;>
        simp [daysInMonth] <;> omega
    split
    · next h10 =>
      rw [if_pos h10] at hd
      exact ⟨Nat.le_add_left 1 (m + 2), by show m + 3 ≤ 12; omega, h1, hd⟩
    · next h10 =>
      rw [if_neg h10] at hd
      have hm10 : m = 10 := by omega
      subst hm10
      exact ⟨(by decide : 1 ≤ 1), (by decide : 1 ≤ 12), h1, hd⟩

/-- the day of the year, counted from March -/
def dayOfYear (z : Int) : Nat := (z - yearStart (marchYearOf z)).toNat

theorem ofDayNumber_eq (n : Int) :
    ofDayNumber n =
      ofMarch (marchYearOf (n + epoch)) ((5 * dayOfYear (n + epoch) + 2) / 153)
        (dayOfYear (n + epoch) - monthStart ((5 * dayOfYear (n + epoch) + 2) / 153) + 1) := rfl

theorem dayOfYear_spec (z : Int) :
    yearStart (marchYearOf z) + dayOfYear z = z ∧
      dayOfYear z < if isLeap (marchYearOf z + 1) = true then 366 else 365 := by
  obtain ⟨h1, h2⟩ := marchYearOf_spec z
  have h3 := yearStart_step (marchYearOf z)
  unfold dayOfYear
  split at h3 <;> next hl => simp only [hl, if_true, if_false, Bool.false_eq_true]; omega

theorem dayOfYear_lt (z : Int) : dayOfYear z < 366 := by
  have h := (dayOfYear_spec z).2
  split at h <;> omega

theorem dayNumber_ofDayNumber (n : Int) : (ofDayNumber n).dayNumber = n := by
  obtain ⟨hm, hlow, -⟩ := monthStart_spec (dayOfYear_lt (n + epoch))
  have hz := (dayOfYear_spec (n + epoch)).1
  rw [ofDayNumber_eq, dayNumber_ofMarch _ hm]
  omega

theorem exists_ofDayNumber (n : Int) : (ofDayNumber n).Exists := by
  obtain ⟨hm, hlow, hhigh⟩ := monthStart_spec (dayOfYear_lt (n + epoch))
  have hz := (dayOfYear_spec (n + epoch)).2
  rw [ofDayNumber_eq]
  refine exists_ofMarch hm (Nat.le_add_left 1 _) (by omega) fun h11 => ?_
  have h337 : monthStart 11 = 337 := rfl
  rw [h11, h337] at hlow ⊢
  split at hz <;> next hl => simp only [hl, if_true, if_false, Bool.false_eq_true]; omega

/-! ## the years of the calendar -/

/-- the days of a year, and the first and the last day among them -/
theorem dayNumber_bounds {d : Date} (h : d.Exists) :
    yearStart (d.year - 1) + 306 ≤ d.dayNumber + epoch ∧
      d.dayNumber + epoch < yearStart d.year + 306 := by
  obtain ⟨h1, h2, h3, h4⟩ := h
  have hstep := yearStart_step (d.year - 1)
  rw [Int.sub_add_cancel] at hstep
  unfold dayNumber
  by_cases hm : d.month ≤ 2
  · simp only [hm, if_true]
    have hd : monthStart (d.month + 9) + d.day ≤
        if isLeap d.year = true then 366 else 365 := by
      have hcases : d.month = 1 ∨ d.month = 2 := by omega
      cases hl : isLeap d.year <;> rcases hcases with e | e <;> rw [e] at h4 ⊢ <;>
        simp [daysInMonth, monthStart, hl] at h4 ⊢ <;> omega
    have hs : 306 ≤ monthStart (d.month + 9) := by
      unfold monthStart
      omega
    split at hstep <;> next hl => simp only [hl, if_true, if_false, Bool.false_eq_true] at hd; omega
  · simp only [hm, if_false]
    have hd : monthStart (d.month - 3) + d.day ≤ 306 := by
      have hcases : d.month = 3 ∨ d.month = 4 ∨ d.month = 5 ∨ d.month = 6 ∨ d.month = 7 ∨
          d.month = 8 ∨ d.month = 9 ∨ d.month = 10 ∨ d.month = 11 ∨ d.month = 12 := by omega
      rcases hcases with e | e | e | e | e | e | e | e | e | e <;> rw [e] at h4 ⊢ <;>
        simp [daysInMonth, monthStart] at h4 ⊢ <;> omega
    split at hstep <;> omega

end Date

namespace Moment

/-! ## moments -/

theorem timestamp_ofTimestamp (ts : Int) : (ofTimestamp ts).timestamp = ts := by
  unfold ofTimestamp timestamp
  dsimp only
  rw [Date.dayNumber_ofDayNumber]
  omega

/-- a timestamp is on the day of its moment -/
theorem timestamp_day (m : Moment) (h : m.hour < 24 ∧ m.minute < 60) :
    m.date.dayNumber * 86400 ≤ m.timestamp ∧ m.timestamp < m.date.dayNumber * 86400 + 86400 := by
  unfold timestamp
  omega

theorem yearStart_first : yearStart (-262144) + 306 = earliest / 86400 + Date.epoch := by decide

theorem yearStart_last : yearStart 262142 + 306 = latest / 86400 + 1 + Date.epoch := by decide

/-- the moments of the calendar are those of its timestamps -/
theorem mem_range_iff {d : Date} (h : d.Exists) :
    (-262143 ≤ d.year ∧ d.year ≤ 262142) ↔
      (earliest / 86400 ≤ d.dayNumber ∧ d.dayNumber ≤ latest / 86400) := by
  obtain ⟨hlow, hhigh⟩ := Date.dayNumber_bounds h
  have hfirst := yearStart_first
  have hlast := yearStart_last
  constructor
  · rintro ⟨h1, h2⟩
    have m1 := yearStart_mono (show (-262144 : Int) ≤ d.year - 1 by omega)
    have m2 := yearStart_mono h2
    omega
  · rintro ⟨h1, h2⟩
    constructor
    · by_contra hlt
      have m1 := yearStart_mono (show d.year ≤ -262144 by omega)
      omega
    · by_contra hgt
      have m2 := yearStart_mono (show 262142 ≤ d.year - 1 by omega)
      omega

theorem exists_ofTimestamp {ts : Int} (h : earliest ≤ ts ∧ ts ≤ latest) :
    (ofTimestamp ts).Exists := by
  have hd := Date.exists_ofDayNumber (ts / 86400)
  have hn := Date.dayNumber_ofDayNumber (ts / 86400)
  have hy := (mem_range_iff hd).2 (by
    rw [hn]
    unfold earliest latest at *
    omega)
  refine ⟨hd, hy.1, hy.2, ?_⟩
  unfold ofTimestamp
  dsimp only
  omega

theorem timestamp_mem_range {m : Moment} (h : m.Exists) :
    earliest ≤ m.timestamp ∧ m.timestamp ≤ latest := by
  obtain ⟨hd, h1, h2, h3, h4, -⟩ := h
  have hr := (mem_range_iff hd).1 ⟨h1, h2⟩
  have ht := m.timestamp_day ⟨h3, h4⟩
  unfold earliest latest at *
  omega

end Moment

end Triage.Calendar
