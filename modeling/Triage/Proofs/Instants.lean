import Mathlib.Data.List.Lex
import Triage.Proofs.Intervals

/-!
# Instants and their spellings

* `Date.dayNumber_lt`          a later date, by year, month and day, has a greater day number;
* `Moment.timestamp_lt_iff`    a moment comes before another exactly if its fields do, in order;
* `ofTimestamp_timestamp`      so a moment is found again from its timestamp;
* `Date.next`, `Moment.next`   the day and the second that follow: `timestamp_eq_succ_iff`;
* `Moment.stamp sep m`         date and time around a separator, `Zone.chars` an offset behind them;
* `readTimestamp_stamp`, `readTimestamp_zoned`, `readTimestamp_date`   what each form is read as,
                               whether or not the date exists;
* `spellings_agree`            all spellings of a moment are read as one instant, in order, and
                               dates that do not exist are refused.
-/

namespace Triage.Calendar

open Text

/-! ## the order of days -/

namespace Date

/-- the first of the next month comes behind the last of a month -/
theorem dayNumber_next_month (y : Int) {m : Nat} (h1 : 1 ≤ m) (h12 : m < 12) :
    (Date.mk y (m + 1) 1).dayNumber = (Date.mk y m 1).dayNumber + daysInMonth y m := by
  have hstep := yearStart_step (y - 1)
  rw [Int.sub_add_cancel] at hstep
  have hcases : m = 1 ∨ m = 2 ∨ m = 3 ∨ m = 4 ∨ m = 5 ∨ m = 6 ∨ m = 7 ∨ m = 8 ∨ m = 9 ∨ m = 10 ∨
      m = 11 := by omega
  cases hl : isLeap y <;> simp only [hl, Bool.false_eq_true, if_false, if_true] at hstep <;>
    rcases hcases with rfl | rfl | rfl | rfl | rfl | rfl | rfl | rfl | rfl | rfl | rfl <;>
      simp [dayNumber, daysInMonth, monthStart, hl] <;> omega

theorem dayNumber_month_mono (y : Int) {m n : Nat} (h1 : 1 ≤ m) (hmn : m ≤ n) (h12 : n ≤ 12) :
    (Date.mk y m 1).dayNumber ≤ (Date.mk y n 1).dayNumber := by
  induction n, hmn using Nat.le_induction with
  | base => exact Int.le_refl _
  | succ n hmn ih =>
    have hnext := dayNumber_next_month y (Nat.le_trans h1 hmn) h12
    have hle := ih (Nat.le_of_succ_le h12)
    omega

theorem dayNumber_eq_first (d : Date) :
    d.dayNumber = (Date.mk d.year d.month 1).dayNumber + d.day - 1 := by
  unfold dayNumber
  dsimp only
  omega

theorem dayNumber_lt {d e : Date} (hd : d.Exists) (he : e.Exists)
    (h : d.year < e.year ∨ (d.year = e.year ∧ (d.month < e.month ∨
      (d.month = e.month ∧ d.day < e.day)))) : d.dayNumber < e.dayNumber := by
  rcases h with hy | ⟨hy, hm | ⟨hm, hday⟩⟩
  · have hlast := (dayNumber_bounds hd).2
    have hfirst := (dayNumber_bounds he).1
    have hmono := yearStart_mono (show d.year ≤ e.year - 1 by omega)
    omega
  · obtain ⟨d1, d12, -, hlast⟩ := hd
    obtain ⟨-, e12, e1, -⟩ := he
    have hnext := dayNumber_next_month d.year d1 (by omega)
    have hmono := dayNumber_month_mono d.year (m := d.month + 1) (by omega) hm e12
    rw [dayNumber_eq_first d, dayNumber_eq_first e, ← hy]
    omega
  · rw [dayNumber_eq_first d, dayNumber_eq_first e, hy, hm]
    omega

/-- the day that follows, with all carries -/
def next (d : Date) : Date :=
  if d.day < daysInMonth d.year d.month then ⟨d.year, d.month, d.day + 1⟩
  else if d.month < 12 then ⟨d.year, d.month + 1, 1⟩
  else ⟨d.year + 1, 1, 1⟩

theorem one_le_daysInMonth (y : Int) (m : Nat) : 1 ≤ daysInMonth y m := by
  unfold daysInMonth
  split
  · split <;> decide
  · split <;> decide

theorem exists_next {d : Date} (hd : d.Exists) : d.next.Exists := by
  obtain ⟨h1, h12, hfirst, hlast⟩ := hd
  unfold next
  split
  · next hday => exact ⟨h1, h12, by dsimp only; omega, hday⟩
  · split
    · next hmonth => exact ⟨by dsimp only; omega, hmonth, Nat.le_refl 1, one_le_daysInMonth _ _⟩
    · exact ⟨Nat.le_refl 1, (by decide : 1 ≤ 12), Nat.le_refl 1, one_le_daysInMonth _ _⟩

theorem dayNumber_next {d : Date} (hd : d.Exists) : d.next.dayNumber = d.dayNumber + 1 := by
  obtain ⟨h1, h12, hfirst, hlast⟩ := hd
  unfold next
  split
  · rw [dayNumber_eq_first, dayNumber_eq_first d]
    dsimp only
    omega
  · split
    · next hmonth =>
      rw [dayNumber_next_month d.year h1 hmonth, dayNumber_eq_first d]
      omega
    · have hdecember : d.month = 12 := by omega
      have hyear : (Date.mk (d.year + 1) 1 1).dayNumber = (Date.mk d.year 12 1).dayNumber + 31 := by
        simp [dayNumber, monthStart]
        omega
      have h31 : daysInMonth d.year d.month = 31 := by rw [hdecember]; rfl
      rw [hyear, dayNumber_eq_first d, hdecember]
      omega

end Date

namespace Moment

/-! ## the order of moments -/

/-- from the largest to the smallest -/
def fields (m : Moment) : List Int :=
  [m.date.year, m.date.month, m.date.day, m.hour, m.minute, m.second]

theorem eq_of_fields {m n : Moment} (h : m.fields = n.fields) : m = n := by
  obtain ⟨⟨y, mo, d⟩, ho, mi, s⟩ := m
  obtain ⟨⟨y', mo', d'⟩, ho', mi', s'⟩ := n
  simp only [fields, List.cons.injEq, Int.natCast_inj] at h
  obtain ⟨rfl, rfl, rfl, rfl, rfl, rfl, -⟩ := h
  rfl

/-- the moment exists and is not a leap second -/
structure Regular (m : Moment) : Prop where
  date : m.date.Exists
  hour : m.hour < 24
  minute : m.minute < 60
  second : m.second < 60

instance (m : Moment) : Decidable m.Regular :=
  decidable_of_iff (m.date.Exists ∧ m.hour < 24 ∧ m.minute < 60 ∧ m.second < 60)
    ⟨fun h => ⟨h.1, h.2.1, h.2.2.1, h.2.2.2⟩, fun h => ⟨h.1, h.2, h.3, h.4⟩⟩

variable {m n : Moment}

theorem timestamp_lt (hm : m.Regular) (hn : n.Regular) (h : m.fields < n.fields) :
    m.timestamp < n.timestamp := by
  have hlex : (m.date.year < n.date.year ∨ (m.date.year = n.date.year ∧
      (m.date.month < n.date.month ∨ (m.date.month = n.date.month ∧ m.date.day < n.date.day)))) ∨
      (m.date = n.date ∧ (m.hour < n.hour ∨ (m.hour = n.hour ∧
        (m.minute < n.minute ∨ (m.minute = n.minute ∧ m.second < n.second))))) := by
    -- the first field that differs belongs to the date or to the time of day
    obtain ⟨⟨y, mo, d⟩, ho, mi, s⟩ := m
    obtain ⟨⟨y', mo', d'⟩, ho', mi', s'⟩ := n
    simp only [fields, List.cons_lt_cons_iff, Int.natCast_inj, Int.ofNat_lt, List.not_lt_nil,
      Date.mk.injEq, and_false, or_false] at h ⊢
    omega
  rcases hlex with hdate | ⟨hdate, htime⟩
  · have hday := Date.dayNumber_lt hm.date hn.date hdate
    have h1 := m.timestamp_day ⟨hm.hour, hm.minute⟩
    have h2 := n.timestamp_day ⟨hn.hour, hn.minute⟩
    omega
  · have hm2 := hm.second
    have hn2 := hn.second
    have hm1 := hm.minute
    have hn1 := hn.minute
    unfold timestamp
    rw [hdate]
    omega

theorem timestamp_lt_iff (hm : m.Regular) (hn : n.Regular) :
    m.timestamp < n.timestamp ↔ m.fields < n.fields := by
  refine ⟨fun h => ?_, timestamp_lt hm hn⟩
  rcases lt_trichotomy m.fields n.fields with hlt | heq | hgt
  · exact hlt
  · rw [eq_of_fields heq] at h
    exact absurd h (Int.lt_irrefl _)
  · exact absurd (timestamp_lt hn hm hgt) (Int.not_lt.2 (Int.le_of_lt h))

theorem eq_of_timestamp (hm : m.Regular) (hn : n.Regular) (h : m.timestamp = n.timestamp) :
    m = n := by
  refine eq_of_fields (le_antisymm ?_ ?_)
  · exact not_lt.1 fun hlt => Int.ne_of_gt (timestamp_lt hn hm hlt) h
  · exact not_lt.1 fun hlt => Int.ne_of_lt (timestamp_lt hm hn hlt) h

theorem regular_ofTimestamp (ts : Int) : (ofTimestamp ts).Regular := by
  refine ⟨Date.exists_ofDayNumber _, ?_, ?_, ?_⟩ <;> unfold ofTimestamp <;> dsimp only <;> omega

theorem ofTimestamp_timestamp (hm : m.Regular) : ofTimestamp m.timestamp = m :=
  eq_of_timestamp (regular_ofTimestamp _) hm (timestamp_ofTimestamp _)

/-! ## from one second to the next -/

/-- the second that follows, with all carries -/
def next (m : Moment) : Moment :=
  if m.second < 59 then ⟨m.date, m.hour, m.minute, m.second + 1⟩
  else if m.minute < 59 then ⟨m.date, m.hour, m.minute + 1, 0⟩
  else if m.hour < 23 then ⟨m.date, m.hour + 1, 0, 0⟩
  else ⟨m.date.next, 0, 0, 0⟩

theorem regular_next (hm : m.Regular) : m.next.Regular := by
  obtain ⟨hdate, hhour, hminute, hsecond⟩ := hm
  unfold next
  split
  · exact ⟨hdate, hhour, hminute, by dsimp only; omega⟩
  · split
    · exact ⟨hdate, hhour, by dsimp only; omega, Nat.zero_lt_succ 59⟩
    · split
      · exact ⟨hdate, by dsimp only; omega, Nat.zero_lt_succ 59, Nat.zero_lt_succ 59⟩
      · exact ⟨Date.exists_next hdate, Nat.zero_lt_succ 23, Nat.zero_lt_succ 59,
          Nat.zero_lt_succ 59⟩

theorem timestamp_next (hm : m.Regular) : m.next.timestamp = m.timestamp + 1 := by
  obtain ⟨hdate, hhour, hminute, hsecond⟩ := hm
  unfold next
  split
  · unfold timestamp
    dsimp only
    omega
  · split
    · unfold timestamp
      dsimp only
      omega
    · split
      · unfold timestamp
        dsimp only
        omega
      · unfold timestamp
        dsimp only
        rw [Date.dayNumber_next hdate]
        omega

/-- only the next second has the next timestamp -/
theorem timestamp_eq_succ_iff (hm : m.Regular) (hn : n.Regular) :
    n.timestamp = m.timestamp + 1 ↔ n = m.next := by
  rw [← timestamp_next hm]
  exact ⟨eq_of_timestamp hn (regular_next hm), fun h => by rw [h]⟩

end Moment

/-! ## spellings -/

def Date.chars (d : Date) : List Char :=
  yearChars d.year ++ '-' :: (padded 2 d.month ++ '-' :: padded 2 d.day)

namespace Moment

def clock (m : Moment) : List Char :=
  padded 2 m.hour ++ ':' :: (padded 2 m.minute ++ ':' :: padded 2 m.second)

def stamp (sep : Char) (m : Moment) : List Char := m.date.chars ++ sep :: m.clock

theorem chars_eq_stamp (m : Moment) : m.chars = m.stamp 'T' := by
  simp only [chars, stamp, Date.chars, clock, List.append_assoc, List.cons_append]

end Moment

/-- how far local time is ahead of universal time, or behind it, in hours and minutes -/
inductive Zone where
  | universal
  | ahead (hours minutes : Nat)
  | behind (hours minutes : Nat)

namespace Zone

def Exists : Zone → Prop
  | universal => True
  | ahead h m | behind h m => h < 24 ∧ m < 60

def chars : Zone → List Char
  | universal => ['Z']
  | ahead h m => '+' :: (padded 2 h ++ ':' :: padded 2 m)
  | behind h m => '-' :: (padded 2 h ++ ':' :: padded 2 m)

def seconds : Zone → Int
  | universal => 0
  | ahead h m => h * 3600 + m * 60
  | behind h m => -(h * 3600 + m * 60)

theorem offset?_chars {z : Zone} (h : z.Exists) : offset? z.chars = some z.seconds := by
  have hnumber : ∀ n : Nat, fixed 2 (padded 2 n) = fixed 2 (padded 2 n ++ []) := fun n => by
    rw [List.append_nil]
  cases z with
  | universal => rfl
  | ahead hours minutes =>
    obtain ⟨hh, hm⟩ := h
    rw [chars, offset?]
    · simp only [fixed_padded (show hours < 100 by omega), expect_cons, hnumber minutes,
        fixed_padded (show minutes < 100 by omega), bind, Option.bind_some]
      rw [if_pos ⟨trivial, hm, hh⟩]
      simp [seconds]
    · exact nofun
    · exact nofun
  | behind hours minutes =>
    obtain ⟨hh, hm⟩ := h
    rw [chars, offset?]
    · simp only [fixed_padded (show hours < 100 by omega), expect_cons, hnumber minutes,
        fixed_padded (show minutes < 100 by omega), bind, Option.bind_some]
      rw [if_pos ⟨trivial, hm, hh⟩]
      simp [seconds]
    · exact nofun
    · exact nofun

end Zone

/-- nothing, or a point with digits behind it -/
def IsFraction (cs : List Char) : Prop :=
  cs = [] ∨ ∃ ds, cs = '.' :: ds ∧ ds ≠ [] ∧ ∀ c ∈ ds, c.isDigit = true

theorem skipFraction_append {fraction : List Char} (h : IsFraction fraction) (z : Zone) :
    skipFraction (fraction ++ z.chars) = some z.chars := by
  have hhead : ∀ c ∈ z.chars.head?, c ≠ '.' ∧ c.isDigit = false := by
    cases z <;> rintro c ⟨⟩ <;> decide
  rcases h with rfl | ⟨ds, rfl, hne, hds⟩
  · rw [List.nil_append, skipFraction]
    rintro cs hcs
    rw [hcs] at hhead
    exact (hhead '.' rfl).1 rfl
  · have hstop : z.chars.takeWhile Char.isDigit = [] ∧
        z.chars.dropWhile Char.isDigit = z.chars := by
      cases z <;> exact ⟨rfl, rfl⟩
    rw [List.cons_append, skipFraction, List.takeWhile_append_of_pos hds,
      List.dropWhile_append_of_pos hds, hstop.1, hstop.2, List.append_nil, if_neg hne]

theorem padded_ne_nil (w n : Nat) : padded w n ≠ [] := fun h =>
  digits_ne_nil n (List.append_eq_nil_iff.1 h).2

theorem trimStart_clock (m : Moment) (rest : List Char) :
    trimStart (m.clock ++ rest) = m.clock ++ rest := by
  refine trimStart_of_head fun c hc => isBlank_of_isDigit ?_
  rw [Moment.clock, List.append_assoc, List.head?_append_of_ne_nil _ (padded_ne_nil 2 _)] at hc
  exact isDigit_of_mem_padded (List.mem_of_mem_head? hc)

/-- four digits for the year, two for everything else -/
structure Moment.Fits (m : Moment) : Prop where
  year : 0 ≤ m.date.year ∧ m.date.year ≤ 9999
  month : m.date.month < 100
  day : m.date.day < 100
  hour : m.hour < 100
  minute : m.minute < 100
  second : m.second < 100

section
variable {m : Moment} (h : m.Fits)
include h

theorem yearChars_eq : yearChars m.date.year = padded 4 m.date.year.toNat := if_pos h.year

theorem fixed_yearChars (rest : List Char) :
    fixed 4 (yearChars m.date.year ++ rest) = some (m.date.year.toNat, rest) := by
  have hlen : (padded 4 m.date.year.toNat).length = 4 :=
    length_padded (by decide) (by have := h.year; omega)
  rw [yearChars_eq h, fixed_append hlen (natural?_padded 4 _)]

theorem looseDate_chars (rest : List Char) :
    looseDate (m.date.chars ++ rest) = some (m.date, rest) := by
  have he : m.date.chars ++ rest = yearChars m.date.year ++
      '-' :: (padded 2 m.date.month ++ '-' :: (padded 2 m.date.day ++ rest)) := by
    simp only [Date.chars, List.append_assoc, List.cons_append]
  rw [he, looseDate_append h.month h.day]

/-- the lenient forms ask for nothing behind the seconds -/
theorem loose?_stamp {want : Option Char} {sep : Char}
    (hsep : (want = some 'T' ∧ sep = 'T') ∨ (want = none ∧ sep = ' ')) (rest : List Char) :
    loose? want (m.stamp sep ++ rest) =
      if rest = [] ∧ m.Exists then some m.timestamp else none := by
  have hclock : ∀ rest, m.clock ++ rest = padded 2 m.hour ++ ':' :: (padded 2 m.minute ++
      ':' :: (padded 2 m.second ++ rest)) := fun rest => by
    simp only [Moment.clock, List.append_assoc, List.cons_append]
  have htrim : trimStart (' ' :: (m.clock ++ rest)) = m.clock ++ rest :=
    (trimStart_cons _ _).trans (trimStart_clock m rest)
  unfold loose?
  rw [Moment.stamp, List.append_assoc, List.cons_append, looseDate_chars h]
  rcases hsep with ⟨rfl, rfl⟩ | ⟨rfl, rfl⟩
  · simp only [bind, Option.bind_some, expect_cons, hclock, looseNumber_padded h.hour,
      looseNumber_padded h.minute, looseNumber_padded h.second]
  · simp only [bind, Option.bind_some, htrim]
    simp only [hclock, expect_cons, Option.bind_some, looseNumber_padded h.hour,
      looseNumber_padded h.minute, looseNumber_padded h.second]

/-- another separator does not do -/
theorem loose?_stamp_ne {want : Option Char} {sep : Char}
    (hsep : (want = some 'T' ∧ sep = ' ') ∨ (want = none ∧ sep = 'T')) (rest : List Char) :
    loose? want (m.stamp sep ++ rest) = none := by
  unfold loose?
  rw [Moment.stamp, List.append_assoc, List.cons_append, looseDate_chars h]
  rcases hsep with ⟨rfl, rfl⟩ | ⟨rfl, rfl⟩ <;> rfl

theorem bareDate?_stamp (sep : Char) (rest : List Char) :
    bareDate? (m.stamp sep ++ rest) = none := by
  unfold bareDate?
  rw [Moment.stamp, List.append_assoc, List.cons_append, looseDate_chars h]
  simp only [bind, Option.bind_some, List.cons_ne_nil, false_and, if_false]

theorem stamped?_stamp {sep : Char} (hsep : sep = 'T' ∨ sep = ' ') (rest : List Char) :
    stamped? (m.stamp sep ++ rest) =
      (skipFraction rest).bind fun cs => (offset? cs).bind fun ahead =>
        if m.Exists then some (m.timestamp - ahead) else none := by
  have hcast : (m.date.year.toNat : Int) = m.date.year := Int.toNat_of_nonneg h.year.1
  have he : m.stamp sep ++ rest = yearChars m.date.year ++ '-' :: (padded 2 m.date.month ++
      '-' :: (padded 2 m.date.day ++ sep :: (padded 2 m.hour ++ ':' :: (padded 2 m.minute ++
        ':' :: (padded 2 m.second ++ rest))))) := by
    simp only [Moment.stamp, Date.chars, Moment.clock, List.append_assoc, List.cons_append]
  have hor : sep = 'T' ∨ sep = 't' ∨ sep = ' ' := hsep.imp id .inr
  rw [he]
  unfold stamped?
  rw [fixed_yearChars h]
  simp only [bind, Option.bind_some, expect_cons, fixed_padded h.month, fixed_padded h.day,
    fixed_padded h.hour, fixed_padded h.minute, fixed_padded h.second, if_pos hor, hcast]

/-! ## what each spelling is read as -/

theorem timestamp?_stamp {sep : Char} (hsep : sep = 'T' ∨ sep = ' ') :
    timestamp? (m.stamp sep) = if m.Exists then some m.timestamp else none := by
  have hnil : m.stamp sep = m.stamp sep ++ [] := (List.append_nil _).symm
  have hstrict : stamped? (m.stamp sep ++ []) = none := by
    rw [stamped?_stamp h hsep]
    rfl
  have hbare := bareDate?_stamp h sep []
  rw [hnil, timestamp?, hstrict, hbare]
  rcases hsep with rfl | rfl
  · rw [loose?_stamp h (.inl ⟨rfl, rfl⟩), loose?_stamp_ne h (.inr ⟨rfl, rfl⟩)]
    simp
  · rw [loose?_stamp_ne h (.inl ⟨rfl, rfl⟩), loose?_stamp h (.inr ⟨rfl, rfl⟩)]
    simp

theorem timestamp?_zoned {fraction : List Char} (hf : IsFraction fraction) {z : Zone}
    (hz : z.Exists) :
    timestamp? (m.stamp 'T' ++ (fraction ++ z.chars)) =
      if m.Exists then some (m.timestamp - z.seconds) else none := by
  have hne : fraction ++ z.chars ≠ [] := by
    refine List.append_ne_nil_of_right_ne_nil _ ?_
    cases z <;> exact List.cons_ne_nil _ _
  rw [timestamp?, stamped?_stamp h (.inl rfl), skipFraction_append hf, Option.bind_some,
    Zone.offset?_chars hz, Option.bind_some, loose?_stamp h (.inl ⟨rfl, rfl⟩),
    loose?_stamp_ne h (.inr ⟨rfl, rfl⟩), bareDate?_stamp h]
  simp [hne]

theorem timestamp?_date :
    timestamp? m.date.chars =
      if (Moment.mk m.date 0 0 0).Exists then some (Moment.mk m.date 0 0 0).timestamp
      else none := by
  have hloose : looseDate m.date.chars = some (m.date, []) := by
    have hd := looseDate_chars h []
    rwa [List.append_nil] at hd
  have hstrict : stamped? m.date.chars = none := by
    have hday : fixed 2 (padded 2 m.date.day) = some (m.date.day, []) := by
      have hd := fixed_padded h.day []
      rwa [List.append_nil] at hd
    unfold stamped?
    rw [Date.chars, fixed_yearChars h]
    simp only [bind, Option.bind_some, expect_cons, fixed_padded h.month, hday, Option.bind_none]
  have hsep : ∀ want, want = some 'T' ∨ want = none → loose? want m.date.chars = none := by
    rintro want (rfl | rfl) <;>
    · unfold loose?
      rw [hloose]
      rfl
  rw [timestamp?, hstrict, hsep _ (.inl rfl), hsep _ (.inr rfl), bareDate?, hloose]
  simp

end

/-- a text without blanks at its ends is read as it stands -/
theorem readTimestamp_eq {cs : List Char} (hfirst : ∀ c ∈ cs.head?, isBlank c = false)
    (hlast : ∀ c ∈ cs.getLast?, isBlank c = false) {P : Prop} [Decidable P] {ts : Int}
    (h : timestamp? cs = if P then some ts else none) :
    readTimestamp (String.ofList cs) =
      if P then .ok ts else .error (.timestamp (String.ofList cs)) := by
  have htrim : trimChars cs = cs := trimChars_of_ends hfirst hlast
  unfold readTimestamp
  simp only [trim, String.toList_ofList, htrim, h]
  by_cases hp : P
  · rw [if_pos hp, if_pos hp]
  · rw [if_neg hp, if_neg hp]

theorem isBlank_of_getLast_padded {front : List Char} (n : Nat) :
    ∀ c ∈ (front ++ padded 2 n).getLast?, isBlank c = false := by
  intro c hc
  rw [List.getLast?_append_of_ne_nil _ (padded_ne_nil 2 n)] at hc
  exact isBlank_of_isDigit (isDigit_of_mem_padded (List.mem_of_mem_getLast? hc))

section
variable {m : Moment} (h : m.Fits)
include h

theorem isBlank_of_head_date (rest : List Char) :
    ∀ c ∈ (m.date.chars ++ rest).head?, isBlank c = false := by
  intro c hc
  rw [Date.chars, yearChars_eq h, List.append_assoc,
    List.head?_append_of_ne_nil _ (padded_ne_nil 4 _)] at hc
  exact isBlank_of_isDigit (isDigit_of_mem_padded (List.mem_of_mem_head? hc))

theorem readTimestamp_stamp {sep : Char} (hsep : sep = 'T' ∨ sep = ' ') :
    readTimestamp (String.ofList (m.stamp sep)) =
      if m.Exists then .ok m.timestamp else .error (.timestamp (String.ofList (m.stamp sep))) := by
  refine readTimestamp_eq (isBlank_of_head_date h (sep :: m.clock)) ?_ (timestamp?_stamp h hsep)
  have he : m.date.chars ++ sep :: m.clock = (m.date.chars ++ sep :: (padded 2 m.hour ++ ':' ::
      (padded 2 m.minute ++ [':']))) ++ padded 2 m.second := by
    simp only [Moment.clock, List.append_assoc, List.cons_append, List.nil_append]
  rw [he]
  exact isBlank_of_getLast_padded _

theorem readTimestamp_zoned {fraction : List Char} (hf : IsFraction fraction) {z : Zone}
    (hz : z.Exists) :
    readTimestamp (String.ofList (m.stamp 'T' ++ (fraction ++ z.chars))) =
      if m.Exists then .ok (m.timestamp - z.seconds)
      else .error (.timestamp (String.ofList (m.stamp 'T' ++ (fraction ++ z.chars)))) := by
  refine readTimestamp_eq ?_ ?_ (timestamp?_zoned h hf hz)
  · rw [Moment.stamp, List.append_assoc]
    exact isBlank_of_head_date h _
  · have hoffset : ∀ (sign : Char) (hours minutes : Nat) (front : List Char),
        ∀ c ∈ (front ++ sign :: (padded 2 hours ++ ':' :: padded 2 minutes)).getLast?,
          isBlank c = false := by
      intro sign hours minutes front
      have he : front ++ sign :: (padded 2 hours ++ ':' :: padded 2 minutes) =
          (front ++ sign :: (padded 2 hours ++ [':'])) ++ padded 2 minutes := by
        simp only [List.append_assoc, List.cons_append, List.nil_append]
      rw [he]
      exact isBlank_of_getLast_padded _
    rw [← List.append_assoc]
    cases z with
    | universal =>
      intro c hc
      rw [Zone.chars, List.getLast?_concat] at hc
      cases hc
      decide
    | ahead hours minutes => exact hoffset '+' hours minutes _
    | behind hours minutes => exact hoffset '-' hours minutes _

theorem readTimestamp_date :
    readTimestamp (String.ofList m.date.chars) =
      if (Moment.mk m.date 0 0 0).Exists then .ok (Moment.mk m.date 0 0 0).timestamp
      else .error (.timestamp (String.ofList m.date.chars)) := by
  refine readTimestamp_eq ?_ ?_ (timestamp?_date h)
  · have hhead := isBlank_of_head_date h []
    rwa [List.append_nil] at hhead
  · have he : m.date.chars = (yearChars m.date.year ++ '-' :: (padded 2 m.date.month ++ ['-'])) ++
        padded 2 m.date.day := by
      simp only [Date.chars, List.append_assoc, List.cons_append, List.nil_append]
    rw [he]
    exact isBlank_of_getLast_padded _

end

namespace Moment

/-- a moment of the years that are written with four digits -/
structure Written (m : Moment) : Prop extends m.Regular where
  year : 0 ≤ m.date.year ∧ m.date.year ≤ 9999

variable {m : Moment}

theorem Written.exists (h : m.Written) : m.Exists := by
  obtain ⟨⟨hdate, hhour, hminute, hsecond⟩, hyear⟩ := h
  exact ⟨hdate, by omega, by omega, hhour, hminute, by omega⟩

theorem Written.fits (h : m.Written) : m.Fits := by
  obtain ⟨h1, h2, h3, h4, h5⟩ := exists_lt h.exists
  exact ⟨h.year, h1, h2, h3, h4, h5⟩

theorem Written.midnight (h : m.Written) : (Moment.mk m.date 0 0 0).Written :=
  ⟨⟨h.date, Nat.zero_lt_succ 23, Nat.zero_lt_succ 59, Nat.zero_lt_succ 59⟩, h.year⟩

end Moment

theorem spellings_agree :
    (∀ m : Moment, m.Written → ∃ ts,
      readTimestamp (String.ofList (m.stamp 'T')) = .ok ts ∧
      readTimestamp (String.ofList (m.stamp ' ')) = .ok ts ∧
      (∀ (fraction : List Char) (z : Zone), IsFraction fraction → z.Exists →
        readTimestamp (String.ofList (m.stamp 'T' ++ (fraction ++ z.chars))) =
          .ok (ts - z.seconds)) ∧
      readTimestamp (String.ofList m.date.chars) =
        readTimestamp (String.ofList ((Moment.mk m.date 0 0 0).stamp 'T')) ∧
      timestampText ts = String.ofList (m.stamp 'T') ∧
      ∀ n : Moment, n.Written → ∃ ts',
        readTimestamp (String.ofList (n.stamp 'T')) = .ok ts' ∧
          (ts < ts' ↔ m.fields < n.fields) ∧ (ts' = ts + 1 ↔ n = m.next)) ∧
    ∀ m : Moment, m.Fits → ¬ m.date.Exists →
      (∀ sep, sep = 'T' ∨ sep = ' ' →
        readTimestamp (String.ofList (m.stamp sep)) =
          .error (.timestamp (String.ofList (m.stamp sep)))) ∧
      (∀ (fraction : List Char) (z : Zone), IsFraction fraction → z.Exists →
        readTimestamp (String.ofList (m.stamp 'T' ++ (fraction ++ z.chars))) =
          .error (.timestamp (String.ofList (m.stamp 'T' ++ (fraction ++ z.chars))))) ∧
      readTimestamp (String.ofList m.date.chars) =
        .error (.timestamp (String.ofList m.date.chars)) := by
  constructor
  · intro m hm
    have hread : ∀ {n : Moment}, n.Written → ∀ {sep}, sep = 'T' ∨ sep = ' ' →
        readTimestamp (String.ofList (n.stamp sep)) = .ok n.timestamp := fun hn _ hsep =>
      (readTimestamp_stamp hn.fits hsep).trans (if_pos hn.exists)
    refine ⟨m.timestamp, hread hm (.inl rfl), hread hm (.inr rfl), fun fraction z hf hz => ?_,
      ?_, ?_, fun n hn => ⟨n.timestamp, hread hn (.inl rfl),
        Moment.timestamp_lt_iff hm.toRegular hn.toRegular,
        Moment.timestamp_eq_succ_iff hm.toRegular hn.toRegular⟩⟩
    · exact (readTimestamp_zoned hm.fits hf hz).trans (if_pos hm.exists)
    · rw [readTimestamp_date hm.fits, if_pos hm.midnight.exists, hread hm.midnight (.inl rfl)]
    · rw [timestampText, if_pos (Moment.timestamp_mem_range hm.exists),
        Moment.ofTimestamp_timestamp hm.toRegular, Moment.chars_eq_stamp]
  · intro m hm hnone
    refine ⟨fun sep hsep => ?_, fun fraction z hf hz => ?_, ?_⟩
    · exact (readTimestamp_stamp hm hsep).trans (if_neg fun he => hnone he.1)
    · exact (readTimestamp_zoned hm hf hz).trans (if_neg fun he => hnone he.1)
    · exact (readTimestamp_date hm).trans (if_neg fun he => hnone he.1)

/-- around the end of a February with and of one without a leap day -/
theorem spellings_agree_leapDay :
    (Moment.mk ⟨2000, 2, 28⟩ 23 59 59).Written ∧ (Moment.mk ⟨2000, 2, 29⟩ 0 0 0).Written ∧
      IsFraction ".5".toList ∧ (Zone.ahead 2 0).Exists ∧
      (∃ ts, readTimestamp "2000-02-28T23:59:59" = .ok ts ∧
        readTimestamp "2000-02-28T23:59:59.5+02:00" = .ok (ts - 7200) ∧
        timestampText ts = "2000-02-28T23:59:59" ∧
        readTimestamp "2000-02-29T00:00:00" = .ok (ts + 1)) ∧
      (Moment.mk ⟨1900, 2, 29⟩ 0 0 0).Fits ∧ ¬ (Date.mk 1900 2 29).Exists ∧
      readTimestamp "1900-02-29" = .error (.timestamp "1900-02-29") := by
  have hlast : (Moment.mk ⟨2000, 2, 28⟩ 23 59 59).Written := ⟨by decide, by decide⟩
  have hleap : (Moment.mk ⟨2000, 2, 29⟩ 0 0 0).Written := ⟨by decide, by decide⟩
  have hfraction : IsFraction ".5".toList := .inr
    ⟨['5'], rfl, List.cons_ne_nil _ _, List.forall_mem_singleton.2 (by decide)⟩
  have hzone : (Zone.ahead 2 0).Exists := ⟨by decide, by decide⟩
  have hfits : (Moment.mk ⟨1900, 2, 29⟩ 0 0 0).Fits := by constructor <;> decide
  have hnone : ¬ (Date.mk 1900 2 29).Exists := by decide
  obtain ⟨ts, hread, -, hzoned, -, htext, hnext⟩ := spellings_agree.1 _ hlast
  obtain ⟨ts', hread', -, hsucc⟩ := hnext _ hleap
  have hrejected := (spellings_agree.2 _ hfits hnone).2.2
  have hstamp : String.ofList ((Moment.mk ⟨2000, 2, 28⟩ 23 59 59).stamp 'T') =
      "2000-02-28T23:59:59" := by decide
  have hstampZoned : String.ofList ((Moment.mk ⟨2000, 2, 28⟩ 23 59 59).stamp 'T' ++
      (".5".toList ++ (Zone.ahead 2 0).chars)) = "2000-02-28T23:59:59.5+02:00" := by decide
  have hstampLeap : String.ofList ((Moment.mk ⟨2000, 2, 29⟩ 0 0 0).stamp 'T') =
      "2000-02-29T00:00:00" := by decide
  have hdate : String.ofList (Moment.mk ⟨1900, 2, 29⟩ 0 0 0).date.chars = "1900-02-29" := by
    decide
  rw [← hstamp, ← hstampZoned, ← hstampLeap, ← hdate]
  refine ⟨hlast, hleap, hfraction, hzone, ⟨ts, hread, ?_, htext, ?_⟩, hfits, hnone, hrejected⟩
  · exact hzoned _ _ hfraction hzone
  · rw [← hsucc.2 (by decide)]
    exact hread'

end Triage.Calendar
