import Mathlib.Algebra.Group.Nat.Defs
import Triage.Calendar.Interval
import Triage.Proofs.Days
import Triage.Proofs.Histories

/-!
# Timestamps and intervals read back

* `natural?_padded`            a padded number reads back;
* `looseYear_yearChars`, `looseNumber_padded`   the parts of a date read back;
* `timestamp?_chars`           a moment that exists reads back from its text;
* `timestamp?_mem_range`       every text that reads as a timestamp gives one of the calendar;
* `readTimestamp_timestampText`   so what was read once reads back from its text;
* `Interval.parse_encode`      and so does an interval whose sides were read.
-/

namespace Triage

namespace Text

/-! ## padded numbers -/

theorem natural?_padded (w n : Nat) : natural? (padded w n) = some n := by
  have hne : padded w n ≠ [] := by
    intro h
    exact digits_ne_nil n (List.append_eq_nil_iff.1 h).2
  have hall : (padded w n).all Char.isDigit = true := by
    rw [padded, List.all_append, Bool.and_eq_true]
    refine ⟨List.all_eq_true.2 fun c hc => ?_, all_isDigit_digits n⟩
    rw [List.eq_of_mem_replicate hc]
    decide
  rw [natural?, if_pos ⟨hne, hall⟩, padded, Nat.ofDigitChars_append, Nat.ofDigitChars_replicate_zero,
    Nat.mul_zero, digits, Nat.ofDigitChars_ten_toDigits]

theorem isDigit_of_mem_padded {w n : Nat} {c : Char} (h : c ∈ padded w n) : c.isDigit = true := by
  rcases List.mem_append.1 h with h | h
  · rw [List.eq_of_mem_replicate h]
    decide
  · exact List.all_eq_true.1 (all_isDigit_digits n) c h

theorem length_padded {w n : Nat} (hw : 0 < w) (h : n < 10 ^ w) : (padded w n).length = w := by
  have hle : (digits n).length ≤ w := (Nat.length_toDigits_le_iff (by decide) hw).2 h
  rw [padded, List.length_append, List.length_replicate]
  omega

theorem isBlank_of_isDigit {c : Char} (h : c.isDigit = true) : isBlank c = false := by
  rw [Char.isDigit, Bool.and_eq_true, decide_eq_true_eq, decide_eq_true_eq] at h
  have h1 : 48 ≤ c.toNat := UInt32.le_iff_toNat_le.1 h.1
  have h2 : c.toNat ≤ 57 := UInt32.le_iff_toNat_le.1 h.2
  unfold isBlank
  generalize c.toNat = n at h1 h2
  simp only [Bool.or_eq_false_iff, Bool.and_eq_false_iff, decide_eq_false_iff_not,
    beq_eq_false_iff_ne]
  omega

theorem trimStart_digit {c : Char} (h : c.isDigit = true) (cs : List Char) :
    trimStart (c :: cs) = c :: cs := by
  rw [trimStart_cons, isBlank_of_isDigit h]
  rfl

end Text

namespace Calendar

open Text

/-! ## parts of a date -/

theorem fixed_append {k n : Nat} {ds : List Char} (hlen : ds.length = k)
    (hn : natural? ds = some n) (rest : List Char) : fixed k (ds ++ rest) = some (n, rest) := by
  subst hlen
  rw [fixed, List.take_left, if_pos rfl, hn, List.drop_left]
  rfl

theorem upTo_append {k n : Nat} {ds rest : List Char} (hds : ∀ c ∈ ds, c.isDigit = true)
    (hlen : ds.length ≤ k) (hstop : ds.length = k ∨ ∀ c ∈ rest.head?, c.isDigit = false)
    (hn : natural? ds = some n) : upTo k (ds ++ rest) = some (n, rest) := by
  have hrest : ((rest.take (k - ds.length)).takeWhile Char.isDigit) = [] := by
    rcases hstop with h | h
    · rw [h, Nat.sub_self]
      rfl
    · cases rest with
      | nil => rw [List.take_nil]; rfl
      | cons c rest =>
        cases hj : k - ds.length with
        | zero => rfl
        | succ j =>
          rw [List.take_succ_cons, List.takeWhile_cons, h c rfl]
          rfl
  have htake : ((ds ++ rest).take k).takeWhile Char.isDigit = ds := by
    rw [List.take_append, List.take_of_length_le hlen, List.takeWhile_append_of_pos hds, hrest,
      List.append_nil]
  rw [upTo, htake, hn, List.drop_left]
  rfl

theorem expect_cons (c : Char) (cs : List Char) : expect c (c :: cs) = some cs := if_pos rfl

theorem looseNumber_padded {n : Nat} (h : n < 100) (rest : List Char) :
    looseNumber (padded 2 n ++ rest) = some (n, rest) := by
  have hlen : (padded 2 n).length = 2 := length_padded (by decide) h
  have htrim : trimStart (padded 2 n ++ rest) = padded 2 n ++ rest := by
    refine trimStart_of_head fun c hc => ?_
    cases hp : padded 2 n with
    | nil => rw [hp] at hlen; cases hlen
    | cons d ds =>
      rw [hp] at hc
      cases hc
      exact isBlank_of_isDigit (isDigit_of_mem_padded (hp ▸ List.mem_cons_self))
  rw [looseNumber, htrim]
  exact upTo_append (fun c hc => isDigit_of_mem_padded hc) (Nat.le_of_eq hlen) (.inl hlen)
    (natural?_padded 2 n)

theorem isDigit_of_head_minus (rest : List Char) :
    ∀ c ∈ ('-' :: rest).head?, c.isDigit = false := by
  intro c hc
  cases hc
  decide

/-- behind a sign, any number of digits -/
theorem upTo_padded (n : Nat) (rest : List Char) :
    upTo (padded 4 n ++ '-' :: rest).length (padded 4 n ++ '-' :: rest) = some (n, '-' :: rest) :=
  upTo_append (fun _ hc => isDigit_of_mem_padded hc) (by rw [List.length_append]; omega)
    (.inr (isDigit_of_head_minus rest)) (natural?_padded 4 n)

theorem looseYear_minus (n : Nat) (rest : List Char) :
    looseYear ('-' :: (padded 4 n ++ '-' :: rest)) = some (-(n : Int), '-' :: rest) := by
  have hblank : trimStart ('-' :: (padded 4 n ++ '-' :: rest)) =
      '-' :: (padded 4 n ++ '-' :: rest) := rfl
  rw [looseYear, hblank]
  show Option.map _ (upTo _ _) = _
  rw [upTo_padded]
  rfl

theorem looseYear_plus (n : Nat) (rest : List Char) :
    looseYear ('+' :: (padded 4 n ++ '-' :: rest)) = some ((n : Int), '-' :: rest) := by
  have hblank : trimStart ('+' :: (padded 4 n ++ '-' :: rest)) =
      '+' :: (padded 4 n ++ '-' :: rest) := rfl
  rw [looseYear, hblank]
  show Option.map _ (upTo _ _) = _
  rw [upTo_padded]
  rfl

theorem looseYear_padded {n : Nat} (h : n < 10000) (rest : List Char) :
    looseYear (padded 4 n ++ '-' :: rest) = some ((n : Int), '-' :: rest) := by
  have hlen : (padded 4 n).length = 4 := length_padded (by decide) h
  have hupto : upTo 4 (padded 4 n ++ '-' :: rest) = some (n, '-' :: rest) :=
    upTo_append (fun c hc => isDigit_of_mem_padded hc) (Nat.le_of_eq hlen) (.inl hlen)
      (natural?_padded 4 n)
  rw [looseYear]
  cases hp : padded 4 n with
  | nil => rw [hp] at hlen; cases hlen
  | cons d ds =>
    have hd : d.isDigit = true := isDigit_of_mem_padded (hp ▸ List.mem_cons_self)
    rw [hp] at hupto
    rw [List.cons_append, trimStart_digit hd]
    split
    · next e => rw [(List.cons.inj e).1] at hd; exact absurd hd (by decide)
    · next e => rw [(List.cons.inj e).1] at hd; exact absurd hd (by decide)
    · rw [← List.cons_append, hupto]
      rfl

theorem looseYear_yearChars (y : Int) (rest : List Char) :
    looseYear (yearChars y ++ '-' :: rest) = some (y, '-' :: rest) := by
  unfold yearChars
  by_cases h : 0 ≤ y ∧ y ≤ 9999
  · have e : (y.toNat : Int) = y := Int.toNat_of_nonneg h.1
    rw [if_pos h, looseYear_padded (by omega), e]
  · rw [if_neg h]
    by_cases hneg : y < 0
    · have e : -(y.natAbs : Int) = y := by omega
      rw [if_pos hneg, List.cons_append, looseYear_minus, e]
    · have e : (y.natAbs : Int) = y := by omega
      rw [if_neg hneg, List.cons_append, looseYear_plus, e]

/-! ## whole texts -/

theorem chars_eq (m : Moment) :
    m.chars = yearChars m.date.year ++ '-' :: (padded 2 m.date.month ++ '-' ::
      (padded 2 m.date.day ++ 'T' :: (padded 2 m.hour ++ ':' ::
        (padded 2 m.minute ++ ':' :: (padded 2 m.second ++ []))))) := by
  simp only [Moment.chars, List.append_assoc, List.cons_append, List.append_nil]

theorem looseDate_append {d : Date} (hm : d.month < 100) (hd : d.day < 100) (rest : List Char) :
    looseDate (yearChars d.year ++ '-' :: (padded 2 d.month ++ '-' :: (padded 2 d.day ++ rest))) =
      some (d, rest) := by
  unfold looseDate
  rw [looseYear_yearChars]
  simp only [bind, Option.bind_some, expect_cons, looseNumber_padded hm, looseNumber_padded hd]

theorem exists_lt {m : Moment} (h : m.Exists) :
    m.date.month < 100 ∧ m.date.day < 100 ∧ m.hour < 100 ∧ m.minute < 100 ∧ m.second < 100 := by
  obtain ⟨⟨-, h1, -, h2⟩, -, -, h3, h4, h5⟩ := h
  have h31 : daysInMonth m.date.year m.date.month ≤ 31 := by
    unfold daysInMonth
    split
    · split <;> omega
    · split <;> omega
  omega

theorem loose?_chars {m : Moment} (h : m.Exists) :
    loose? (some 'T') m.chars = some m.timestamp := by
  obtain ⟨h1, h2, h3, h4, h5⟩ := exists_lt h
  rw [chars_eq]
  unfold loose?
  rw [looseDate_append h1 h2]
  simp only [bind, Option.bind_some, expect_cons, looseNumber_padded h3, looseNumber_padded h4,
    looseNumber_padded h5]
  exact if_pos ⟨trivial, h⟩

theorem fixed_padded {n : Nat} (h : n < 100) (rest : List Char) :
    fixed 2 (padded 2 n ++ rest) = some (n, rest) :=
  fixed_append (length_padded (by decide) h) (natural?_padded 2 n) rest

/-- a year with a sign has no four digits in front -/
theorem fixed_signed {c : Char} (hc : c.isDigit = false) (n : Nat) (rest : List Char) :
    fixed 4 (c :: (padded 4 n ++ rest)) = none := by
  have hn : natural? ((c :: (padded 4 n ++ rest)).take 4) = none := by
    rw [List.take_succ_cons, natural?, if_neg]
    rintro ⟨-, hall⟩
    rw [List.all_cons, hc] at hall
    cases hall
  rw [fixed, hn]
  split <;> rfl

/-- the strict form asks for an offset -/
theorem stamped?_chars {m : Moment} (h : m.Exists) : stamped? m.chars = none := by
  obtain ⟨h1, h2, h3, h4, h5⟩ := exists_lt h
  rw [chars_eq]
  unfold stamped? yearChars
  by_cases hy : 0 ≤ m.date.year ∧ m.date.year ≤ 9999
  · have hlen : (padded 4 m.date.year.toNat).length = 4 := length_padded (by decide) (by omega)
    rw [if_pos hy, fixed_append hlen (natural?_padded 4 _)]
    simp only [bind, Option.bind_some, expect_cons, fixed_padded h1, fixed_padded h2,
      fixed_padded h3, fixed_padded h4, fixed_padded h5, true_or, if_true]
    rfl
  · rw [if_neg hy, List.cons_append]
    split
    · rw [fixed_signed (by decide)]
      rfl
    · rw [fixed_signed (by decide)]
      rfl

theorem timestamp?_chars {m : Moment} (h : m.Exists) : timestamp? m.chars = some m.timestamp := by
  rw [timestamp?, stamped?_chars h, loose?_chars h]
  rfl

/-! ## what can be read -/

theorem of_ite_eq_some {α : Type} {c : Prop} [Decidable c] {a b : α}
    (h : (if c then some a else none) = some b) : c ∧ a = b := by
  split at h
  · next hc => exact ⟨hc, Option.some.inj h⟩
  · cases h

theorem ofDigitChars_lt (cs : List Char) : ∀ n : Nat, cs.all Char.isDigit = true →
    Nat.ofDigitChars 10 cs n < 10 ^ cs.length * (n + 1) := by
  induction cs with
  | nil => intro n _; rw [Nat.ofDigitChars_nil]; simp
  | cons c cs ih =>
    intro n h
    rw [List.all_cons, Bool.and_eq_true] at h
    obtain ⟨hc, hcs⟩ := h
    rw [Char.isDigit, Bool.and_eq_true, decide_eq_true_eq, decide_eq_true_eq] at hc
    have h9 : c.toNat ≤ 57 := UInt32.le_iff_toNat_le.1 hc.2
    have hzero : '0'.toNat = 48 := rfl
    rw [Nat.ofDigitChars_cons, hzero, List.length_cons]
    have hstep : 10 * n + (c.toNat - 48) + 1 ≤ 10 * (n + 1) := by omega
    calc Nat.ofDigitChars 10 cs (10 * n + (c.toNat - 48))
        < 10 ^ cs.length * (10 * n + (c.toNat - 48) + 1) := ih _ hcs
      _ ≤ 10 ^ cs.length * (10 * (n + 1)) := Nat.mul_le_mul_left _ hstep
      _ = 10 ^ (cs.length + 1) * (n + 1) := by rw [Nat.pow_succ, Nat.mul_assoc]

theorem fixed_lt {k n : Nat} {cs rest : List Char} (h : fixed k cs = some (n, rest)) :
    n < 10 ^ k := by
  unfold fixed at h
  split at h
  · next hlen =>
    obtain ⟨m, hm, he⟩ := Option.map_eq_some_iff.1 h
    cases he
    unfold natural? at hm
    obtain ⟨⟨-, hall⟩, rfl⟩ := of_ite_eq_some hm
    have hlt := ofDigitChars_lt (cs.take k) 0 hall
    rw [hlen] at hlt
    simpa using hlt
  · cases h

theorem offset?_bound {cs : List Char} {ahead : Int} (h : offset? cs = some ahead) :
    -86400 < ahead ∧ ahead < 86400 := by
  unfold offset? at h
  split at h
  · cases h
    decide
  · cases h
    decide
  · obtain ⟨⟨hours, cs₁⟩, -, h⟩ := Option.bind_eq_some_iff.1 h
    obtain ⟨cs₂, -, h⟩ := Option.bind_eq_some_iff.1 h
    obtain ⟨⟨minutes, cs₃⟩, -, h⟩ := Option.bind_eq_some_iff.1 h
    dsimp only at h
    split at h
    · next hlt =>
      split at h
      · cases h
        omega
      · split at h
        · cases h
          omega
        · cases h
    · cases h
  · cases h

theorem stamped?_mem_range {cs : List Char} {ts : Int} (h : stamped? cs = some ts) :
    earliest ≤ ts ∧ ts ≤ latest := by
  unfold stamped? at h
  obtain ⟨⟨year, cs₁⟩, hyear, h⟩ := Option.bind_eq_some_iff.1 h
  obtain ⟨cs₂, -, h⟩ := Option.bind_eq_some_iff.1 h
  obtain ⟨⟨month, cs₃⟩, -, h⟩ := Option.bind_eq_some_iff.1 h
  obtain ⟨cs₄, -, h⟩ := Option.bind_eq_some_iff.1 h
  obtain ⟨⟨day, cs₅⟩, -, h⟩ := Option.bind_eq_some_iff.1 h
  -- the separator
  dsimp only at h
  split at h
  swap
  · cases h
  split at h
  swap
  · cases h
  obtain ⟨cs₆, -, h⟩ := Option.bind_eq_some_iff.1 h
  obtain ⟨⟨hour, cs₇⟩, -, h⟩ := Option.bind_eq_some_iff.1 h
  obtain ⟨cs₈, -, h⟩ := Option.bind_eq_some_iff.1 h
  obtain ⟨⟨minute, cs₉⟩, -, h⟩ := Option.bind_eq_some_iff.1 h
  obtain ⟨cs₁₀, -, h⟩ := Option.bind_eq_some_iff.1 h
  obtain ⟨⟨second, cs₁₁⟩, -, h⟩ := Option.bind_eq_some_iff.1 h
  obtain ⟨cs₁₂, -, h⟩ := Option.bind_eq_some_iff.1 h
  obtain ⟨ahead, ha, h⟩ := Option.bind_eq_some_iff.1 h
  obtain ⟨hm, rfl⟩ := of_ite_eq_some h
  have hy : year < 10000 := fixed_lt hyear
  have hoff := offset?_bound ha
  -- four digits leave room for the offset on both sides
  have hday := Moment.timestamp_day ⟨⟨year, month, day⟩, hour, minute, second⟩
    ⟨hm.2.2.2.1, hm.2.2.2.2.1⟩
  have hb := Date.dayNumber_bounds hm.1
  dsimp only at hday hb ⊢
  have h1 := yearStart_mono (show (-1 : Int) ≤ (year : Int) - 1 by omega)
  have h2 := yearStart_mono (show (year : Int) ≤ 9999 by omega)
  have e1 : yearStart (-1) = -366 := by decide
  have e2 : yearStart 9999 = 3652059 := by decide
  unfold earliest latest
  unfold Date.epoch at hb
  omega

theorem loose?_mem_range {sep : Option Char} {cs : List Char} {ts : Int}
    (h : loose? sep cs = some ts) : earliest ≤ ts ∧ ts ≤ latest := by
  unfold loose? at h
  obtain ⟨⟨date, cs₁⟩, -, h⟩ := Option.bind_eq_some_iff.1 h
  dsimp only at h
  split at h <;>
  · obtain ⟨cs₂, -, h⟩ := Option.bind_eq_some_iff.1 h
    obtain ⟨⟨hour, cs₃⟩, -, h⟩ := Option.bind_eq_some_iff.1 h
    obtain ⟨cs₄, -, h⟩ := Option.bind_eq_some_iff.1 h
    obtain ⟨⟨minute, cs₅⟩, -, h⟩ := Option.bind_eq_some_iff.1 h
    obtain ⟨cs₆, -, h⟩ := Option.bind_eq_some_iff.1 h
    obtain ⟨⟨second, cs₇⟩, -, h⟩ := Option.bind_eq_some_iff.1 h
    obtain ⟨⟨-, hm⟩, rfl⟩ := of_ite_eq_some h
    exact Moment.timestamp_mem_range hm

theorem bareDate?_mem_range {cs : List Char} {ts : Int} (h : bareDate? cs = some ts) :
    earliest ≤ ts ∧ ts ≤ latest := by
  unfold bareDate? at h
  obtain ⟨⟨date, cs₁⟩, -, h⟩ := Option.bind_eq_some_iff.1 h
  obtain ⟨⟨-, hm⟩, rfl⟩ := of_ite_eq_some h
  exact Moment.timestamp_mem_range hm

theorem timestamp?_mem_range {cs : List Char} {ts : Int} (h : timestamp? cs = some ts) :
    earliest ≤ ts ∧ ts ≤ latest := by
  unfold timestamp? at h
  rcases Option.or_eq_some_iff.1 h with h | ⟨-, h⟩
  · exact stamped?_mem_range h
  rcases Option.or_eq_some_iff.1 h with h | ⟨-, h⟩
  · exact loose?_mem_range h
  rcases Option.or_eq_some_iff.1 h with h | ⟨-, h⟩
  · exact loose?_mem_range h
  · exact bareDate?_mem_range h

/-! ## reading back -/

theorem readTimestamp_mem_range {raw : String} {ts : Int} (h : readTimestamp raw = .ok ts) :
    earliest ≤ ts ∧ ts ≤ latest := by
  unfold readTimestamp at h
  dsimp only at h
  split at h
  · next t ht =>
    cases h
    exact timestamp?_mem_range ht
  · cases h

/-- what the text of a moment is made of -/
def isStamp (c : Char) : Bool := c.isDigit || c == '-' || c == '+' || c == ':' || c == 'T'

theorem isStamp_of_mem_chars {m : Moment} {c : Char} (h : c ∈ m.chars) : isStamp c = true := by
  have hdigit : ∀ {w n : Nat}, c ∈ padded w n → isStamp c = true := fun hc => by
    rw [isStamp, isDigit_of_mem_padded hc]
    rfl
  have hyear : c ∈ yearChars m.date.year → isStamp c = true := by
    intro hc
    unfold yearChars at hc
    split at hc
    · exact hdigit hc
    · rcases List.mem_cons.1 hc with rfl | hc
      · split <;> decide
      · exact hdigit hc
  rw [chars_eq] at h
  simp only [List.mem_append, List.mem_cons, List.not_mem_nil, or_false] at h
  rcases h with h | rfl | h | rfl | h | rfl | h | rfl | h | rfl | h
  · exact hyear h
  · decide
  · exact hdigit h
  · decide
  · exact hdigit h
  · decide
  · exact hdigit h
  · decide
  · exact hdigit h
  · decide
  · exact hdigit h

theorem isBlank_of_isStamp {c : Char} (h : isStamp c = true) : isBlank c = false := by
  simp only [isStamp, Bool.or_eq_true, beq_iff_eq] at h
  rcases h with (((h | rfl) | rfl) | rfl) | rfl
  · exact isBlank_of_isDigit h
  · decide
  · decide
  · decide
  · decide

theorem ne_dot_of_isStamp {c : Char} (h : isStamp c = true) : c ≠ '.' := by
  rintro rfl
  exact absurd h (by decide)

theorem toList_timestampText {ts : Int} (h : earliest ≤ ts ∧ ts ≤ latest) :
    (timestampText ts).toList = (Moment.ofTimestamp ts).chars := by
  rw [timestampText, if_pos h, String.toList_ofList]

theorem chars_ne_nil (m : Moment) : m.chars ≠ [] := by
  rw [chars_eq]
  exact List.append_ne_nil_of_right_ne_nil _ (List.cons_ne_nil _ _)

/-- a timestamp of the calendar reads back from its text -/
theorem readTimestamp_timestampText {ts : Int} (h : earliest ≤ ts ∧ ts ≤ latest) :
    readTimestamp (timestampText ts) = .ok ts := by
  have htrim : trimChars (Moment.ofTimestamp ts).chars = (Moment.ofTimestamp ts).chars :=
    trimChars_of_notBlank fun c hc => isBlank_of_isStamp (isStamp_of_mem_chars hc)
  unfold readTimestamp
  simp only [trim, toList_timestampText h, htrim, String.toList_ofList]
  rw [timestamp?_chars (Moment.exists_ofTimestamp h), Moment.timestamp_ofTimestamp]

end Calendar

namespace Calendar.Interval

open Text

/-! ## intervals -/

/-- both sides are of the calendar, as those that have been read are -/
def InCalendar (i : Interval) : Prop :=
  (∀ ts ∈ i.after, earliest ≤ ts ∧ ts ≤ latest) ∧ ∀ ts ∈ i.before, earliest ≤ ts ∧ ts ≤ latest

theorem side_mem_range {cs : List Char} {s : Option Int} (h : side cs = .ok s) :
    ∀ ts ∈ s, earliest ≤ ts ∧ ts ≤ latest := by
  intro ts hts
  unfold side at h
  split at h
  · cases h
    cases hts
  · cases hr : readTimestamp (String.ofList cs) with
    | error e => rw [hr] at h; cases h
    | ok t =>
      rw [hr] at h
      cases h
      cases hts
      exact readTimestamp_mem_range hr

theorem parse_eq_ok {raw : String} {i : Interval} (h : parse raw = .ok i) :
    i.InCalendar ∧ i.isReversed = false := by
  unfold parse at h
  split at h
  · cases h
  · next a b _ =>
    cases ha : side a with
    | error e => simp only [ha, bind, Except.bind] at h; cases h
    | ok x =>
      cases hb : side b with
      | error e => simp only [ha, hb, bind, Except.bind] at h; cases h
      | ok y =>
        simp only [ha, hb, bind, Except.bind] at h
        split at h
        · cases h
        · next hr =>
          cases h
          exact ⟨⟨side_mem_range ha, side_mem_range hb⟩, by simpa using hr⟩

theorem side_encodeSide {s : Option Int} (h : ∀ ts ∈ s, earliest ≤ ts ∧ ts ≤ latest) :
    side (encodeSide s).toList = .ok s := by
  cases s with
  | none => rfl
  | some ts =>
    have hts := h ts rfl
    have htext : (encodeSide (some ts)).toList = (Moment.ofTimestamp ts).chars :=
      toList_timestampText hts
    have htrim : trimChars (Moment.ofTimestamp ts).chars = (Moment.ofTimestamp ts).chars :=
      trimChars_of_notBlank fun c hc => isBlank_of_isStamp (isStamp_of_mem_chars hc)
    rw [htext, side, htrim, if_neg (chars_ne_nil _), ← toList_timestampText hts,
      String.ofList_toList, readTimestamp_timestampText hts]
    rfl

theorem isStamp_of_mem_encodeSide {s : Option Int} (h : ∀ ts ∈ s, earliest ≤ ts ∧ ts ≤ latest)
    {c : Char} (hc : c ∈ (encodeSide s).toList) : isStamp c = true := by
  cases s with
  | none => cases hc
  | some ts =>
    have htext : (encodeSide (some ts)).toList = (Moment.ofTimestamp ts).chars :=
      toList_timestampText (h ts rfl)
    rw [htext] at hc
    exact isStamp_of_mem_chars hc

theorem toList_encode (i : Interval) :
    i.encode.toList = (encodeSide i.after).toList ++ '.' :: '.' :: (encodeSide i.before).toList := by
  rw [encode, String.toList_append, String.toList_append, List.append_assoc]
  rfl

/-- an interval that was read reads back from its text -/
theorem parse_encode {i : Interval} (h : i.InCalendar) (hr : i.isReversed = false) :
    parse i.encode = .ok i := by
  have hdot : '.' ∉ (encodeSide i.after).toList := fun hm =>
    ne_dot_of_isStamp (isStamp_of_mem_encodeSide h.1 hm) rfl
  unfold parse
  rw [toList_encode, cut?_pair hdot]
  simp only [side_encodeSide h.1, side_encodeSide h.2, bind, Except.bind]
  rw [if_neg (by simpa using hr)]
  rfl

theorem isTrimmed_encode {i : Interval} (h : i.InCalendar) : IsTrimmed i.encode := by
  constructor
  · intro he
    have hl := congrArg String.toList he
    rw [toList_encode] at hl
    exact List.append_ne_nil_of_right_ne_nil _ (List.cons_ne_nil _ _) hl
  · refine trimChars_of_notBlank fun c hc => ?_
    rw [toList_encode] at hc
    simp only [List.mem_append, List.mem_cons] at hc
    rcases hc with hc | rfl | rfl | hc
    · exact isBlank_of_isStamp (isStamp_of_mem_encodeSide h.1 hc)
    · decide
    · decide
    · exact isBlank_of_isStamp (isStamp_of_mem_encodeSide h.2 hc)

end Calendar.Interval
end Triage
