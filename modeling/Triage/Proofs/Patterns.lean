import Mathlib.Data.List.Infix
import Triage.Glob

/-!
# What a wildcard pattern covers

The search takes every part where it stands first.  That loses nothing: what lies behind an earlier
place ends in what lies behind a later one, and a gap may be as long as it likes.

* `Glob.Spread parts t`   `t` is the parts in this order, each behind a gap, the last one at the end;
                          `Glob.gaps` decides this (`gaps_iff`);
* `accepts_iff_eq`        a text without a wildcard covers itself only;
* `accepts_self`          every text, read as a pattern, covers itself: a wildcard covers a `*`;
* `Glob.IsSplit p first parts`   the pieces of a pattern between its wildcards, which it determines;
* `accepts_iff_filled`    a pattern covers the texts that fill its gaps, and no others;
* `accepts_iff_infix`     between two wildcards a plain text covers all that contain it.
-/

namespace Triage

namespace Text

/-- a text that stands somewhere is found there or before -/
theorem exists_cut? (p a b : List Char) :
    ∃ front back, cut? p (a ++ p ++ b) = some (front, back) ∧ b <:+ back := by
  induction a with
  | nil =>
    cases hs : p ++ b with
    | nil =>
      obtain ⟨rfl, rfl⟩ := List.append_eq_nil_iff.1 hs
      exact ⟨[], [], rfl, List.suffix_refl _⟩
    | cons c cs =>
      have hafter : after? p (c :: cs) = some b := hs ▸ after?_append p b
      refine ⟨[], b, ?_, List.suffix_refl _⟩
      rw [List.nil_append, hs, cut?, hafter]
  | cons c a ih =>
    show ∃ front back, cut? p (c :: (a ++ p ++ b)) = some (front, back) ∧ b <:+ back
    rw [cut?]
    cases hafter : after? p (c :: (a ++ p ++ b)) with
    | none =>
      obtain ⟨front, back, h, hsuffix⟩ := ih
      rw [h]
      exact ⟨c :: front, back, rfl, hsuffix⟩
    | some rest =>
      -- an earlier place: what follows it is longer, and both stand at the end
      have hwhole : c :: (a ++ p ++ b) = p ++ rest := after?_eq_some.1 hafter
      have hlen : b.length ≤ rest.length := by
        have := congrArg List.length hwhole
        simp only [List.length_cons, List.length_append] at this
        omega
      have hb : b <:+ c :: (a ++ p ++ b) := ⟨c :: (a ++ p), rfl⟩
      have hrest : rest <:+ c :: (a ++ p ++ b) := ⟨p, hwhole.symm⟩
      exact ⟨[], rest, rfl, List.suffix_of_suffix_length_le hb hrest hlen⟩

end Text

namespace Glob

/-- the parts in this order, each behind a gap of any length, the last one at the end -/
inductive Spread : List (List Char) → List Char → Prop
  | last (gap part : List Char) : Spread [part] (gap ++ part)
  | cons (gap part : List Char) {parts : List (List Char)} {rest : List Char}
      (h : Spread parts rest) : Spread (part :: parts) (gap ++ part ++ rest)

/-- the first gap can be longer -/
theorem Spread.prepend {parts : List (List Char)} {t : List Char} (h : Spread parts t)
    (x : List Char) : Spread parts (x ++ t) := by
  cases h with
  | last gap part =>
    rw [← List.append_assoc]
    exact .last _ part
  | cons gap part h =>
    rw [← List.append_assoc, ← List.append_assoc]
    exact .cons _ part h

theorem Spread.of_suffix {parts : List (List Char)} {t u : List Char} (h : Spread parts t)
    (hs : t <:+ u) : Spread parts u := by
  obtain ⟨x, rfl⟩ := hs
  exact h.prepend x

theorem gaps_iff (part : List Char) (parts : List (List Char)) :
    ∀ t, gaps (part :: parts) t = true ↔ Spread (part :: parts) t := by
  induction parts generalizing part with
  | nil =>
    intro t
    rw [gaps_singleton, List.isSuffixOf_iff_suffix]
    constructor
    · rintro ⟨gap, rfl⟩
      exact .last gap part
    · intro h
      cases h with
      | last gap _ => exact ⟨gap, rfl⟩
      | cons gap _ h => cases h
  | cons next parts ih =>
    intro t
    rw [gaps_cons_cons]
    constructor
    · intro h
      split at h
      · cases h
      · next front rest hcut =>
        rw [Text.append_of_cut? hcut]
        exact .cons front part ((ih next rest).1 h)
    · intro h
      cases h with
      | cons gap _ h =>
        obtain ⟨front, back, hcut, hsuffix⟩ := Text.exists_cut? part gap _
        rw [hcut]
        exact (ih next back).2 (h.of_suffix hsuffix)

/-! ## patterns and themselves -/

theorem acceptsParts_singleton (only t : List Char) : acceptsParts t [only] = (only == t) := rfl

theorem acceptsParts_cons_cons (first part : List Char) (parts : List (List Char))
    (t : List Char) : acceptsParts t (first :: part :: parts) = true ↔
      ∃ rest, t = first ++ rest ∧ Spread (part :: parts) rest := by
  simp only [acceptsParts]
  constructor
  · intro h
    split at h
    · cases h
    · next rest hafter => exact ⟨rest, Text.after?_eq_some.1 hafter, (gaps_iff _ _ _).1 h⟩
  · rintro ⟨rest, rfl, h⟩
    rw [Text.after?_append]
    exact (gaps_iff _ _ _).2 h

theorem accepts_iff_eq {p : String} (h : '*' ∉ p.toList) (t : String) :
    accepts p t = true ↔ p = t := by
  rw [accepts, acceptsChars, List.splitOn_eq_singleton h, acceptsParts_singleton, beq_iff_eq,
    String.toList_inj]

/-- parts with a wildcard between any two, behind a wildcard -/
theorem spread_intercalate (part : List Char) (parts : List (List Char)) :
    Spread (part :: parts) ('*' :: ['*'].intercalate (part :: parts)) := by
  induction parts generalizing part with
  | nil =>
    rw [List.intercalate_singleton]
    exact .last ['*'] part
  | cons next parts ih =>
    rw [List.intercalate_cons_cons, List.append_assoc]
    exact .cons ['*'] part (ih next)

/-- every gap can hold a wildcard -/
theorem accepts_self (p : String) : accepts p p = true := by
  have hp : ['*'].intercalate (p.toList.splitOn '*') = p.toList := List.intercalate_splitOn '*'
  rw [accepts, acceptsChars]
  cases hparts : p.toList.splitOn '*' with
  | nil => exact absurd hparts (List.splitOn_ne_nil _ _)
  | cons first parts =>
    rw [hparts] at hp
    cases parts with
    | nil =>
      rw [List.intercalate_singleton] at hp
      rw [acceptsParts_singleton, hp, beq_self_eq_true]
    | cons next parts =>
      rw [List.intercalate_cons_cons, List.append_assoc] at hp
      exact (acceptsParts_cons_cons _ _ _ _).2 ⟨_, hp.symm, spread_intercalate next parts⟩

/-! ## the language of a pattern -/

/-- the pieces of a pattern: what stands in front of the first wildcard, and what follows each -/
structure IsSplit (p first : List Char) (parts : List (List Char)) : Prop where
  pattern : p = first ++ parts.flatMap ('*' :: ·)
  plain : ∀ part ∈ first :: parts, '*' ∉ part

/-- the parts, each behind a gap of its own -/
def filled (gaps parts : List (List Char)) : List Char := (List.zipWith (· ++ ·) gaps parts).flatten

theorem filled_cons (gap part : List Char) (gaps parts : List (List Char)) :
    filled (gap :: gaps) (part :: parts) = gap ++ part ++ filled gaps parts := by
  rw [filled, List.zipWith_cons_cons, List.flatten_cons]
  rfl

theorem exists_isSplit (p : List Char) : ∃ first parts, IsSplit p first parts := by
  induction p with
  | nil => exact ⟨[], [], rfl, by simp⟩
  | cons c p ih =>
    obtain ⟨first, parts, rfl, hplain⟩ := ih
    by_cases hc : c = '*'
    · subst hc
      refine ⟨[], first :: parts, rfl, fun part hpart => ?_⟩
      rcases List.mem_cons.1 hpart with rfl | hpart
      · exact List.not_mem_nil
      · exact hplain part hpart
    · refine ⟨c :: first, parts, rfl, fun part hpart => ?_⟩
      rcases List.mem_cons.1 hpart with rfl | hpart
      · exact mt List.mem_cons.1 (not_or.2 ⟨Ne.symm hc, hplain first List.mem_cons_self⟩)
      · exact hplain part (List.mem_cons_of_mem _ hpart)

theorem intercalate_eq_append (first : List Char) (parts : List (List Char)) :
    ['*'].intercalate (first :: parts) = first ++ parts.flatMap ('*' :: ·) := by
  induction parts generalizing first with
  | nil => rw [List.intercalate_singleton, List.flatMap_nil, List.append_nil]
  | cons part parts ih =>
    rw [List.intercalate_cons_cons, ih, List.flatMap_cons, List.append_assoc]
    rfl

theorem count_flatMap_cons {parts : List (List Char)} (h : ∀ part ∈ parts, '*' ∉ part) :
    (parts.flatMap ('*' :: ·)).count '*' = parts.length := by
  induction parts with
  | nil => rfl
  | cons part parts ih =>
    have hpart : part.count '*' = 0 := List.count_eq_zero.2 (h part List.mem_cons_self)
    have hrest := ih fun other hother => h other (List.mem_cons_of_mem _ hother)
    rw [List.flatMap_cons, List.count_append, List.count_cons_self, hpart, hrest, List.length_cons]
    omega

namespace IsSplit

variable {p first : List Char} {parts : List (List Char)}

/-- a pattern has only one split, the one that the search goes by -/
theorem splitOn_eq (h : IsSplit p first parts) : p.splitOn '*' = first :: parts := by
  rw [h.pattern, ← intercalate_eq_append]
  exact List.splitOn_intercalate '*' h.plain (List.cons_ne_nil _ _)

/-- and one part more than it has wildcards -/
theorem length_eq (h : IsSplit p first parts) : parts.length = p.count '*' := by
  have hfirst : first.count '*' = 0 := List.count_eq_zero.2 (h.plain first List.mem_cons_self)
  have hparts : ∀ part ∈ parts, '*' ∉ part := fun part hpart =>
    h.plain part (List.mem_cons_of_mem _ hpart)
  rw [h.pattern, List.count_append, hfirst, Nat.zero_add, count_flatMap_cons hparts]

end IsSplit

/-- what is spread over a text has a text in each gap -/
theorem spread_iff_filled (part : List Char) (parts : List (List Char)) :
    ∀ t, Spread (part :: parts) t ↔
      ∃ gaps : List (List Char), gaps.length = (part :: parts).length ∧
        t = filled gaps (part :: parts) := by
  induction parts generalizing part with
  | nil =>
    intro t
    constructor
    · intro h
      cases h with
      | last gap _ => exact ⟨[gap], rfl, by rw [filled_cons]; exact (List.append_nil _).symm⟩
      | cons gap _ h => cases h
    · rintro ⟨gaps, hlen, rfl⟩
      obtain ⟨gap, rfl⟩ := List.length_eq_one_iff.1 hlen
      rw [filled_cons]
      exact (List.append_nil (gap ++ part)).symm ▸ .last gap part
  | cons next parts ih =>
    intro t
    constructor
    · intro h
      cases h with
      | cons gap _ h =>
        obtain ⟨gaps, hlen, rfl⟩ := (ih next _).1 h
        exact ⟨gap :: gaps, congrArg Nat.succ hlen, (filled_cons ..).symm⟩
    · rintro ⟨gaps, hlen, rfl⟩
      cases gaps with
      | nil => cases hlen
      | cons gap gaps =>
        rw [filled_cons]
        exact .cons gap part ((ih next _).2 ⟨gaps, Nat.succ.inj hlen, rfl⟩)

theorem acceptsParts_iff_filled (first : List Char) (parts : List (List Char)) (t : List Char) :
    acceptsParts t (first :: parts) = true ↔
      ∃ gaps : List (List Char), gaps.length = parts.length ∧ t = first ++ filled gaps parts := by
  cases parts with
  | nil =>
    rw [acceptsParts_singleton, beq_iff_eq]
    constructor
    · rintro rfl
      exact ⟨[], rfl, (List.append_nil first).symm⟩
    · rintro ⟨gaps, hlen, rfl⟩
      rw [List.length_eq_zero_iff.1 hlen]
      exact (List.append_nil first).symm
  | cons part parts =>
    rw [acceptsParts_cons_cons]
    constructor
    · rintro ⟨rest, rfl, h⟩
      obtain ⟨gaps, hlen, rfl⟩ := (spread_iff_filled part parts rest).1 h
      exact ⟨gaps, hlen, rfl⟩
    · rintro ⟨gaps, hlen, rfl⟩
      exact ⟨_, rfl, (spread_iff_filled part parts _).2 ⟨gaps, hlen, rfl⟩⟩

/-- What a pattern covers: it falls into one part more than it has wildcards, in one way only, and it
covers a text if and only if the text is these parts in their order with something, be it nothing, in
place of every wildcard. -/
theorem accepts_iff_filled (p t : String) :
    ∃ first parts, IsSplit p.toList first parts ∧
      (∀ first' parts', IsSplit p.toList first' parts' → first' = first ∧ parts' = parts) ∧
      parts.length = p.toList.count '*' ∧
      (accepts p t = true ↔ ∃ gaps : List (List Char), gaps.length = parts.length ∧
        t.toList = first ++ filled gaps parts) := by
  obtain ⟨first, parts, h⟩ := exists_isSplit p.toList
  refine ⟨first, parts, h, fun first' parts' h' => ?_, h.length_eq, ?_⟩
  · have hsame : first' :: parts' = first :: parts := h'.splitOn_eq.symm.trans h.splitOn_eq
    exact List.cons.inj hsame
  · rw [accepts, acceptsChars, h.splitOn_eq]
    exact acceptsParts_iff_filled first parts t.toList

/-- front and back may not overlap -/
example : accepts "ab*ba" "aba" = false := by decide

/-- between two wildcards a plain text covers exactly the texts that contain it -/
theorem accepts_iff_infix {q : String} (h : '*' ∉ q.toList) (t : String) :
    accepts ("*" ++ q ++ "*") t = true ↔ q.toList <:+: t.toList := by
  have hsplit : IsSplit ("*" ++ q ++ "*").toList [] [q.toList, []] := by
    refine ⟨by simp, fun part hpart => ?_⟩
    simp only [List.mem_cons, List.not_mem_nil, or_false] at hpart
    rcases hpart with rfl | rfl | rfl
    · exact List.not_mem_nil
    · exact h
    · exact List.not_mem_nil
  rw [accepts, acceptsChars, hsplit.splitOn_eq, acceptsParts_iff_filled]
  constructor
  · rintro ⟨gaps, hlen, ht⟩
    obtain ⟨front, back, rfl⟩ := List.length_eq_two.1 hlen
    exact ⟨front, back, by rw [ht]; simp [filled]⟩
  · rintro ⟨front, back, ht⟩
    exact ⟨[front, back], rfl, by rw [← ht]; simp [filled]⟩

end Glob

end Triage
