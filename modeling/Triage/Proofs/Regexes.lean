import Mathlib.Data.List.Basic
import Triage.Text.Cut

/-!
# Regular expressions with a preferred match

A search that backtracks tries the alternatives of an expression in order and repeats as often as it
can; the first way to match that it meets is the one it reports.

* `Regex.ways`        all ways to match the front of a text, the preferred first;
* `Regex.capture?`    what the group takes in the preferred match of a whole text;
* `Regex.Reads`       an expression can match a text, with this in its group, in whatever order the
                      alternatives are tried;
* `mem_ways_iff`      the ways that are tried are these and no others;
* `capture?_iff`      so where all readings of a text agree on the group, the order does not matter;
* `reads_many`        a repetition reads what is put together from pieces.
-/

namespace Triage.Text

/-- The first of two alternatives is preferred, and of repetitions the longest. -/
inductive Regex where
  | one (p : Char → Bool)
  | word (w : List Char)
  | seq (a b : Regex)
  | or (a b : Regex)
  | many (a : Regex)
  | group (a : Regex)

/-- the front of a text that is matched, what the group took last, and what is left -/
structure Match where
  front : List Char
  group : Option (List Char)
  rest : List Char
deriving DecidableEq, Repr

/-- a match, and another one behind it -/
def Match.before (m n : Match) : Match := ⟨m.front ++ n.front, n.group.or m.group, n.rest⟩

namespace Regex

/-- at most so many rounds, each of which has to take something; more of them are preferred -/
def rounds (step : List Char → List Match) : Nat → List Char → List Match
  | 0, s => [⟨[], none, s⟩]
  | n + 1, s =>
    ((step s).filter (·.front != [])).flatMap (fun m => (rounds step n m.rest).map m.before) ++
      [⟨[], none, s⟩]

/-- all ways to match the front of a text, the preferred first -/
def ways : Regex → List Char → List Match
  | one _, [] => []
  | one p, c :: cs => if p c then [⟨[c], none, cs⟩] else []
  | word w, s => (after? w s).toList.map (⟨w, none, ·⟩)
  | seq a b, s => (ways a s).flatMap fun m => (ways b m.rest).map m.before
  | or a b, s => ways a s ++ ways b s
  | many a, s => rounds (ways a) s.length s
  | group a, s => (ways a s).map fun m => { m with group := some m.front }

/-- what the group takes in the preferred match of the whole text -/
def capture? (r : Regex) (text : String) : Option String :=
  ((r.ways text.toList).find? (·.rest == [])).bind fun m => m.group.map String.ofList

/-- one round or more -/
def plus (a : Regex) : Regex := seq a (many a)

/-- once, or not at all -/
def optional (a : Regex) : Regex := or a (word [])

/-- one of the words; of two that match, the first -/
def oneOf : List (List Char) → Regex
  | [] => one fun _ => false
  | w :: ws => or (word w) (oneOf ws)

/-- The expression can match the text, with this in its group. -/
inductive Reads : Regex → List Char → Option (List Char) → Prop
  | one {p : Char → Bool} {c : Char} (h : p c = true) : Reads (one p) [c] none
  | word (w : List Char) : Reads (word w) w none
  | seq {a b : Regex} {s t : List Char} {g h : Option (List Char)} (first : Reads a s g)
      (second : Reads b t h) : Reads (seq a b) (s ++ t) (h.or g)
  | left {a b : Regex} {s : List Char} {g : Option (List Char)} (h : Reads a s g) :
      Reads (or a b) s g
  | right {a b : Regex} {s : List Char} {g : Option (List Char)} (h : Reads b s g) :
      Reads (or a b) s g
  | done {a : Regex} : Reads (many a) [] none
  | more {a : Regex} {s t : List Char} {g h : Option (List Char)} (taken : s ≠ [])
      (first : Reads a s g) (others : Reads (many a) t h) : Reads (many a) (s ++ t) (h.or g)
  | group {a : Regex} {s : List Char} {g : Option (List Char)} (h : Reads a s g) :
      Reads (group a) s (some s)

theorem mem_rounds_iff {a : Regex} (hstep : ∀ (s : List Char) (m : Match),
    m ∈ a.ways s ↔ a.Reads m.front m.group ∧ s = m.front ++ m.rest) :
    ∀ (n : Nat) (s : List Char) (m : Match), s.length ≤ n →
      (m ∈ rounds a.ways n s ↔ (many a).Reads m.front m.group ∧ s = m.front ++ m.rest) := by
  intro n
  induction n with
  | zero =>
    intro s m hs
    cases List.length_eq_zero_iff.1 (Nat.le_zero.1 hs)
    rw [rounds, List.mem_singleton]
    constructor
    · rintro rfl
      exact ⟨.done, rfl⟩
    · rintro ⟨h, hm⟩
      obtain ⟨front, group, rest⟩ := m
      obtain ⟨rfl, rfl⟩ := List.append_eq_nil_iff.1 hm.symm
      generalize hfront : ([] : List Char) = front at h
      cases h with
      | done => rfl
      | more taken => exact absurd (List.append_eq_nil_iff.1 hfront.symm).1 taken
  | succ n ih =>
    intro s m hs
    rw [rounds, List.mem_append, List.mem_singleton]
    simp only [List.mem_flatMap, List.mem_filter, List.mem_map, bne_iff_ne]
    constructor
    · rintro (⟨m₁, ⟨hm₁, htaken⟩, m₂, hm₂, rfl⟩ | rfl)
      · obtain ⟨hread, rfl⟩ := (hstep s m₁).1 hm₁
        have hshort : m₁.rest.length ≤ n := by
          have := List.length_pos_iff.2 htaken
          rw [List.length_append] at hs
          omega
        obtain ⟨hothers, hrest⟩ := (ih _ m₂ hshort).1 hm₂
        refine ⟨.more htaken hread hothers, ?_⟩
        rw [hrest, ← List.append_assoc]
        rfl
      · exact ⟨.done, rfl⟩
    · rintro ⟨h, hm⟩
      obtain ⟨front, group, rest⟩ := m
      dsimp only at h hm
      cases h with
      | done =>
        cases hm
        exact .inr rfl
      | @more _ s t g h taken first others =>
        subst hm
        have hshort : (t ++ rest).length ≤ n := by
          have := List.length_pos_iff.2 taken
          simp only [List.length_append] at hs ⊢
          omega
        refine .inl ⟨⟨s, g, t ++ rest⟩, ⟨(hstep _ _).2 ⟨first, List.append_assoc ..⟩, taken⟩,
          ⟨t, h, rest⟩, (ih _ _ hshort).2 ⟨others, rfl⟩, rfl⟩

/-- the ways that are tried are the readings of fronts -/
theorem mem_ways_iff {r : Regex} : ∀ {s : List Char} {m : Match},
    m ∈ r.ways s ↔ r.Reads m.front m.group ∧ s = m.front ++ m.rest := by
  induction r with
  | one p =>
    intro s m
    obtain ⟨front, group, rest⟩ := m
    constructor
    · intro h
      cases s with
      | nil => cases h
      | cons c cs =>
        rw [ways] at h
        split at h
        · next hc =>
          cases List.mem_singleton.1 h
          exact ⟨.one hc, rfl⟩
        · cases h
    · rintro ⟨h, rfl⟩
      dsimp only at h
      cases h with
      | one hc =>
        rw [List.singleton_append, ways, if_pos hc]
        exact List.mem_singleton_self _
  | word w =>
    intro s m
    obtain ⟨front, group, rest⟩ := m
    simp only [ways, List.mem_map, Option.mem_toList, after?_eq_some, Match.mk.injEq]
    constructor
    · rintro ⟨rest, rfl, rfl, rfl, rfl⟩
      exact ⟨.word w, rfl⟩
    · rintro ⟨h, rfl⟩
      cases h
      exact ⟨rest, rfl, rfl, rfl, rfl⟩
  | seq a b iha ihb =>
    intro s m
    simp only [ways, List.mem_flatMap, List.mem_map, iha, ihb]
    constructor
    · rintro ⟨m₁, ⟨hfirst, rfl⟩, m₂, ⟨hsecond, hrest⟩, rfl⟩
      refine ⟨.seq hfirst hsecond, ?_⟩
      rw [hrest, ← List.append_assoc]
      rfl
    · rintro ⟨h, rfl⟩
      obtain ⟨front, group, rest⟩ := m
      dsimp only at h
      cases h with
      | @seq _ _ s t g h first second =>
        exact ⟨⟨s, g, t ++ rest⟩, ⟨first, List.append_assoc ..⟩, ⟨t, h, rest⟩, ⟨second, rfl⟩, rfl⟩
  | or a b iha ihb =>
    intro s m
    rw [ways, List.mem_append, iha, ihb, ← or_and_right]
    refine and_congr_left fun _ => ⟨fun h => h.elim .left .right, fun h => ?_⟩
    cases h with
    | left h => exact .inl h
    | right h => exact .inr h
  | many a ih => exact fun {s m} => mem_rounds_iff (fun _ _ => ih) s.length s m (Nat.le_refl _)
  | group a ih =>
    intro s m
    simp only [ways, List.mem_map, ih]
    constructor
    · rintro ⟨m', ⟨h, rfl⟩, rfl⟩
      exact ⟨.group h, rfl⟩
    · rintro ⟨h, rfl⟩
      obtain ⟨front, group, rest⟩ := m
      dsimp only at h
      cases h with
      | @group _ _ g h => exact ⟨⟨front, g, rest⟩, ⟨h, rfl⟩, rfl⟩

/-- where all readings agree on the group, the preferred one has what they have -/
theorem capture?_iff {r : Regex} {text : String}
    (h : ∀ g g', r.Reads text.toList g → r.Reads text.toList g' → g = g') (s : String) :
    r.capture? text = some s ↔ r.Reads text.toList (some s.toList) := by
  have hwhole : ∀ m : Match, m ∈ r.ways text.toList → (m.rest == []) = true →
      r.Reads text.toList m.group := fun m hm hrest => by
    obtain ⟨hread, htext⟩ := mem_ways_iff.1 hm
    rw [htext, beq_iff_eq.1 hrest, List.append_nil]
    exact hread
  rw [capture?]
  cases hfind : (r.ways text.toList).find? (·.rest == []) with
  | none =>
    refine ⟨nofun, fun hread => ?_⟩
    have hm : (⟨text.toList, some s.toList, []⟩ : Match) ∈ r.ways text.toList :=
      mem_ways_iff.2 ⟨hread, (List.append_nil _).symm⟩
    exact absurd (beq_self_eq_true _) (List.find?_eq_none.1 hfind _ hm)
  | some m =>
    have hm := hwhole m (List.mem_of_find?_eq_some hfind)
      (List.find?_some (p := fun m : Match => m.rest == []) hfind)
    rw [Option.bind_some]
    constructor
    · intro hg
      obtain ⟨cs, hcs, rfl⟩ := Option.map_eq_some_iff.1 hg
      rw [hcs] at hm
      rwa [String.toList_ofList]
    · intro hread
      rw [h _ _ hm hread, Option.map_some, String.ofList_toList]

/-! ## what the expressions read -/

theorem reads_or {a b : Regex} {s : List Char} {g : Option (List Char)} :
    (or a b).Reads s g ↔ a.Reads s g ∨ b.Reads s g := by
  constructor
  · intro h
    cases h with
    | left h => exact .inl h
    | right h => exact .inr h
  · rintro (h | h)
    · exact .left h
    · exact .right h

theorem reads_word {w s : List Char} {g : Option (List Char)} :
    (word w).Reads s g ↔ s = w ∧ g = none := by
  constructor
  · intro h
    cases h
    exact ⟨rfl, rfl⟩
  · rintro ⟨rfl, rfl⟩
    exact .word s

theorem reads_one {p : Char → Bool} {s : List Char} {g : Option (List Char)} :
    (one p).Reads s g ↔ (∃ c, p c = true ∧ s = [c]) ∧ g = none := by
  constructor
  · intro h
    cases h with
    | one hc => exact ⟨⟨_, hc, rfl⟩, rfl⟩
  · rintro ⟨⟨c, hc, rfl⟩, rfl⟩
    exact .one hc

theorem reads_oneOf {ws : List (List Char)} {s : List Char} {g : Option (List Char)} :
    (oneOf ws).Reads s g ↔ s ∈ ws ∧ g = none := by
  induction ws with
  | nil => simp [oneOf, reads_one]
  | cons w ws ih => rw [oneOf, reads_or, reads_word, ih, List.mem_cons, or_and_right]

theorem reads_optional {a : Regex} {s : List Char} {g : Option (List Char)} :
    (optional a).Reads s g ↔ a.Reads s g ∨ s = [] ∧ g = none := by
  rw [optional, reads_or, reads_word]

theorem reads_group {a : Regex} {s : List Char} {g : Option (List Char)} :
    (group a).Reads s g ↔ (∃ g', a.Reads s g') ∧ g = some s := by
  constructor
  · intro h
    cases h with
    | group h => exact ⟨⟨_, h⟩, rfl⟩
  · rintro ⟨⟨g', h⟩, rfl⟩
    exact .group h

theorem reads_seq {a b : Regex} {s : List Char} {g : Option (List Char)} :
    (seq a b).Reads s g ↔
      ∃ t u h h', a.Reads t h ∧ b.Reads u h' ∧ s = t ++ u ∧ g = h'.or h := by
  constructor
  · intro h
    cases h with
    | seq first second => exact ⟨_, _, _, _, first, second, rfl, rfl⟩
  · rintro ⟨t, u, h, h', first, second, rfl, rfl⟩
    exact .seq first second

/-- A repetition reads the texts that are put together from pieces, one for each round. -/
theorem reads_many {a : Regex} {α : Type} {P : α → Prop} {f : α → List Char}
    (ha : ∀ s g, a.Reads s g ↔ (∃ x, P x ∧ s = f x) ∧ g = none) (hne : ∀ x, f x ≠ [])
    {s : List Char} {g : Option (List Char)} :
    (many a).Reads s g ↔ (∃ xs : List α, (∀ x ∈ xs, P x) ∧ s = xs.flatMap f) ∧ g = none := by
  constructor
  · intro h
    generalize hr : many a = r at h
    induction h with
    | done => exact ⟨⟨[], nofun, rfl⟩, rfl⟩
    | @more _ s t g h _ first _ _ ih =>
      cases hr
      obtain ⟨⟨x, hx, rfl⟩, rfl⟩ := (ha s g).1 first
      obtain ⟨⟨xs, hxs, rfl⟩, rfl⟩ := ih rfl
      exact ⟨⟨x :: xs, List.forall_mem_cons.2 ⟨hx, hxs⟩, rfl⟩, rfl⟩
    | _ => cases hr
  · rintro ⟨⟨xs, hxs, rfl⟩, rfl⟩
    induction xs with
    | nil => exact .done
    | cons x xs ih =>
      obtain ⟨hx, hothers⟩ := List.forall_mem_cons.1 hxs
      exact .more (hne x) ((ha (f x) none).2 ⟨⟨x, hx, rfl⟩, rfl⟩) (ih hothers)

/-- one character of a class or more -/
theorem reads_plus_one {p : Char → Bool} {s : List Char} {g : Option (List Char)} :
    (plus (one p)).Reads s g ↔ (s ≠ [] ∧ s.all p = true) ∧ g = none := by
  have hmany : ∀ (s : List Char) (g : Option (List Char)),
      (many (one p)).Reads s g ↔ s.all p = true ∧ g = none := fun s g => by
    rw [reads_many (fun _ _ => reads_one) fun c => List.cons_ne_nil c []]
    simp only [List.flatMap_singleton', exists_eq_right', List.all_eq_true]
  rw [plus, reads_seq]
  simp only [reads_one, hmany]
  constructor
  · rintro ⟨_, u, _, _, ⟨⟨c, hc, rfl⟩, rfl⟩, ⟨hu, rfl⟩, rfl, rfl⟩
    exact ⟨⟨List.cons_ne_nil c u, by simp [hc, hu]⟩, rfl⟩
  · rintro ⟨⟨hs, hall⟩, rfl⟩
    obtain ⟨c, cs, rfl⟩ := List.exists_cons_of_ne_nil hs
    rw [List.all_cons, Bool.and_eq_true] at hall
    exact ⟨[c], cs, none, none, ⟨⟨c, hall.1, rfl⟩, rfl⟩, ⟨hall.2, rfl⟩, rfl, rfl⟩

end Regex

end Triage.Text
