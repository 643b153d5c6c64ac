/-!
# Cutting a text at a separator

* `after? p s`     what follows `p` at the front of `s` (`after?_eq_some`);
* `cut? p s`       both sides of the first place where `p` stands in `s` (`append_of_cut?`);
* `cutLast? c s`   both sides of the last place where the character `c` stands;
* `before? p s`    what precedes `p` at the end of `s`.

All pieces of a text between single separators are `List.splitOn`.
-/

namespace Triage.Text

def after? : List Char → List Char → Option (List Char)
  | [], s => some s
  | _ :: _, [] => none
  | p :: ps, c :: cs => if p = c then after? ps cs else none

theorem after?_nil (s : List Char) : after? [] s = some s := by cases s <;> rfl

theorem after?_eq_some {p s r : List Char} : after? p s = some r ↔ s = p ++ r := by
  induction p generalizing s with
  | nil => simp [after?_nil]
  | cons x ps ih =>
    cases s with
    | nil => simp [after?]
    | cons c cs =>
      by_cases h : x = c
      · subst h; simp [after?, ih]
      · simp [after?, h, Ne.symm h]

theorem after?_append (p r : List Char) : after? p (p ++ r) = some r := after?_eq_some.2 rfl

/-- what precedes `p` at the end -/
def before? (p s : List Char) : Option (List Char) :=
  (after? p.reverse s.reverse).map List.reverse

theorem before?_eq_some {p s r : List Char} : before? p s = some r ↔ s = r ++ p := by
  simp only [before?, Option.map_eq_some_iff, after?_eq_some]
  constructor
  · rintro ⟨a, h, rfl⟩
    have := congrArg List.reverse h
    simpa using this
  · rintro rfl
    exact ⟨r.reverse, by simp, by simp⟩

def cut? (p : List Char) : List Char → Option (List Char × List Char)
  | [] => if p = [] then some ([], []) else none
  | c :: cs =>
    match after? p (c :: cs) with
    | some rest => some ([], rest)
    | none => (cut? p cs).map fun (a, b) => (c :: a, b)

theorem append_of_cut? {p s a b : List Char} (h : cut? p s = some (a, b)) : s = a ++ p ++ b := by
  induction s generalizing a with
  | nil =>
    simp only [cut?] at h
    split at h
    · rename_i hp
      simp only [Option.some.injEq, Prod.mk.injEq] at h
      rw [← h.1, ← h.2, hp]; rfl
    · cases h
  | cons c cs ih =>
    simp only [cut?] at h
    split at h
    · rename_i rest hr
      simp only [Option.some.injEq, Prod.mk.injEq] at h
      simpa [← h.1, ← h.2] using after?_eq_some.1 hr
    · simp only [Option.map_eq_some_iff, Prod.mk.injEq, Prod.exists] at h
      obtain ⟨a', b', h', rfl, rfl⟩ := h
      simp [ih h']

/-- both sides of the last `c` -/
def cutLast? (c : Char) (s : List Char) : Option (List Char × List Char) :=
  (cut? [c] s.reverse).map fun (a, b) => (b.reverse, a.reverse)

/-- the text as lines -/
def lines (s : List Char) : List (List Char) := s.splitOn '\n'

end Triage.Text
