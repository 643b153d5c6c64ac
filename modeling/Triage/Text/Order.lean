/-!
# The order of texts

`lexLe le` is the lexicographic order of lists over an order `le` of their elements; it is total,
transitive and antisymmetric if `le` is (`lexLe_total`, `lexLe_trans`, `lexLe_antisymm`).  Texts
are ordered by their characters, those by their code points:

* `Text.le a b`   one text stands before another or is the same;
* `Text.listLe`   the same for lists of texts.
-/

namespace Triage.Text

def lexLe {α : Type} [DecidableEq α] (le : α → α → Bool) : List α → List α → Bool
  | [], _ => true
  | _ :: _, [] => false
  | a :: as, b :: bs => if a = b then lexLe le as bs else le a b

section
variable {α : Type} [DecidableEq α] {le : α → α → Bool}

theorem lexLe_nil (bs : List α) : lexLe le [] bs = true := by cases bs <;> rfl

theorem lexLe_cons_self (a : α) (as bs : List α) :
    lexLe le (a :: as) (a :: bs) = lexLe le as bs := by simp [lexLe]

theorem lexLe_refl (as : List α) : lexLe le as as = true := by
  induction as with
  | nil => rfl
  | cons a as ih => rw [lexLe_cons_self, ih]

theorem lexLe_total (h : ∀ a b, le a b = true ∨ le b a = true) (as bs : List α) :
    lexLe le as bs = true ∨ lexLe le bs as = true := by
  induction as generalizing bs with
  | nil => exact Or.inl (lexLe_nil bs)
  | cons a as ih =>
    cases bs with
    | nil => exact Or.inr (lexLe_nil _)
    | cons b bs =>
      by_cases hab : a = b
      · subst hab; rw [lexLe_cons_self, lexLe_cons_self]; exact ih bs
      · have hba : ¬ b = a := fun e => hab e.symm
        simp only [lexLe, hab, hba, if_false]
        exact h a b

theorem lexLe_antisymm (h : ∀ a b, le a b = true → le b a = true → a = b) {as bs : List α}
    (hab : lexLe le as bs = true) (hba : lexLe le bs as = true) : as = bs := by
  induction as generalizing bs with
  | nil =>
    cases bs with
    | nil => rfl
    | cons b bs => simp [lexLe] at hba
  | cons a as ih =>
    cases bs with
    | nil => simp [lexLe] at hab
    | cons b bs =>
      by_cases e : a = b
      · subst e
        rw [lexLe_cons_self] at hab hba
        rw [ih hab hba]
      · have e' : ¬ b = a := fun x => e x.symm
        simp only [lexLe, e, e', if_false] at hab hba
        exact absurd (h a b hab hba) e

theorem lexLe_trans (ha : ∀ a b, le a b = true → le b a = true → a = b)
    (ht : ∀ a b c, le a b = true → le b c = true → le a c = true) {as bs cs : List α}
    (hab : lexLe le as bs = true) (hbc : lexLe le bs cs = true) : lexLe le as cs = true := by
  induction as generalizing bs cs with
  | nil => exact lexLe_nil cs
  | cons a as ih =>
    cases bs with
    | nil => simp [lexLe] at hab
    | cons b bs =>
      cases cs with
      | nil => simp [lexLe] at hbc
      | cons c cs =>
        by_cases e : a = b
        · subst e
          rw [lexLe_cons_self] at hab
          by_cases e' : a = c
          · subst e'
            rw [lexLe_cons_self] at hbc ⊢
            exact ih hab hbc
          · simpa [lexLe, e'] using hbc
        · simp only [lexLe, e, if_false] at hab
          by_cases e' : b = c
          · subst e'
            simpa [lexLe, e] using hab
          · simp only [lexLe, e', if_false] at hbc
            by_cases e'' : a = c
            · subst e''
              exact absurd (ha a b hab hbc) e
            · simpa [lexLe, e''] using ht a b c hab hbc

end

/-- characters by their code points -/
def charLe (a b : Char) : Bool := Nat.ble a.toNat b.toNat

def le (a b : String) : Bool := lexLe charLe a.toList b.toList

def listLe (as bs : List String) : Bool := lexLe le as bs

theorem charLe_total (a b : Char) : charLe a b = true ∨ charLe b a = true := by
  simp only [charLe, Nat.ble_eq]; omega

theorem charLe_antisymm (a b : Char) (hab : charLe a b = true) (hba : charLe b a = true) :
    a = b := by
  simp only [charLe, Nat.ble_eq] at hab hba
  exact Char.toNat_inj.1 (Nat.le_antisymm hab hba)

theorem charLe_trans (a b c : Char) (hab : charLe a b = true) (hbc : charLe b c = true) :
    charLe a c = true := by
  simp only [charLe, Nat.ble_eq] at hab hbc ⊢; omega

theorem le_total (a b : String) : le a b = true ∨ le b a = true :=
  lexLe_total charLe_total _ _

theorem le_antisymm (a b : String) (hab : le a b = true) (hba : le b a = true) : a = b :=
  String.toList_inj.1 (lexLe_antisymm charLe_antisymm hab hba)

theorem le_trans (a b c : String) (hab : le a b = true) (hbc : le b c = true) : le a c = true :=
  lexLe_trans charLe_antisymm charLe_trans hab hbc

end Triage.Text
