import Triage.Proofs.Trees

/-!
# Values read back from their compact text

Nothing stands between the tokens of a compact text.  That is enough, since behind a number there is
never another number or a word, but a comma or a bracket.

* `Value.Packs v`    wherever a value may stand, its compact text is cut into its tokens
                     (`packs_of_plain`);
* `term_compact`     so the compact text of a plain value has the tree of the value.
-/

namespace Triage.Json.Value

/-- the text of tokens without any space -/
def packed (ts : List Token) : List Char := ts.flatMap Token.chars

theorem packed_cons (t : Token) (ts : List Token) : packed (t :: ts) = t.chars ++ packed ts :=
  List.flatMap_cons

theorem packed_append (ts us : List Token) : packed (ts ++ us) = packed ts ++ packed us :=
  List.flatMap_append

/-- in front of what cannot continue a number, the packed tokens of the value are cut -/
def Packs (v : Value) : Prop :=
  ∀ {rest : List Char} {more : List Token}, Ends rest → Lexed rest more →
    Lexed (packed v.tokens ++ rest) (v.tokens ++ more)

theorem ends_moreItems (vs : List Value) (cs : List Char) : Ends (packed (moreItems vs) ++ cs) := by
  cases vs with
  | nil => exact ends_cons (by decide) _
  | cons v vs => exact ends_cons (by decide) _

theorem ends_moreFields (fields : List (String × Value)) (cs : List Char) :
    Ends (packed (moreFields fields) ++ cs) := by
  cases fields with
  | nil => exact ends_cons (by decide) _
  | cons e fields => exact ends_cons (by decide) _

section
variable {rest : List Char} {more : List Token} (h : Lexed rest more)
include h

theorem lexed_moreItems {vs : List Value} (hv : ∀ v ∈ vs, v.Packs) :
    Lexed (packed (moreItems vs) ++ rest) (moreItems vs ++ more) := by
  induction vs with
  | nil => exact Lexed.token (by decide) rfl (Nat.le_refl _) h
  | cons v vs ih =>
    have hrest := ih fun w hw => hv w (List.mem_cons_of_mem _ hw)
    have hvalue := hv v List.mem_cons_self (ends_moreItems vs rest) hrest
    rw [moreItems, packed_cons, packed_append, List.append_assoc, List.append_assoc,
      List.cons_append, List.append_assoc]
    exact Lexed.token (by decide) rfl (Nat.le_refl _) hvalue

theorem lexed_packedField (key : String) {v : Value} (hv : v.Packs) (he : Ends rest) :
    Lexed ((Token.ofText key.toList).chars ++ ':' :: (packed v.tokens ++ rest))
      (.ofText key.toList :: .colon :: (v.tokens ++ more)) :=
  Lexed.text _ (Lexed.token (by decide) rfl (Nat.le_refl _) (hv he h))

theorem lexed_moreFields {fields : List (String × Value)} (hv : ∀ e ∈ fields, e.2.Packs) :
    Lexed (packed (moreFields fields) ++ rest) (moreFields fields ++ more) := by
  induction fields with
  | nil => exact Lexed.token (by decide) rfl (Nat.le_refl _) h
  | cons e fields ih =>
    obtain ⟨key, v⟩ := e
    have hrest := ih fun e he => hv e (List.mem_cons_of_mem _ he)
    have hfield := lexed_packedField hrest key (hv (key, v) List.mem_cons_self)
      (ends_moreFields fields rest)
    rw [moreFields]
    simp only [packed_cons, packed_append, List.cons_append, List.append_assoc]
    exact Lexed.token (by decide) rfl (Nat.le_refl _) hfield

end

theorem packs_of_plain {d : Nat} {v : Value} (h : Plain d v) : v.Packs := by
  have hone : ∀ t : Token, packed [t] = t.chars := fun t => by
    rw [packed_cons]
    exact List.append_nil _
  induction h with
  | null d =>
    intro rest more _ hrest
    exact Lexed.token (by decide) rfl (List.suffix_append _ _).length_le hrest
  | bool d b =>
    intro rest more _ hrest
    cases b
    · exact Lexed.token (by decide) rfl (List.suffix_append _ _).length_le hrest
    · exact Lexed.token (by decide) rfl (List.suffix_append _ _).length_le hrest
  | @int d n lo hi =>
    intro rest more he hrest
    rw [tokens, hone]
    exact hrest.int n he
  | text d s =>
    intro rest more _ hrest
    rw [tokens, hone]
    exact hrest.text _
  | @list d items _ ih =>
    intro rest more _ hrest
    cases items with
    | nil =>
      have hclose := Lexed.token (c := ']') (by decide) rfl (Nat.le_refl _) hrest
      exact Lexed.token (by decide) rfl (Nat.le_refl _) hclose
    | cons v vs =>
      have hmore := lexed_moreItems hrest fun w hw => ih w (List.mem_cons_of_mem _ hw)
      have hvalue := ih v List.mem_cons_self (ends_moreItems vs rest) hmore
      rw [tokens, itemTokens]
      simp only [packed_cons, packed_append, List.cons_append, List.append_assoc]
      exact Lexed.token (by decide) rfl (Nat.le_refl _) hvalue
  | @record d fields _ _ ih =>
    intro rest more _ hrest
    cases fields with
    | nil =>
      have hclose := Lexed.token (c := '}') (by decide) rfl (Nat.le_refl _) hrest
      exact Lexed.token (by decide) rfl (Nat.le_refl _) hclose
    | cons e fields =>
      obtain ⟨key, v⟩ := e
      have hmore := lexed_moreFields hrest fun e he => ih e (List.mem_cons_of_mem _ he)
      have hfield := lexed_packedField hmore key (ih (key, v) List.mem_cons_self)
        (ends_moreFields fields rest)
      rw [tokens, fieldTokens]
      simp only [packed_cons, packed_append, List.cons_append, List.append_assoc]
      exact Lexed.token (by decide) rfl (Nat.le_refl _) hfield

theorem lex_compact {d : Nat} {v : Value} (h : Plain d v) :
    lex v.compact.toList = some v.tokens := by
  have hnil : Ends [] := fun c hc => by cases hc
  have hl := (packs_of_plain h hnil lexed_nil).lex
  rw [List.append_nil, List.append_nil] at hl
  rw [compact, String.toList_ofList]
  exact hl

theorem term_compact {d : Nat} {v : Value} (h : Plain d v) :
    Term.parse? v.compact = some (.ofValue v) := by
  rw [Term.parse?, lex_compact h, Option.bind_some, ofTokens?_tokens h]

end Triage.Json.Value
