import Mathlib.Data.Char
import Mathlib.Data.List.Basic
import Triage.Json.Printer

/-!
# Tokens read back from their text

* `Ends cs`            a text that does not go on with a number;
* `Lexed cs ts`        a text is cut into these tokens, with room for as many as it has characters;
* `Lexed.space`, `Lexed.token`   a space, and a token, in front of such a text;
* `lexText_pieces`     the characters of a string read back, `lexNumber_ofInt` a whole number does;
* `Value.Plain d v`    a value without doubles that nests at most `d` deep and repeats no name;
* `lex_pretty`         the printed text of such a value is cut into the tokens of the value.
-/

namespace Triage.Json

/-! ## cutting a text -/

/-- the text does not go on with a number -/
def Ends (cs : List Char) : Prop :=
  ∀ c ∈ cs.head?, c.isDigit = false ∧ c ≠ '.' ∧ c ≠ 'e' ∧ c ≠ 'E'

theorem ends_cons {c : Char} (h : c.isDigit = false ∧ c ≠ '.' ∧ c ≠ 'e' ∧ c ≠ 'E')
    (cs : List Char) : Ends (c :: cs) := fun _ hd => by cases hd; exact h

/-- cut into these tokens, with any room for at least as many tokens as there are characters -/
def Lexed (cs : List Char) (ts : List Token) : Prop :=
  ∀ fuel, cs.length ≤ fuel → lexFrom fuel cs = some ts

theorem Lexed.lex {cs : List Char} {ts : List Token} (h : Lexed cs ts) : lex cs = some ts :=
  h cs.length (Nat.le_refl _)

theorem lexed_nil : Lexed [] [] := by
  intro fuel _
  rw [lexFrom]
  rfl

theorem Lexed.space {c : Char} (hc : isSpace c = true) {cs : List Char} {ts : List Token}
    (h : Lexed cs ts) : Lexed (c :: cs) ts := by
  intro fuel hf
  have hcs := h fuel (Nat.le_of_succ_le hf)
  rw [lexFrom] at hcs ⊢
  rw [List.dropWhile_cons_of_pos hc]
  exact hcs

theorem Lexed.spaces {ss : List Char} (hs : ∀ c ∈ ss, isSpace c = true) {cs : List Char}
    {ts : List Token} (h : Lexed cs ts) : Lexed (ss ++ cs) ts := by
  induction ss with
  | nil => exact h
  | cons c ss ih =>
    exact (ih fun d hd => hs d (List.mem_cons_of_mem _ hd)).space (hs c List.mem_cons_self)

theorem Lexed.token {c : Char} (hc : isSpace c = false) {cs rest : List Char} {t : Token}
    (ht : lexOne (c :: cs) = some (t, rest)) (hle : rest.length ≤ cs.length) {ts : List Token}
    (h : Lexed rest ts) : Lexed (c :: cs) (t :: ts) := by
  intro fuel hf
  cases fuel with
  | zero => exact absurd hf (Nat.not_succ_le_zero _)
  | succ fuel =>
    have hrest := h fuel (Nat.le_trans hle (Nat.le_of_succ_le_succ hf))
    rw [lexFrom, List.dropWhile_cons_of_neg (by rw [hc]; decide)]
    simp only [ht, hrest, bind, Option.bind_some]

/-! ## strings -/

theorem lexText_short {e c : Char} (hu : e ≠ 'u') (h : shortEscape? e = some c) (cs : List Char) :
    lexText ('\\' :: e :: cs) = (lexText cs).map fun p => (.char c :: p.1, p.2) := by
  rw [lexText]
  · rw [h]
    cases lexText cs <;> rfl
  · intro _ _ _ _ _ he _
    exact absurd he hu

theorem lexText_plain {c : Char} (h1 : c ≠ '"') (h2 : c ≠ '\\') (h : ¬ c.toNat < 0x20)
    (cs : List Char) : lexText (c :: cs) = (lexText cs).map fun p => (.char c :: p.1, p.2) := by
  rw [lexText]
  · rw [if_neg (not_or.2 ⟨h, h2⟩)]
    cases lexText cs <;> rfl
  · exact h1
  · intro _ _ _ _ _ hc _
    exact absurd hc h2
  · intro _ _ hc _
    exact absurd hc h2

/-- four digits are enough for a unit -/
theorem hexUnit?_lowerHex {n : Nat} (h : n < 0x10000) :
    hexUnit? (Text.lowerHex (n / 4096 % 16)) (Text.lowerHex (n / 256 % 16))
      (Text.lowerHex (n / 16 % 16)) (Text.lowerHex (n % 16)) = some n := by
  have hd : ∀ m, Text.hexValue? (Text.lowerHex (m % 16)) = some (m % 16) := fun m =>
    Text.hexValue?_lowerHex _ (Nat.mod_lt m (by decide))
  simp only [hexUnit?, hd, bind, Option.bind_some]
  congr 1
  omega

theorem lexText_unit {n : Nat} (h : n < 0x10000) (cs : List Char) :
    lexText ((Piece.unit n).chars ++ cs) = (lexText cs).map fun p => (.unit n :: p.1, p.2) := by
  show lexText ('\\' :: 'u' :: Text.lowerHex _ :: Text.lowerHex _ :: Text.lowerHex _ ::
    Text.lowerHex _ :: cs) = _
  rw [lexText, hexUnit?_lowerHex h]
  cases lexText cs <;> rfl

/-- one character between the quotes -/
theorem lexText_ofChar (c : Char) (cs : List Char) :
    lexText ((Piece.ofChar c).chars ++ cs) =
      (lexText cs).map fun p => (Piece.ofChar c :: p.1, p.2) := by
  by_cases hshort : c ∈ ['"', '\\', '\x08', '\t', '\n', '\x0c', '\r']
  · simp only [List.mem_cons, List.not_mem_nil, or_false] at hshort
    rcases hshort with rfl | rfl | rfl | rfl | rfl | rfl | rfl <;>
      exact lexText_short (by decide) rfl cs
  · by_cases hunit : c.toNat < 0x20
    · have he : Piece.ofChar c = .unit c.toNat := by
        refine if_pos ⟨hunit, fun hm => hshort ?_⟩
        exact List.mem_cons_of_mem _ (List.mem_cons_of_mem _ hm)
      rw [he]
      exact lexText_unit (by omega) cs
    · have he : Piece.ofChar c = .char c := if_neg fun h => hunit h.1
      simp only [List.mem_cons, List.not_mem_nil, or_false, not_or] at hshort
      obtain ⟨h1, h2, h3, h4, h5, h6, h7⟩ := hshort
      have hchars : (Piece.char c).chars = [c] := by
        rw [Piece.chars] <;> assumption
      rw [he, hchars]
      exact lexText_plain h1 h2 hunit cs

theorem lexText_pieces (s rest : List Char) :
    lexText ((s.map Piece.ofChar).flatMap Piece.chars ++ '"' :: rest) =
      some (s.map Piece.ofChar, rest) := by
  induction s with
  | nil => rw [List.map_nil, List.flatMap_nil, List.nil_append, lexText]
  | cons c s ih =>
    rw [List.map_cons, List.flatMap_cons, List.append_assoc, lexText_ofChar, ih]
    rfl

theorem Lexed.text (s : List Char) {rest : List Char} {ts : List Token} (h : Lexed rest ts) :
    Lexed ((Token.ofText s).chars ++ rest) (.ofText s :: ts) := by
  have hchars : (Token.ofText s).chars ++ rest =
      '"' :: ((s.map Piece.ofChar).flatMap Piece.chars ++ '"' :: rest) := by
    rw [Token.ofText, Token.chars, List.cons_append, List.cons_append, List.append_assoc]
    rfl
  rw [hchars]
  refine Lexed.token (by decide) ?_ ?_ h
  · rw [lexOne, lexText_pieces]
    rfl
  · rw [List.length_append, List.length_cons]
    omega

/-! ## whole numbers -/

/-- only the digits of zero begin with a zero -/
theorem digits_of_head_zero : ∀ n : Nat,
    (Text.digits n).head? = some '0' → Text.digits n = ['0'] := by
  intro n
  induction n using Nat.strong_induction_on with
  | _ n ih =>
    intro h
    unfold Text.digits at *
    rw [Nat.toDigits_eq_if (by decide)] at h ⊢
    split at h
    · next hn =>
      rw [if_pos hn]
      have hall : ∀ m < 10, [Nat.digitChar m].head? = some '0' → [Nat.digitChar m] = ['0'] := by
        decide
      exact hall n hn h
    · next hn =>
      have hne : Nat.toDigits 10 (n / 10) ≠ [] := Nat.toDigits_ne_nil
      rw [List.head?_append_of_ne_nil _ hne] at h
      have hzero : Nat.toDigits 10 (n / 10) = ['0'] := ih (n / 10) (by omega) h
      have hval : n / 10 = 0 := by
        have hof := Nat.ofDigitChars_ten_toDigits (n := n / 10)
        rw [hzero] at hof
        exact hof.symm
      omega

theorem lexDigits_append {ds rest : List Char} (hds : ds.all Char.isDigit = true)
    (hr : ∀ c ∈ rest.head?, c.isDigit = false) : lexDigits (ds ++ rest) = (ds, rest) := by
  have hall : ∀ c ∈ ds, c.isDigit = true := List.all_eq_true.1 hds
  have hstop : rest.takeWhile Char.isDigit = [] ∧ rest.dropWhile Char.isDigit = rest := by
    cases rest with
    | nil => exact ⟨rfl, rfl⟩
    | cons c rest =>
      have hc : ¬ c.isDigit = true := by rw [hr c rfl]; decide
      exact ⟨List.takeWhile_cons_of_neg hc, List.dropWhile_cons_of_neg hc⟩
  rw [lexDigits, List.takeWhile_append_of_pos hall, List.dropWhile_append_of_pos hall, hstop.1,
    hstop.2, List.append_nil]

theorem lexFraction_of_ends {cs : List Char} (h : Ends cs) : lexFraction cs = some ([], cs) := by
  rw [lexFraction]
  rintro rest rfl
  exact (h '.' rfl).2.1 rfl

theorem lexExponent_of_ends {cs : List Char} (h : Ends cs) : lexExponent cs = some (none, cs) := by
  cases cs with
  | nil => rfl
  | cons c cs =>
    obtain ⟨-, -, he, hE⟩ := h c rfl
    rw [lexExponent, if_neg (not_or.2 ⟨he, hE⟩)]

theorem chars_ofInt (n : Int) :
    (Literal.ofInt n).chars = (if n < 0 then ['-'] else []) ++ Text.digits n.natAbs := by
  simp only [Literal.chars, Literal.ofInt, Literal.tailChars, if_true, List.append_nil,
    decide_eq_true_eq]

theorem lexNumber_ofInt (n : Int) {rest : List Char} (h : Ends rest) :
    lexNumber ((Literal.ofInt n).chars ++ rest) = some (.ofInt n, rest) := by
  have hdigits := lexDigits_append (Text.all_isDigit_digits n.natAbs) fun c hc => (h c hc).1
  have hzero : ¬ (Text.digits n.natAbs = [] ∨
      ((Text.digits n.natAbs).head? = some '0' ∧ Text.digits n.natAbs ≠ ['0'])) := by
    rintro (hnil | ⟨hhead, hne⟩)
    · exact Text.digits_ne_nil _ hnil
    · exact hne (digits_of_head_zero _ hhead)
  rw [chars_ofInt, List.append_assoc]
  unfold lexNumber
  by_cases hneg : n < 0
  · simp only [hneg, if_true, List.singleton_append, hdigits, if_neg hzero, lexFraction_of_ends h,
      lexExponent_of_ends h, bind, Option.bind_some, Literal.ofInt, decide_true]
  · have hminus : ∀ cs, Text.digits n.natAbs ++ rest ≠ '-' :: cs := by
      intro cs he
      have hd := Text.all_isDigit_digits n.natAbs
      cases hds : Text.digits n.natAbs with
      | nil => exact Text.digits_ne_nil _ hds
      | cons d ds =>
        rw [hds] at he hd
        rw [List.all_cons, (List.cons.inj he).1] at hd
        cases hd
    simp only [hneg, if_false, List.nil_append, hdigits, if_neg hzero, lexFraction_of_ends h,
      lexExponent_of_ends h, bind, Option.bind_some, Literal.ofInt, decide_false]

/-- a sign or a digit can only begin a number -/
theorem lexOne_number {c : Char} (hc : c = '-' ∨ c.isDigit = true) (cs : List Char) :
    lexOne (c :: cs) = (lexNumber (c :: cs)).map fun p => (.number p.1, p.2) := by
  have hne : ∀ {d : Char} {ds : List Char}, ¬ (d = '-' ∨ d.isDigit = true) →
      c :: cs = d :: ds → False := fun hd he => hd ((List.cons.inj he).1 ▸ hc)
  rw [lexOne]
  · exact nofun
  all_goals exact fun _ => hne (by decide)

theorem exists_chars_ofInt (n : Int) :
    ∃ c cs, (Literal.ofInt n).chars = c :: cs ∧ (c = '-' ∨ c.isDigit = true) := by
  rw [chars_ofInt]
  split
  · exact ⟨'-', _, rfl, .inl rfl⟩
  · cases hds : Text.digits n.natAbs with
    | nil => exact absurd hds (Text.digits_ne_nil _)
    | cons d ds =>
      have hd := Text.all_isDigit_digits n.natAbs
      rw [hds, List.all_cons, Bool.and_eq_true] at hd
      exact ⟨d, ds, rfl, .inr hd.1⟩

theorem isSpace_of_isDigit {c : Char} (h : c.isDigit = true) : isSpace c = false := by
  have hne : ∀ d : Char, d.isDigit = false → (c == d) = false := fun d hd =>
    beq_eq_false_iff_ne.2 fun e => by rw [e, hd] at h; cases h
  rw [isSpace, hne ' ' (by decide), hne '\t' (by decide), hne '\n' (by decide),
    hne '\r' (by decide)]
  rfl

theorem Lexed.int (n : Int) {rest : List Char} (he : Ends rest) {ts : List Token}
    (h : Lexed rest ts) : Lexed ((Token.ofInt n).chars ++ rest) (.ofInt n :: ts) := by
  obtain ⟨c, cs, hcs, hc⟩ := exists_chars_ofInt n
  have hlex := lexNumber_ofInt n he
  show Lexed ((Literal.ofInt n).chars ++ rest) _
  rw [hcs, List.cons_append] at hlex ⊢
  refine Lexed.token ?_ ?_ ?_ h
  · rcases hc with rfl | hc
    · decide
    · exact isSpace_of_isDigit hc
  · rw [lexOne_number hc, hlex]
    rfl
  · rw [List.length_append]
    omega

/-! ## printed values -/

/-- nested at most so deep, with no name twice in a record, and without doubles -/
inductive Value.Plain : Nat → Value → Prop
  | null (d : Nat) : Plain d .null
  | bool (d : Nat) (b : Bool) : Plain d (.bool b)
  | int (d : Nat) {n : Int} (lo : -9223372036854775808 ≤ n) (hi : n < 18446744073709551616) :
    Plain d (.int n)
  | text (d : Nat) (s : String) : Plain d (.text s)
  | list {d : Nat} {items : List Value} (h : ∀ v ∈ items, Plain d v) : Plain (d + 1) (.list items)
  | record {d : Nat} {fields : List (String × Value)} (hd : (fields.map (·.1)).Nodup)
    (h : ∀ e ∈ fields, Plain d e.2) : Plain (d + 1) (.record fields)

namespace Value

theorem ends_newLine (k : Nat) (cs : List Char) : Ends (newLine k ++ cs) := ends_cons (by decide) _

theorem ends_prettyItems (k : Nat) (vs : List Value) {cs : List Char} (h : Ends cs) :
    Ends (prettyItems k vs ++ cs) := by
  cases vs with
  | nil => exact h
  | cons v vs => exact ends_cons (by decide) _

theorem ends_prettyFields (k : Nat) (fields : List (String × Value)) {cs : List Char}
    (h : Ends cs) : Ends (prettyFields k fields ++ cs) := by
  cases fields with
  | nil => exact h
  | cons e fields => exact ends_cons (by decide) _

theorem lexed_newLine {k : Nat} {cs : List Char} {ts : List Token} (h : Lexed cs ts) :
    Lexed (newLine k ++ cs) ts := by
  refine h.spaces fun c hc => ?_
  rcases List.mem_cons.1 hc with rfl | hc
  · decide
  · rw [List.eq_of_mem_replicate hc]
    decide

/-- wherever the printed value stands, it is cut into its tokens -/
def Prints (v : Value) : Prop :=
  ∀ (k : Nat) {rest : List Char} {more : List Token}, Ends rest → Lexed rest more →
    Lexed (prettyAt k v ++ rest) (v.tokens ++ more)

section
variable {k : Nat} {rest : List Char} {more : List Token} (h : Lexed rest more)
include h

theorem lexed_prettyItems {vs : List Value} (hv : ∀ v ∈ vs, v.Prints) :
    Lexed (prettyItems (k + 1) vs ++ (newLine k ++ ']' :: rest)) (moreItems vs ++ more) := by
  induction vs with
  | nil => exact lexed_newLine (Lexed.token (by decide) rfl (Nat.le_refl _) h)
  | cons v vs ih =>
    have hrest := ih fun w hw => hv w (List.mem_cons_of_mem _ hw)
    have hends := ends_prettyItems (k + 1) vs (ends_newLine k (']' :: rest))
    have hvalue := hv v List.mem_cons_self (k + 1) hends hrest
    rw [prettyItems, moreItems]
    simp only [List.cons_append, List.append_assoc]
    exact Lexed.token (by decide) rfl (Nat.le_refl _) (lexed_newLine hvalue)

theorem lexed_field (key : String) {v : Value} (hv : v.Prints) (he : Ends rest) :
    Lexed ((Token.ofText key.toList).chars ++ (':' :: ' ' :: (prettyAt k v ++ rest)))
      (.ofText key.toList :: .colon :: (v.tokens ++ more)) := by
  refine Lexed.text _ ?_
  have hvalue := hv k he h
  exact Lexed.token (by decide) rfl (Nat.le_refl _) (hvalue.space (by decide))

theorem lexed_prettyFields {fields : List (String × Value)} (hv : ∀ e ∈ fields, e.2.Prints) :
    Lexed (prettyFields (k + 1) fields ++ (newLine k ++ '}' :: rest))
      (moreFields fields ++ more) := by
  induction fields with
  | nil => exact lexed_newLine (Lexed.token (by decide) rfl (Nat.le_refl _) h)
  | cons e fields ih =>
    obtain ⟨key, v⟩ := e
    have hrest := ih fun e he => hv e (List.mem_cons_of_mem _ he)
    have hends := ends_prettyFields (k + 1) fields (ends_newLine k ('}' :: rest))
    have hfield := lexed_field (k := k + 1) hrest key (hv (key, v) List.mem_cons_self) hends
    rw [prettyFields, moreFields]
    simp only [List.cons_append, List.append_assoc, List.nil_append]
    exact Lexed.token (by decide) rfl (Nat.le_refl _) (lexed_newLine hfield)

end

theorem prints_of_plain {d : Nat} {v : Value} (h : Plain d v) : v.Prints := by
  induction h with
  | null d =>
    intro k rest more _ hrest
    exact Lexed.token (by decide) rfl (List.suffix_append _ _).length_le hrest
  | bool d b =>
    intro k rest more _ hrest
    cases b
    · exact Lexed.token (by decide) rfl (List.suffix_append _ _).length_le hrest
    · exact Lexed.token (by decide) rfl (List.suffix_append _ _).length_le hrest
  | int d lo hi => exact fun k _ _ he hrest => hrest.int _ he
  | text d s => exact fun k _ _ _ hrest => hrest.text _
  | @list d items _ ih =>
    intro k rest more _ hrest
    cases items with
    | nil =>
      have hclose := Lexed.token (c := ']') (by decide) rfl (Nat.le_refl _) hrest
      exact Lexed.token (by decide) rfl (Nat.le_refl _) hclose
    | cons v vs =>
      have hmore := lexed_prettyItems (k := k) hrest fun w hw => ih w (List.mem_cons_of_mem _ hw)
      have hends := ends_prettyItems (k + 1) vs (ends_newLine k (']' :: rest))
      have hvalue := ih v List.mem_cons_self (k + 1) hends hmore
      rw [prettyAt, tokens, itemTokens]
      simp only [List.cons_append, List.append_assoc, List.nil_append]
      exact Lexed.token (by decide) rfl (Nat.le_refl _) (lexed_newLine hvalue)
  | @record d fields _ _ ih =>
    intro k rest more _ hrest
    cases fields with
    | nil =>
      have hclose := Lexed.token (c := '}') (by decide) rfl (Nat.le_refl _) hrest
      exact Lexed.token (by decide) rfl (Nat.le_refl _) hclose
    | cons e fields =>
      obtain ⟨key, v⟩ := e
      have hmore := lexed_prettyFields (k := k) hrest fun e he => ih e (List.mem_cons_of_mem _ he)
      have hends := ends_prettyFields (k + 1) fields (ends_newLine k ('}' :: rest))
      have hfield := lexed_field (k := k + 1) hmore key (ih (key, v) List.mem_cons_self) hends
      rw [prettyAt, tokens, fieldTokens]
      simp only [List.cons_append, List.append_assoc, List.nil_append]
      exact Lexed.token (by decide) rfl (Nat.le_refl _) (lexed_newLine hfield)

/-- printed values, perhaps with spaces behind them -/
theorem lex_pretty {d : Nat} {v : Value} (h : Plain d v) {spaces : List Char}
    (hs : ∀ c ∈ spaces, isSpace c = true) : lex (v.pretty.toList ++ spaces) = some v.tokens := by
  have hends : Ends spaces := by
    intro c hc
    have hc' := hs c (List.mem_of_mem_head? hc)
    simp only [isSpace, Bool.or_eq_true, beq_iff_eq] at hc'
    rcases hc' with ((rfl | rfl) | rfl) | rfl <;> decide
  have hnone : Lexed spaces [] := by
    have hl := lexed_nil.spaces hs
    rwa [List.append_nil] at hl
  have hl := (prints_of_plain h 0 hends hnone).lex
  rw [List.append_nil] at hl
  rw [pretty, String.toList_ofList]
  exact hl

end Value

end Triage.Json
