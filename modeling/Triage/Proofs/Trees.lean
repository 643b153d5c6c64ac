import Triage.Json.Term
import Triage.Proofs.Histories
import Triage.Proofs.Tokens

/-!
# Values read back from their text

* `Term.ofValue v`       the tree that a value is written as;
* `Value.Grows v`        the tokens of a value grow into this tree wherever a value may stand
                         (`grows_of_plain`);
* `valueWithin_ofValue`  the tree means the value;
* `parse?_pretty`        so the printed text of a plain value reads back.
-/

namespace Triage.Json

/-! ## the tree of a value -/

mutual

def Term.ofValue : Value → Term
  | .null => .null
  | .bool b => .bool b
  | .int n => .number (.ofInt n)
  | .double x => .number x.literal
  | .text s => .text (s.toList.map Piece.ofChar)
  | .list items => .list (Term.ofValues items)
  | .record fields => .record (Term.ofFields fields)

def Term.ofValues : List Value → List Term
  | [] => []
  | v :: vs => Term.ofValue v :: Term.ofValues vs

def Term.ofFields : List (String × Value) → List (List Piece × Term)
  | [] => []
  | (key, v) :: rest => (key.toList.map Piece.ofChar, Term.ofValue v) :: Term.ofFields rest

end

namespace Value

open Cursor

/-- wherever a value may stand, the tokens of this one are taken in full -/
def Grows (v : Value) : Prop :=
  ∀ (stack : List Frame) (close : Bool) (more : List Token),
    feedAll (.value stack close) (v.tokens ++ more) =
      feedAll (complete (.ofValue v) stack) more

theorem feedAll_moreItems {vs : List Value} (hv : ∀ v ∈ vs, v.Grows) (stack : List Frame)
    (more : List Token) : ∀ items : List Term,
    feedAll (.next (.list items) stack) (moreItems vs ++ more) =
      feedAll (complete (.list (items.reverse ++ Term.ofValues vs)) stack) more := by
  induction vs with
  | nil =>
    intro items
    rw [Term.ofValues, List.append_nil]
    rfl
  | cons v vs ih =>
    intro items
    rw [moreItems, List.cons_append, List.append_assoc, feedAll_cons]
    show feedAll (.value (.list items :: stack) false) _ = _
    rw [hv v List.mem_cons_self]
    show feedAll (.next (.list (.ofValue v :: items)) stack) _ = _
    rw [ih fun w hw => hv w (List.mem_cons_of_mem _ hw), List.reverse_cons, List.append_assoc]
    rfl

theorem feedAll_field {key : String} {v : Value} (hv : v.Grows) (stack : List Frame)
    (fields : List (List Piece × Term)) (close : Bool) (more : List Token) :
    feedAll (.field stack fields close) (.ofText key.toList :: .colon :: (v.tokens ++ more)) =
      feedAll (.next (.record ((key.toList.map Piece.ofChar, .ofValue v) :: fields) []) stack)
        more := by
  rw [feedAll_cons]
  show feedAll (.colon stack fields _) _ = _
  rw [feedAll_cons]
  show feedAll (.value (.record fields _ :: stack) false) _ = _
  rw [hv]
  rfl

theorem feedAll_moreFields {rest : List (String × Value)} (hv : ∀ e ∈ rest, e.2.Grows)
    (stack : List Frame) (more : List Token) :
    ∀ (fields : List (List Piece × Term)) (key : List Piece),
    feedAll (.next (.record fields key) stack) (moreFields rest ++ more) =
      feedAll (complete (.record (fields.reverse ++ Term.ofFields rest)) stack) more := by
  induction rest with
  | nil =>
    intro fields key
    rw [Term.ofFields, List.append_nil]
    rfl
  | cons e rest ih =>
    intro fields key
    obtain ⟨name, v⟩ := e
    rw [moreFields, List.cons_append, List.cons_append, List.cons_append, List.append_assoc,
      feedAll_cons]
    show feedAll (.field stack fields false) _ = _
    rw [feedAll_field (hv (name, v) List.mem_cons_self),
      ih fun e he => hv e (List.mem_cons_of_mem _ he), List.reverse_cons, List.append_assoc]
    rfl

theorem grows_of_plain {d : Nat} {v : Value} (h : Plain d v) : v.Grows := by
  induction h with
  | null d => exact fun _ _ _ => rfl
  | bool d b => exact fun _ _ _ => rfl
  | int d lo hi => exact fun _ _ _ => rfl
  | text d s => exact fun _ _ _ => rfl
  | @list d items _ ih =>
    intro stack close more
    cases items with
    | nil => rfl
    | cons v vs =>
      rw [tokens, itemTokens, List.cons_append, List.append_assoc, feedAll_cons]
      show feedAll (.value (.list [] :: stack) true) _ = _
      rw [ih v List.mem_cons_self]
      exact feedAll_moreItems (fun w hw => ih w (List.mem_cons_of_mem _ hw)) stack more [.ofValue v]
  | @record d fields _ _ ih =>
    intro stack close more
    cases fields with
    | nil => rfl
    | cons e fields =>
      obtain ⟨name, v⟩ := e
      rw [tokens, fieldTokens, List.cons_append, List.cons_append, List.cons_append,
        List.append_assoc, feedAll_cons]
      show feedAll (.field stack [] true) _ = _
      rw [feedAll_field (ih (name, v) List.mem_cons_self)]
      exact feedAll_moreFields (fun e he => ih e (List.mem_cons_of_mem _ he)) stack more
        [(name.toList.map Piece.ofChar, .ofValue v)] []

theorem ofTokens?_tokens {d : Nat} {v : Value} (h : Plain d v) :
    Term.ofTokens? v.tokens = some (.ofValue v) := by
  have hg := grows_of_plain h [] false []
  rw [List.append_nil] at hg
  rw [Term.ofTokens?, start, hg]
  rfl

end Value

/-! ## the meaning of the tree -/

theorem Piece.decode?_unit {n : Nat} (h : n < 0xD800) (ps : List Piece) :
    decode? (.unit n :: ps) = (decode? ps).map (Char.ofNat n :: ·) := by
  have h1 : ¬ (0xD800 ≤ n ∧ n < 0xDC00) := by omega
  have h2 : ¬ (0xDC00 ≤ n ∧ n < 0xE000) := by omega
  have h3 : ¬ (0xD800 ≤ n ∧ n < 0xE000) := by omega
  match ps with
  | [] => exact if_neg h3
  | .char c :: ps => exact if_neg h3
  | .unit lo :: ps => exact (if_neg h1).trans (if_neg h2)

theorem Piece.decode?_ofChar (s : List Char) : decode? (s.map ofChar) = some s := by
  induction s with
  | nil => rfl
  | cons c s ih =>
    rw [List.map_cons]
    by_cases hc : c.toNat < 0x20 ∧ c ∉ ['\x08', '\t', '\n', '\x0c', '\r']
    · have he : ofChar c = .unit c.toNat := if_pos hc
      rw [he, decode?_unit (by omega), ih, Char.ofNat_toNat]
      rfl
    · have he : ofChar c = .char c := if_neg hc
      rw [he, decode?, ih]
      rfl

namespace Term

theorem meaningOfNumber_ofInt {n : Int} (lo : -9223372036854775808 ≤ n)
    (hi : n < 18446744073709551616) : meaningOfNumber (.ofInt n) = some (.int n) := by
  rw [meaningOfNumber, Literal.integer?_ofInt lo hi]

theorem valuesWithin_ofValues {d : Nat} {vs : List Value}
    (h : ∀ v ∈ vs, valueWithin d (.ofValue v) = some v) :
    valuesWithin d (ofValues vs) = some vs := by
  induction vs with
  | nil => rfl
  | cons v vs ih =>
    rw [ofValues, valuesWithin, h v List.mem_cons_self,
      ih fun w hw => h w (List.mem_cons_of_mem _ hw)]
    rfl

theorem fieldsWithin_ofFields {d : Nat} {fields : List (String × Value)}
    (h : ∀ e ∈ fields, valueWithin d (.ofValue e.2) = some e.2) :
    ∀ seen : List (String × Value), ((seen ++ fields).map (·.1)).Nodup →
      fieldsWithin d (ofFields fields) seen = some (seen ++ fields) := by
  induction fields with
  | nil => intro seen _; rw [List.append_nil]; rfl
  | cons e fields ih =>
    intro seen hd
    obtain ⟨key, v⟩ := e
    have hnotin : key ∉ seen.map (·.1) := by
      rw [List.map_append, List.nodup_append] at hd
      exact fun hm => hd.2.2 key hm key List.mem_cons_self rfl
    rw [ofFields, fieldsWithin, Piece.decode?_ofChar, h (key, v) List.mem_cons_self]
    simp only [bind, Option.bind_some, String.ofList_toList]
    rw [Table.put_of_notMem v hnotin, ih (fun e he => h e (List.mem_cons_of_mem _ he)),
      List.append_assoc]
    · rfl
    · rw [List.append_assoc]
      exact hd

theorem valueWithin_ofValue {d : Nat} {v : Value} (h : v.Plain d) :
    valueWithin d (.ofValue v) = some v := by
  induction h with
  | null d => rw [ofValue, valueWithin]
  | bool d b => rw [ofValue, valueWithin]
  | int d lo hi => rw [ofValue, valueWithin, meaningOfNumber_ofInt lo hi]
  | text d s =>
    rw [ofValue, valueWithin, Piece.decode?_ofChar, Option.map_some, String.ofList_toList]
  | list _ ih => rw [ofValue, valueWithin, valuesWithin_ofValues ih, Option.map_some]
  | @record d fields hd _ ih =>
    rw [ofValue, valueWithin, fieldsWithin_ofFields ih [] hd, List.nil_append, Option.map_some]

end Term

namespace Value

theorem term_pretty {d : Nat} {v : Value} (h : Plain d v) (spaces : String)
    (hs : ∀ c ∈ spaces.toList, isSpace c = true) :
    Term.parse? (v.pretty ++ spaces) = some (.ofValue v) := by
  rw [Term.parse?, String.toList_append, lex_pretty h hs, Option.bind_some, ofTokens?_tokens h]

/-- a plain value reads back from its printed text, perhaps with spaces behind it -/
theorem parse?_pretty {v : Value} (h : Plain Term.maxDepth v) (spaces : String)
    (hs : ∀ c ∈ spaces.toList, isSpace c = true) : parse? (v.pretty ++ spaces) = some v := by
  rw [parse?, term_pretty h spaces hs, Option.bind_some, Term.value?, Term.valueWithin_ofValue h]

end Value

end Triage.Json
