import Mathlib.Data.List.Forall2
import Triage.Json.Reader

/-!
# Fields read with and without their types

A value keeps the last of the fields with one name; a column is the only field with its name.

* `Term.Means d t v`     what a term of each kind can mean;
* `get?_fieldsWithin`    under each name a value has what the last field with this name means;
* `columnOf_eq_some`     a column can be read if its name stands at most once;
* `columnOf_meaning`     and then means what the value has there.
-/

namespace Triage.Json

open List (Forall₂)

/-! ## lists -/

theorem mapM_eq_some {α β : Type} {f : α → Option β} {as : List α} :
    ∀ {bs : List β}, as.mapM f = some bs ↔ Forall₂ (f · = some ·) as bs := by
  induction as with
  | nil => simp [eq_comm]
  | cons a as ih =>
    intro bs
    simp only [List.mapM_cons, bind, pure, Option.bind_eq_some_iff, Option.some.injEq,
      List.forall₂_cons_left_iff, ih]
    exact ⟨fun ⟨b, hb, cs, hcs, h⟩ => ⟨b, cs, hb, hcs, h.symm⟩,
      fun ⟨b, cs, hb, hcs, h⟩ => ⟨b, hb, cs, hcs, h.symm⟩⟩

/-- what `f` undoes on each item it undoes on a list -/
theorem mapM_map_of_forall {α β : Type} {f : α → Option β} {g : β → α}
    (h : ∀ b, f (g b) = some b) {bs : List β} : (bs.map g).mapM f = some bs :=
  mapM_eq_some.2 (List.forall₂_map_left_iff.2 (List.forall₂_same.2 fun b _ => h b))

theorem exists_mapM {α β : Type} {f : α → Option β} {as : List α} :
    (∃ bs, as.mapM f = some bs) ↔ ∀ a ∈ as, ∃ b, f a = some b := by
  induction as with
  | nil => simp
  | cons a as ih =>
    rw [List.forall_mem_cons, ← ih]
    simp only [List.mapM_cons, bind, pure, Option.bind_eq_some_iff, Option.some.injEq]
    exact ⟨fun ⟨_, b, hb, bs, hbs, _⟩ => ⟨⟨b, hb⟩, bs, hbs⟩,
      fun ⟨⟨b, hb⟩, bs, hbs⟩ => ⟨b :: bs, b, hb, bs, hbs, rfl⟩⟩

theorem exists_of_forall₂ {α β : Type} {R : α → β → Prop} {as : List α} {bs : List β}
    (h : Forall₂ R as bs) {a : α} (ha : a ∈ as) : ∃ b ∈ bs, R a b := by
  induction h with
  | nil => cases ha
  | @cons _ b _ _ hab _ ih =>
    rcases List.mem_cons.1 ha with rfl | ha
    · exact ⟨b, List.mem_cons_self, hab⟩
    · obtain ⟨c, hc, hac⟩ := ih ha
      exact ⟨c, List.mem_cons_of_mem _ hc, hac⟩

section
variable {α β : Type} {f : α → Option β} {as : List α} {bs : List β} (h : as.mapM f = some bs)
include h

theorem image_of_mapM {a : α} (ha : a ∈ as) : ∃ b ∈ bs, f a = some b :=
  exists_of_forall₂ (mapM_eq_some.1 h) ha

theorem preimage_of_mapM {b : β} (hb : b ∈ bs) : ∃ a ∈ as, f a = some b :=
  exists_of_forall₂ (Forall₂.flip (R := fun b a => f a = some b) (mapM_eq_some.1 h)) hb

end

theorem Term.valuesWithin_eq_mapM (d : Nat) (ts : List Term) :
    valuesWithin d ts = ts.mapM (valueWithin d) := by
  induction ts with
  | nil => rfl
  | cons t ts ih => rw [valuesWithin, List.mapM_cons, ih]; rfl

theorem readAll_eq_mapM {α : Type} (r : Reader α) (ts : List Term) :
    readAll r ts = ts.mapM r := by
  induction ts with
  | nil => rfl
  | cons t ts ih => rw [readAll, List.mapM_cons, ih]; rfl

theorem columnsOf_eq_mapM (fields : List (List Piece × Term)) (names : List String) :
    columnsOf fields names = names.mapM (columnOf fields) := by
  induction names with
  | nil => rfl
  | cons name names ih => rw [columnsOf, List.mapM_cons, ih]; rfl

/-! ## the kinds of values -/

/-- what a term of each kind can mean, within a depth -/
inductive Term.Means : Nat → Term → Value → Prop where
  | null (d : Nat) : Means d .null .null
  | bool (d : Nat) (b : Bool) : Means d (.bool b) (.bool b)
  | int (d : Nat) (n : Literal) (i : Int) : Means d (.number n) (.int i)
  | double (d : Nat) (n : Literal) (x : Double) : Means d (.number n) (.double x)
  | text (d : Nat) {ps : List Piece} {cs : List Char} (h : Piece.decode? ps = some cs) :
      Means d (.text ps) (.text (String.ofList cs))
  | list {d : Nat} {ts : List Term} {vs : List Value} (h : valuesWithin d ts = some vs) :
      Means (d + 1) (.list ts) (.list vs)
  | record {d : Nat} {fields : List (List Piece × Term)} {out : List (String × Value)}
      (h : fieldsWithin d fields [] = some out) : Means (d + 1) (.record fields) (.record out)

theorem Term.means_of_valueWithin {d : Nat} {t : Term} {v : Value}
    (h : valueWithin d t = some v) : Means d t v := by
  cases t with
  | null =>
    rw [valueWithin] at h
    cases h
    exact .null d
  | bool b =>
    rw [valueWithin] at h
    cases h
    exact .bool d b
  | number n =>
    rw [valueWithin, meaningOfNumber] at h
    split at h
    · cases h
      exact .int d n _
    · obtain ⟨x, -, rfl⟩ := Option.map_eq_some_iff.1 h
      exact .double d n x
  | text ps =>
    rw [valueWithin] at h
    obtain ⟨cs, hcs, rfl⟩ := Option.map_eq_some_iff.1 h
    exact .text d hcs
  | list ts =>
    cases d with
    | zero => rw [valueWithin] at h; cases h
    | succ d =>
      rw [valueWithin] at h
      obtain ⟨vs, hvs, rfl⟩ := Option.map_eq_some_iff.1 h
      exact .list hvs
  | record fields =>
    cases d with
    | zero => rw [valueWithin] at h; cases h
    | succ d =>
      rw [valueWithin] at h
      obtain ⟨out, hout, rfl⟩ := Option.map_eq_some_iff.1 h
      exact .record hout

/-- the text that a value is -/
def Value.text? : Value → Option String
  | .text s => some s
  | _ => none

/-- a text is read from what means a text, and from nothing else -/
theorem readText_of_means {d : Nat} {t : Term} {v : Value} (h : Term.Means d t v) :
    readText t = v.text? := by
  cases h with
  | text _ hcs => rw [readText, hcs]; rfl
  | _ => rfl

/-- also for all items of a list -/
theorem readAll_readText {d : Nat} {ts : List Term} {vs : List Value}
    (h : Term.valuesWithin d ts = some vs) : readAll readText ts = vs.mapM Value.text? := by
  rw [Term.valuesWithin_eq_mapM, mapM_eq_some] at h
  rw [readAll_eq_mapM]
  induction h with
  | nil => rfl
  | cons hv _ ih =>
    rw [List.mapM_cons, List.mapM_cons, readText_of_means (Term.means_of_valueWithin hv), ih]

/-! ## fields -/

/-- under each name, what the last field with this name means -/
theorem Term.get?_fieldsWithin {d : Nat} (name : String) {fields : List (List Piece × Term)} :
    ∀ {seen out : List (String × Value)}, fieldsWithin d fields seen = some out →
      ∃ ts vs, fieldsNamed name fields = some ts ∧ valuesWithin d ts = some vs ∧
        Table.get? name out = vs.getLast?.or (Table.get? name seen) := by
  induction fields with
  | nil =>
    intro seen out h
    rw [fieldsWithin, Option.some.injEq] at h
    exact ⟨[], [], rfl, rfl, by rw [h]; rfl⟩
  | cons field fields ih =>
    intro seen out h
    obtain ⟨ps, t⟩ := field
    simp only [fieldsWithin, bind, Option.bind_eq_some_iff] at h
    obtain ⟨key, hkey, v, hv, hrest⟩ := h
    obtain ⟨ts, vs, hts, hvs, hget⟩ := ih hrest
    rw [fieldsNamed, hkey, hts]
    simp only [bind, Option.bind_some]
    by_cases hname : String.ofList key = name
    · refine ⟨t :: ts, v :: vs, by rw [if_pos hname], by rw [valuesWithin, hv, hvs]; rfl, ?_⟩
      rw [hget, hname, Table.get?_put_self, List.getLast?_cons]
      cases vs.getLast? <;> rfl
    · refine ⟨ts, vs, by rw [if_neg hname], hvs, ?_⟩
      rw [hget, Table.get?_put_ne (Ne.symm hname)]

theorem columnOf_eq_some {fields : List (List Piece × Term)} {name : String} {c : Option Term} :
    columnOf fields name = some c ↔
      ∃ ts, fieldsNamed name fields = some ts ∧ ts.length ≤ 1 ∧ ts.head? = c := by
  unfold columnOf
  cases fieldsNamed name fields with
  | none => simp
  | some ts =>
    match ts with
    | [] => simp
    | [t] => simp
    | t :: u :: ts => simp

section
variable {d : Nat} {fields : List (List Piece × Term)} {out : List (String × Value)}
  (h : Term.fieldsWithin d fields [] = some out)
include h

/-- a column means what the value has under its name -/
theorem columnOf_meaning {name : String} {c : Option Term} (hc : columnOf fields name = some c) :
    (c = none ∧ Table.get? name out = none) ∨
      ∃ t v, c = some t ∧ Term.Means d t v ∧ Table.get? name out = some v := by
  obtain ⟨ts, vs, hts, hvs, hget⟩ := Term.get?_fieldsWithin name h
  obtain ⟨us, hus, hlen, rfl⟩ := columnOf_eq_some.1 hc
  cases hts.symm.trans hus
  rw [Term.valuesWithin_eq_mapM, mapM_eq_some] at hvs
  cases hvs with
  | nil => exact .inl ⟨rfl, hget⟩
  | @cons t v ts vs hv hrest =>
    rw [List.length_cons, Nat.succ_le_succ_iff, Nat.le_zero, List.length_eq_zero_iff] at hlen
    subst hlen
    cases hrest
    exact .inr ⟨t, v, rfl, Term.means_of_valueWithin hv, hget⟩

theorem column_of_missing {name : String} {c : Option Term} (hc : columnOf fields name = some c)
    (hnone : Table.get? name out = none) : c = none := by
  rcases columnOf_meaning h hc with ⟨hcnone, -⟩ | ⟨t, v, -, -, hv⟩
  · exact hcnone
  · rw [hnone] at hv
    cases hv

theorem column_of_get? {name : String} {c : Option Term} (hc : columnOf fields name = some c)
    {v : Value} (hv : Table.get? name out = some v) : ∃ t, c = some t ∧ Term.Means d t v := by
  rcases columnOf_meaning h hc with ⟨-, hnone⟩ | ⟨t, w, ht, hm, hw⟩
  · rw [hnone] at hv
    cases hv
  · cases hw.symm.trans hv
    exact ⟨t, ht, hm⟩

end

end Triage.Json
