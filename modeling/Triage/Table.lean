/-!
# Ordered tables

A table is a list of keys with values in which a key keeps the place where it first came in.

* `Table.put`                   a new value for a key (`get?_put_self`, `get?_put_ne`);
* `Table.get?`, `Table.erase`   look a key up, take it out;
* `firstOfEach`                 the first element for every value of a key function, in order.
-/

namespace Triage

namespace Table

variable {α : Type}

def get? (key : String) (table : List (String × α)) : Option α :=
  (table.find? (·.1 == key)).map (·.2)

def put (key : String) (v : α) : List (String × α) → List (String × α)
  | [] => [(key, v)]
  | (k, w) :: rest => if k = key then (k, v) :: rest else (k, w) :: put key v rest

def erase (key : String) (table : List (String × α)) : List (String × α) :=
  table.filter (·.1 != key)

theorem put_nil (key : String) (v : α) : put key v [] = [(key, v)] := rfl
theorem put_cons (key k : String) (v w : α) (rest : List (String × α)) :
    put key v ((k, w) :: rest) =
      if k = key then (k, v) :: rest else (k, w) :: put key v rest := rfl

theorem get?_cons (key k : String) (w : α) (rest : List (String × α)) :
    get? key ((k, w) :: rest) = if k = key then some w else get? key rest := by
  by_cases h : k = key <;> simp [get?, h]

theorem get?_put_self (key : String) (v : α) (table : List (String × α)) :
    get? key (put key v table) = some v := by
  induction table with
  | nil => simp [put, get?]
  | cons e rest ih =>
    obtain ⟨k, w⟩ := e
    rw [put_cons]
    split
    · next h => simp [get?_cons, h]
    · next h => simp [get?_cons, h, ih]

theorem get?_put_ne {key other : String} (h : other ≠ key) (v : α) (table : List (String × α)) :
    get? other (put key v table) = get? other table := by
  induction table with
  | nil => simp [put, get?, Ne.symm h]
  | cons e rest ih =>
    obtain ⟨k, w⟩ := e
    rw [put_cons]
    split
    · next hk => simp [get?_cons, hk, Ne.symm h]
    · simp only [get?_cons, ih]

end Table

def firstOfEach {α β : Type} [BEq β] (key : α → β) : List α → List α
  | [] => []
  | a :: as => a :: (firstOfEach key as).filter fun b => !(key b == key a)

theorem firstOfEach_nil {α β : Type} [BEq β] (key : α → β) : firstOfEach key [] = [] := rfl
theorem firstOfEach_cons {α β : Type} [BEq β] (key : α → β) (a : α) (as : List α) :
    firstOfEach key (a :: as) = a :: (firstOfEach key as).filter fun b => !(key b == key a) := rfl

end Triage
