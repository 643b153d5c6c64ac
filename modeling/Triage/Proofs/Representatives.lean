import Mathlib.Algebra.BigOperators.Group.List.Lemmas
import Mathlib.Algebra.GroupWithZero.Nat
import Mathlib.Data.Finset.Card
import Mathlib.Data.List.Dedup
import Triage.Table

/-!
# One element for each key

`firstOfEach` drops an element when it keeps one with the same key, which is the one that came first:

* `firstOfEach_append`      behind some elements, those are kept whose keys are new;
* `leaders`                 the elements that no element with their key stands before, by position;
                            `firstOfEach` keeps these (`firstOfEach_eq_leaders`);
* `mem_keys_firstOfEach`, `nodup_keys_firstOfEach`   every key is kept, and once;
* `length_firstOfEach`      so there are as many elements as keys;
* `mem_firstOfEach_iff`     an element is kept exactly when a search for its key finds it
                            (`mem_firstOfEach_filterMap`);
* `sum_count_firstOfEach`   to add up how often each kept element occurs is to count all elements.
-/

namespace Triage

section

variable {α β : Type} [BEq β] (key : α → β)

theorem firstOfEach_sublist (as : List α) : (firstOfEach key as).Sublist as := by
  induction as with
  | nil => exact .refl _
  | cons a as ih =>
    rw [firstOfEach_cons]
    exact (List.filter_sublist.trans ih).cons_cons a

/-- the elements that no element with their key stands before -/
def leaders (as : List α) : List α :=
  (as.zipIdx.filter fun p => !(as.take p.2).any (key · == key p.1)).map (·.1)

theorem leaders_concat (as : List α) (a : α) :
    leaders key (as ++ [a]) =
      leaders key as ++ if as.any (key · == key a) then [] else [a] := by
  have hbefore : (as.zipIdx.filter fun p => !((as ++ [a]).take p.2).any (key · == key p.1)) =
      as.zipIdx.filter fun p => !(as.take p.2).any (key · == key p.1) := by
    refine List.filter_congr fun p hp => ?_
    have hlt : p.2 < as.length := List.snd_lt_of_mem_zipIdx hp
    rw [List.take_append_of_le_length hlt.le]
  have hlast : (as ++ [a]).take as.length = as := List.take_left
  rw [leaders, List.zipIdx_append, List.filter_append, hbefore, List.map_append, leaders]
  refine congrArg (_ ++ ·) ?_
  simp only [List.zipIdx_cons, List.zipIdx_nil, Nat.zero_add, List.filter_cons, hlast,
    List.filter_nil]
  cases as.any (key · == key a) <;> rfl

variable [LawfulBEq β]

/-- behind some elements, those are kept whose keys are new -/
theorem firstOfEach_append (as bs : List α) :
    firstOfEach key (as ++ bs) =
      firstOfEach key as ++ (firstOfEach key bs).filter fun b => !as.any (key · == key b) := by
  induction as with
  | nil => exact (List.filter_eq_self.2 fun _ _ => rfl).symm
  | cons a as ih =>
    rw [List.cons_append, firstOfEach_cons, ih, List.filter_append, List.filter_filter,
      firstOfEach_cons, List.cons_append]
    refine congrArg (a :: _ ++ ·) (List.filter_congr fun b _ => ?_)
    rw [List.any_cons, Bool.not_or, Bool.beq_comm]

/-- an element at the end is kept exactly when its key is new -/
theorem firstOfEach_concat (as : List α) (a : α) :
    firstOfEach key (as ++ [a]) =
      firstOfEach key as ++ if as.any (key · == key a) then [] else [a] := by
  rw [firstOfEach_append, firstOfEach_cons, firstOfEach_nil, List.filter_nil]
  cases h : as.any (key · == key a) <;> simp [h]

theorem firstOfEach_eq_leaders (as : List α) : firstOfEach key as = leaders key as := by
  induction as using List.reverseRecOn with
  | nil => rfl
  | append_singleton as a ih => rw [firstOfEach_concat, leaders_concat, ih]

/-! ## the keys that are kept -/

theorem mem_keys_firstOfEach (as : List α) (x : β) :
    x ∈ (firstOfEach key as).map key ↔ x ∈ as.map key := by
  induction as with
  | nil => exact Iff.rfl
  | cons a as ih =>
    rw [firstOfEach_cons, List.map_cons, List.map_cons, List.mem_cons, List.mem_cons, ← ih]
    by_cases h : x = key a
    · simp [h]
    · simp only [List.mem_map, List.mem_filter, h, false_or]
      refine exists_congr fun b => and_congr_left fun hb => and_iff_left ?_
      rw [hb]
      simpa using h

theorem nodup_keys_firstOfEach (as : List α) : ((firstOfEach key as).map key).Nodup := by
  induction as with
  | nil => exact List.nodup_nil
  | cons a as ih =>
    rw [firstOfEach_cons, List.map_cons, List.nodup_cons]
    refine ⟨fun h => ?_, ih.sublist (List.filter_sublist.map key)⟩
    obtain ⟨b, hb, he⟩ := List.mem_map.1 h
    have hne := (List.mem_filter.1 hb).2
    rw [he] at hne
    simp at hne

/-- where no key comes twice, every element is kept -/
theorem firstOfEach_eq_self {as : List α} (h : (as.map key).Nodup) : firstOfEach key as = as := by
  have hperm : ((firstOfEach key as).map key).Perm (as.map key) :=
    (List.perm_ext_iff_of_nodup (nodup_keys_firstOfEach key as) h).2 (mem_keys_firstOfEach key as)
  have hlen : (firstOfEach key as).length = as.length := by simpa using hperm.length_eq
  exact (firstOfEach_sublist key as).eq_of_length hlen

/-- as many elements are kept as there are keys -/
theorem length_firstOfEach [DecidableEq β] (as : List α) :
    (firstOfEach key as).length = (as.map key).toFinset.card := by
  have hset : ((firstOfEach key as).map key).toFinset = (as.map key).toFinset := by
    ext x
    rw [List.mem_toFinset, List.mem_toFinset, mem_keys_firstOfEach]
  rw [← hset, List.toFinset_card_of_nodup (nodup_keys_firstOfEach key as), List.length_map]

/-- an element is kept exactly when a search for its key finds it -/
theorem mem_firstOfEach_iff (as : List α) (a : α) :
    a ∈ firstOfEach key as ↔ as.find? (key · == key a) = some a := by
  induction as with
  | nil => simp [firstOfEach]
  | cons b as ih =>
    rw [firstOfEach_cons, List.mem_cons, List.mem_filter, List.find?_cons, ih]
    by_cases h : key b = key a
    · simp only [h, beq_self_eq_true, Bool.not_true, Bool.false_eq_true, and_false,
        or_false, Option.some.injEq]
      exact eq_comm
    · have hab : (key a == key b) = false := beq_eq_false_iff_ne.2 (Ne.symm h)
      have hba : (key b == key a) = false := beq_eq_false_iff_ne.2 h
      have hne : a ≠ b := fun e => h (congrArg key e.symm)
      simp [hab, hba, hne]

/-- where elements come from others, one is kept exactly when none before it has its key -/
theorem mem_firstOfEach_filterMap {γ : Type} (f : γ → Option α) (xs : List γ) (a : α) :
    a ∈ firstOfEach key (xs.filterMap f) ↔ ∃ before x after, xs = before ++ x :: after ∧
      f x = some a ∧ ∀ y ∈ before, ∀ b, f y = some b → key b ≠ key a := by
  have hany : ∀ y, (!(f y).any (key · == key a)) = true ↔ ∀ b, f y = some b → key b ≠ key a := by
    intro y
    cases f y <;> simp
  rw [mem_firstOfEach_iff, List.find?_filterMap, Option.bind_eq_some_iff]
  simp only [List.find?_eq_some_iff_append, hany]
  constructor
  · rintro ⟨x, ⟨-, before, after, hxs, hbefore⟩, hx⟩
    exact ⟨before, x, after, hxs, hx, hbefore⟩
  · rintro ⟨before, x, after, hxs, hx, hbefore⟩
    refine ⟨x, ⟨?_, before, after, hxs, hbefore⟩, hx⟩
    rw [hx]
    exact beq_self_eq_true _

end

/-! ## elements that are their own keys -/

section

variable {α : Type} [BEq α] [LawfulBEq α]

theorem mem_firstOfEach_id (as : List α) (a : α) : a ∈ firstOfEach id as ↔ a ∈ as := by
  have h := mem_keys_firstOfEach id as a
  rwa [List.map_id, List.map_id] at h

theorem nodup_firstOfEach_id (as : List α) : (firstOfEach id as).Nodup := by
  have h := nodup_keys_firstOfEach id as
  rwa [List.map_id] at h

/-- how often the kept elements with a property occur, all together -/
theorem sum_count_firstOfEach {α : Type} [DecidableEq α] (as : List α) (p : α → Bool) :
    (((firstOfEach id as).filter p).map as.count).sum = as.countP p := by
  have hperm : (firstOfEach id as).Perm as.dedup := by
    refine (List.perm_ext_iff_of_nodup (nodup_firstOfEach_id as) as.nodup_dedup).2 fun x => ?_
    rw [mem_firstOfEach_id, List.mem_dedup]
  rw [((hperm.filter p).map _).sum_eq]
  exact List.sum_map_count_dedup_filter_eq_countP p as

end

end Triage
