import Triage.Proofs.SecondPass

/-!
# Which arguments a retargeted call keeps

* `Arguments.isValueAt`    the argument at a place is the value of the flag before it, which is then no
                           value itself;
* `Arguments.standing`     the arguments that are no values, by place; arguments that do not end in a
                           flag without its value can be read apart (`standing_append`);
* `own_eq_standing`        taking values off from the left leaves exactly these;
* `keep_append`            so arguments can be kept apart, too;
* `retarget_keeps`         a retargeted call has the replaced compiler, and the arguments behind it that
                           are neither values nor dropped.
-/

namespace Triage.Arguments

/-- The argument at a place is the value of the flag before it; a value is no flag. -/
def isValueAt (args : List String) : Nat → Bool
  | 0 => false
  | i + 1 => args[i]?.any takesValue && !isValueAt args i

theorem isValueAt_append_left (as bs : List String) {i : Nat} (h : i ≤ as.length) :
    isValueAt (as ++ bs) i = isValueAt as i := by
  induction i with
  | zero => rfl
  | succ i ih => rw [isValueAt, isValueAt, List.getElem?_append_left h, ih (Nat.le_of_succ_le h)]

theorem isValueAt_append_right {as : List String} (h : isValueAt as as.length = false)
    (bs : List String) (i : Nat) : isValueAt (as ++ bs) (as.length + i) = isValueAt bs i := by
  induction i with
  | zero => rw [Nat.add_zero, isValueAt_append_left as bs le_rfl, h, isValueAt]
  | succ i ih =>
    rw [← Nat.add_assoc, isValueAt, isValueAt, ih, List.getElem?_append_right (Nat.le_add_right _ _),
      Nat.add_sub_cancel_left]

/-- the arguments that are no values -/
def standing (args : List String) : List String :=
  (args.zipIdx.filter fun p => !isValueAt args p.2).map (·.1)

theorem standing_append {as : List String} (h : isValueAt as as.length = false)
    (bs : List String) : standing (as ++ bs) = standing as ++ standing bs := by
  have hfront : as.zipIdx.filter (fun p => !isValueAt (as ++ bs) p.2) =
      as.zipIdx.filter fun p => !isValueAt as p.2 := by
    refine List.filter_congr fun p hp => ?_
    rw [isValueAt_append_left as bs (List.snd_lt_of_mem_zipIdx hp).le]
  have hback : (bs.zipIdx as.length).filter (fun p => !isValueAt (as ++ bs) p.2) =
      (bs.zipIdx.filter fun p => !isValueAt bs p.2).map fun p => (p.1, as.length + p.2) := by
    rw [List.zipIdx_eq_map_add, List.filter_map]
    refine congrArg (List.map _) (List.filter_congr fun p _ => ?_)
    exact congrArg (!·) (isValueAt_append_right h bs p.2)
  rw [standing, List.zipIdx_append, List.filter_append, Nat.zero_add, hfront, hback,
    List.map_append, List.map_map]
  rfl

theorem own_eq_standing (args : List String) : own args = standing args := by
  fun_induction own args with
  | case1 => rfl
  | case2 a => rfl
  | case3 a b rest hv ih =>
    -- the value is read with its flag, and what comes behind it starts anew
    have hpair : isValueAt [a, b] 2 = false := by simp [isValueAt, hv]
    have hone : standing [a, b] = [a] := by simp [standing, isValueAt, hv]
    rw [ih, ← List.singleton_append, ← hone]
    exact (standing_append hpair rest).symm
  | case4 a b rest hv ih =>
    have hlone : isValueAt [a] 1 = false := by simp [isValueAt, hv]
    rw [ih]
    exact (standing_append hlone (b :: rest)).symm

/-- arguments before which no value is awaited are kept as if they stood alone -/
theorem keep_append {as : List String} (h : isValueAt as as.length = false) (bs : List String) :
    keep (as ++ bs) = keep as ++ keep bs := by
  simp only [keep_eq_filter_own, own_eq_standing, standing_append h, List.filter_append]

theorem keep_eq_places (args : List String) : keep args =
    (args.zipIdx.filter fun p => !isValueAt args p.2 && isKept p.1).map (·.1) := by
  rw [keep_eq_filter_own, own_eq_standing, standing, List.filter_map, List.filter_filter]
  refine congrArg (List.map _) (List.filter_congr fun p _ => Bool.and_comm _ _)

/-- Launchers alone leave nothing. Behind the replaced compiler stands what is neither a value nor
dropped, and a call may be cut wherever no flag awaits its value. -/
theorem retarget_keeps (d : Drivers) :
    (∀ argv, (∀ a ∈ argv, isLauncher a = true) ∧ retarget d argv = [] ∨
      ∃ front compiler rest tail, argv = front ++ compiler :: rest ∧
        (∀ a ∈ front, isLauncher a = true) ∧ isLauncher compiler = false ∧
        retarget d argv = d.replacementFor compiler :: tail ∧ tail.Sublist rest ∧
        (∀ a ∈ tail, takesValue a = false ∧ isDependency a = false ∧ isForeign a = false) ∧
        tail = (rest.zipIdx.filter fun p => !isValueAt rest p.2 &&
          !(takesValue p.1 || isDependency p.1 || isForeign p.1)).map (·.1)) ∧
    ∀ compiler as bs, isLauncher compiler = false → isValueAt as as.length = false →
      retarget d (compiler :: (as ++ bs)) =
        retarget d (compiler :: as) ++ (retarget d (compiler :: bs)).tail := by
  have hkept : ∀ a, isKept a = !(takesValue a || isDependency a || isForeign a) := fun a => by
    rw [isKept, isDropped, ← Bool.not_or, Bool.or_assoc]
  constructor
  · intro argv
    rcases launchers_or argv with hall | ⟨front, compiler, rest, rfl, hfront, hcompiler⟩
    · exact .inl ⟨hall, retarget_of_launchers d hall⟩
    · refine .inr ⟨front, compiler, rest, keep rest, rfl, hfront, hcompiler,
        retarget_behind d hfront hcompiler rest, keep_sublist rest, fun a ha => ?_, ?_⟩
      · rw [keep_eq_filter_own] at ha
        simpa [hkept, and_assoc] using (List.mem_filter.1 ha).2
      · simp only [keep_eq_places, hkept]
  · intro compiler as bs hcompiler has
    have hbehind : ∀ rest, retarget d (compiler :: rest) =
        d.replacementFor compiler :: keep rest :=
      retarget_behind d (List.forall_mem_nil _) hcompiler
    rw [hbehind, hbehind, hbehind, keep_append has]
    rfl

theorem retarget_keeps_flagAsValue :
    isLauncher "/usr/bin/gcc-9" = false ∧ isValueAt ["-MF", "-MT", "-c"] 3 = false ∧
      retarget {} ["/usr/bin/gcc-9", "-MF", "-MT", "-c", "-MP", "-E", "-MQ"] =
        ["clang", "-c"] ++ ["-E"] := by
  have hcompiler : isLauncher "/usr/bin/gcc-9" = false := by decide +kernel
  have hvalue : isValueAt ["-MF", "-MT", "-c"] 3 = false := by decide +kernel
  refine ⟨hcompiler, hvalue, ?_⟩
  have hsplit := (retarget_keeps {}).2 "/usr/bin/gcc-9" ["-MF", "-MT", "-c"] ["-MP", "-E", "-MQ"]
    hcompiler hvalue
  exact hsplit.trans (by decide +kernel)

end Triage.Arguments
