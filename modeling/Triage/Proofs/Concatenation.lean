import Triage.Proofs.SecondPass

/-!
# Databases one behind the other

What becomes of an entry depends on the entry, and on nothing before it but the actions already
there.

* `Drivers.alone`          the entry that retargeting makes of one on its own, if any;
* `retarget_eq_ok_iff`     a database is retargeted when each of its entries can be on its own, and
                           then to the first of each action among what they give
                           (`Retargeted.ofActions`);
* `ofActions_append`       behind other entries, those are kept whose actions are new;
* `length_ofActions`       every entry is kept, skipped or a duplicate;
* `retarget_eq_error_iff`  the fault of a database is that of the first entry that has one;
* `retarget_in_parts`      so two databases can be retargeted apart and put together.
-/

namespace Triage

/-! ## what is made of the actions -/

/-- the first of each action among some, taken from so many entries -/
def Retargeted.ofActions (count : Nat) (actions : List BuildStep) : Retargeted :=
  ⟨firstOfEach BuildStep.action actions, count - actions.length,
    actions.length - (firstOfEach BuildStep.action actions).length⟩

namespace Retargeted

/-- the entry does what none of the others does -/
def isNew (entries : List BuildStep) (e : BuildStep) : Bool :=
  decide (e.action ∉ entries.map BuildStep.action)

theorem length_ofActions {count : Nat} {actions : List BuildStep} (h : actions.length ≤ count) :
    (ofActions count actions).entries.length + (ofActions count actions).skipped +
      (ofActions count actions).duplicates = count := by
  have hkept := (firstOfEach_sublist BuildStep.action actions).length_le
  simp only [ofActions]
  omega

theorem entries_append (as bs : List BuildStep) :
    firstOfEach BuildStep.action (as ++ bs) = firstOfEach BuildStep.action as ++
      (firstOfEach BuildStep.action bs).filter (isNew (firstOfEach BuildStep.action as)) := by
  rw [firstOfEach_append]
  refine congrArg (_ ++ ·) (List.filter_congr fun b _ => ?_)
  rw [Bool.eq_iff_iff, isNew, decide_eq_true_iff, mem_keys_firstOfEach, List.mem_map]
  simp only [Bool.not_eq_true', List.any_eq_false, beq_iff_eq, not_exists, not_and]

theorem ofActions_append {m n : Nat} {as bs : List BuildStep} (ha : as.length ≤ m)
    (hb : bs.length ≤ n) : ofActions (m + n) (as ++ bs) =
      ⟨(ofActions m as).entries ++
          (ofActions n bs).entries.filter (isNew (ofActions m as).entries),
        (ofActions m as).skipped + (ofActions n bs).skipped,
        (ofActions m as).duplicates + (ofActions n bs).duplicates +
          (ofActions n bs).entries.countP (!isNew (ofActions m as).entries ·)⟩ := by
  have hkepta := (firstOfEach_sublist BuildStep.action as).length_le
  have hkeptb := (firstOfEach_sublist BuildStep.action bs).length_le
  have hsplit := List.length_eq_length_filter_add (l := firstOfEach BuildStep.action bs)
    (isNew (firstOfEach BuildStep.action as))
  rw [ofActions, mk.injEq, entries_append, List.length_append, List.length_append]
  simp only [ofActions, List.countP_eq_length_filter, true_and]
  omega

end Retargeted

namespace Drivers

variable {d : Drivers} {read : ReadBytes}

/-! ## entries on their own -/

/-- the entry that retargeting makes of one on its own, if that is a compile action -/
def alone (d : Drivers) (read : ReadBytes) (e : BuildStep) : Option BuildStep :=
  match d.retarget read [e] with
  | .ok r => r.entries.head?
  | .error _ => none

theorem prepare_congr {i : Nat} {e : BuildStep} {p : Option BuildStep}
    (h : d.prepare read i e = .ok p) (j : Nat) : d.prepare read j e = .ok p := by
  obtain ⟨args, argv, hargs, hexp⟩ := prepare_eq_ok.1 h
  exact prepare_eq_ok.2 ⟨args, argv, BuildStep.argv_congr hargs j, hexp⟩

theorem retarget_singleton (e : BuildStep) : d.retarget read [e] =
    (d.prepare read 0 e).map fun p => ⟨p.toList, 1 - p.toList.length, 0⟩ := by
  rw [retarget, prepareFrom]
  cases d.prepare read 0 e with
  | error fault => rfl
  | ok p => cases p <;> rfl

theorem exists_retarget_singleton {e : BuildStep} :
    (∃ r, d.retarget read [e] = .ok r) ↔ ∃ p, d.prepare read 0 e = .ok p := by
  rw [retarget_singleton]
  cases d.prepare read 0 e with
  | error fault => exact ⟨nofun, nofun⟩
  | ok p => exact ⟨fun _ => ⟨p, rfl⟩, fun _ => ⟨_, rfl⟩⟩

theorem alone_eq {i : Nat} {e : BuildStep} {p : Option BuildStep}
    (h : d.prepare read i e = .ok p) : d.alone read e = p := by
  rw [alone, retarget_singleton, prepare_congr h 0]
  cases p <;> rfl

/-- what is kept of an entry on its own has its directory, its file and its output -/
theorem exists_of_alone {e f : BuildStep} (h : d.alone read e = some f) :
    ∃ argv, f = d.retargetStep e argv := by
  cases hp : d.prepare read 0 e with
  | error fault =>
    rw [alone, retarget_singleton, hp] at h
    cases h
  | ok p =>
    obtain ⟨args, argv, -, -, -, hpe⟩ := prepare_eq_ok.1 hp
    rw [alone_eq hp, hpe] at h
    split at h
    · exact ⟨argv, (Option.some.inj h).symm⟩
    · cases h

theorem prepareFrom_eq_ok_iff {es : List BuildStep} :
    ∀ {index : Nat} {ps : List (Option BuildStep)}, d.prepareFrom read index es = .ok ps ↔
      (∀ e ∈ es, ∃ r, d.retarget read [e] = .ok r) ∧ ps = es.map (d.alone read) := by
  induction es with
  | nil =>
    intro index ps
    exact ⟨fun h => ⟨nofun, (Except.ok.inj h).symm⟩, fun h => congrArg Except.ok h.2.symm⟩
  | cons e es ih =>
    intro index ps
    rw [prepareFrom_cons_eq_ok, List.forall_mem_cons, exists_retarget_singleton, List.map_cons]
    constructor
    · rintro ⟨p, rest, hp, hrest, rfl⟩
      obtain ⟨hall, rfl⟩ := ih.1 hrest
      exact ⟨⟨⟨p, prepare_congr hp 0⟩, hall⟩, by rw [alone_eq hp]⟩
    · rintro ⟨⟨⟨p, hp⟩, hall⟩, rfl⟩
      refine ⟨p, _, prepare_congr hp index, ih.2 ⟨hall, rfl⟩, ?_⟩
      rw [alone_eq hp]

/-! ## all entries -/

theorem retarget_eq_ok_iff {es : List BuildStep} {r : Retargeted} :
    d.retarget read es = .ok r ↔ (∀ e ∈ es, ∃ r, d.retarget read [e] = .ok r) ∧
      r = .ofActions es.length (es.filterMap (d.alone read)) := by
  have hactions : (es.map (d.alone read)).filterMap id = es.filterMap (d.alone read) :=
    List.filterMap_map
  have hresult : ∀ ps, ps = es.map (d.alone read) →
      (⟨firstOfEach BuildStep.action (ps.filterMap id), ps.length - (ps.filterMap id).length,
        (ps.filterMap id).length - (firstOfEach BuildStep.action (ps.filterMap id)).length⟩ :
          Retargeted) = .ofActions es.length (es.filterMap (d.alone read)) := by
    rintro _ rfl
    rw [hactions, List.length_map]
    rfl
  constructor
  · intro h
    obtain ⟨ps, hps, h⟩ := Response.exists_of_bind_eq_ok h
    cases h
    obtain ⟨hall, hp⟩ := prepareFrom_eq_ok_iff.1 hps
    exact ⟨hall, hresult ps hp⟩
  · rintro ⟨hall, rfl⟩
    rw [retarget, prepareFrom_eq_ok_iff.2 ⟨hall, rfl⟩]
    exact congrArg Except.ok (hresult _ rfl)

theorem length_actions_le (es : List BuildStep) : (es.filterMap (d.alone read)).length ≤ es.length :=
  List.length_filterMap_le _ es

theorem retarget_append {xs ys : List BuildStep} {r s : Retargeted}
    (hx : d.retarget read xs = .ok r) (hy : d.retarget read ys = .ok s) :
    d.retarget read (xs ++ ys) =
      .ok ⟨r.entries ++ s.entries.filter (Retargeted.isNew r.entries), r.skipped + s.skipped,
        r.duplicates + s.duplicates + s.entries.countP (!Retargeted.isNew r.entries ·)⟩ := by
  obtain ⟨hallx, rfl⟩ := retarget_eq_ok_iff.1 hx
  obtain ⟨hally, rfl⟩ := retarget_eq_ok_iff.1 hy
  refine retarget_eq_ok_iff.2 ⟨List.forall_mem_append.2 ⟨hallx, hally⟩, ?_⟩
  rw [List.filterMap_append, List.length_append,
    Retargeted.ofActions_append (length_actions_le xs) (length_actions_le ys)]

theorem prepareFrom_cons_eq_error {index : Nat} {e : BuildStep} {es : List BuildStep}
    {fault : BuildFault} : d.prepareFrom read index (e :: es) = .error fault ↔
      d.prepare read index e = .error fault ∨
        (∃ p, d.prepare read index e = .ok p) ∧
          d.prepareFrom read (index + 1) es = .error fault := by
  rw [prepareFrom]
  cases d.prepare read index e with
  | error fault => simp [bind, Except.bind]
  | ok p => cases d.prepareFrom read (index + 1) es <;> simp [bind, Except.bind]

theorem prepareFrom_eq_error_iff {es : List BuildStep} {fault : BuildFault} :
    ∀ {index : Nat}, d.prepareFrom read index es = .error fault ↔
      ∃ before e after, es = before ++ e :: after ∧
        (∀ g ∈ before, ∃ r, d.retarget read [g] = .ok r) ∧
        d.prepare read (index + before.length) e = .error fault := by
  induction es with
  | nil =>
    intro index
    refine ⟨nofun, fun ⟨before, e, after, h, _⟩ => ?_⟩
    cases before <;> cases h
  | cons e es ih =>
    intro index
    rw [prepareFrom_cons_eq_error]
    constructor
    · rintro (hfault | ⟨⟨p, hp⟩, hlater⟩)
      · exact ⟨[], e, es, rfl, nofun, hfault⟩
      · obtain ⟨before, g, after, rfl, hbefore, hg⟩ := ih.1 hlater
        refine ⟨e :: before, g, after, rfl, List.forall_mem_cons.2 ⟨?_, hbefore⟩, ?_⟩
        · exact exists_retarget_singleton.2 ⟨p, prepare_congr hp 0⟩
        · rwa [List.length_cons, Nat.add_comm before.length, ← Nat.add_assoc]
    · rintro ⟨before, g, after, hes, hbefore, hg⟩
      cases before with
      | nil =>
        cases hes
        exact .inl hg
      | cons b before =>
        cases hes
        obtain ⟨hb, hbefore⟩ := List.forall_mem_cons.1 hbefore
        obtain ⟨p, hp⟩ := exists_retarget_singleton.1 hb
        rw [List.length_cons, Nat.add_comm before.length, ← Nat.add_assoc] at hg
        exact .inr ⟨⟨p, prepare_congr hp index⟩, ih.2 ⟨before, g, after, rfl, hbefore, hg⟩⟩

/-- the fault is that of the first entry that has one, counted where it stands -/
theorem retarget_eq_error_iff {es : List BuildStep} {fault : BuildFault} :
    d.retarget read es = .error fault ↔ ∃ before e after, es = before ++ e :: after ∧
      (∀ g ∈ before, ∃ r, d.retarget read [g] = .ok r) ∧
      d.prepare read before.length e = .error fault := by
  have hfrom : d.retarget read es = .error fault ↔ d.prepareFrom read 0 es = .error fault := by
    rw [retarget]
    cases d.prepareFrom read 0 es <;> simp [bind, Except.bind]
  rw [hfrom, prepareFrom_eq_error_iff]
  simp only [Nat.zero_add]

theorem exists_error_iff {es : List BuildStep} : (∃ fault, d.retarget read es = .error fault) ↔
    ∃ e ∈ es, ∃ fault, d.retarget read [e] = .error fault := by
  have herror : ∀ fs, (∃ fault, d.retarget read fs = .error fault) ↔
      ¬ ∃ r, d.retarget read fs = .ok r := fun fs => by
    cases d.retarget read fs <;> simp
  have hall : (∃ r, d.retarget read es = .ok r) ↔ ∀ e ∈ es, ∃ r, d.retarget read [e] = .ok r :=
    ⟨fun ⟨_, h⟩ => (retarget_eq_ok_iff.1 h).1, fun h => ⟨_, retarget_eq_ok_iff.2 ⟨h, rfl⟩⟩⟩
  rw [herror, hall]
  simp only [herror, not_forall, exists_prop]

/-- what is skipped is what nothing is made of -/
theorem skipped_eq {es : List BuildStep} {r : Retargeted} (h : d.retarget read es = .ok r) :
    r.skipped = es.countP (d.alone read · |>.isNone) := by
  obtain ⟨-, rfl⟩ := retarget_eq_ok_iff.1 h
  have hsplit := es.length_eq_length_filter_add (d.alone read · |>.isSome)
  rw [Retargeted.ofActions, List.length_filterMap_eq_countP, hsplit,
    List.countP_eq_length_filter, List.countP_eq_length_filter, Nat.add_sub_cancel_left]
  simp only [Option.not_isSome]

/-- an entry is kept when nothing before it does the same -/
theorem mem_entries_iff {es : List BuildStep} {r : Retargeted} (h : d.retarget read es = .ok r)
    (f : BuildStep) : f ∈ r.entries ↔ ∃ before e after, es = before ++ e :: after ∧
      d.alone read e = some f ∧ f.output = e.output ∧
      ∀ g ∈ before, ∀ f', d.alone read g = some f' → f'.action ≠ f.action := by
  obtain ⟨-, rfl⟩ := retarget_eq_ok_iff.1 h
  rw [Retargeted.ofActions, mem_firstOfEach_filterMap]
  refine exists_congr fun before => exists_congr fun e => exists_congr fun after =>
    and_congr_right fun _ => and_congr_right fun he => (and_iff_right ?_).symm
  obtain ⟨argv, rfl⟩ := exists_of_alone he
  rfl

end Drivers

/-- Behind another database a database adds the entries whose actions are new, and the others are
duplicates. Every entry is counted once, and the kept ones are the first of their actions in the order
in which they came. A database fails exactly when an entry fails on its own. -/
theorem retarget_in_parts (d : Drivers) (read : ReadBytes) :
    (∀ xs ys r s, d.retarget read xs = .ok r → d.retarget read ys = .ok s →
      d.retarget read (xs ++ ys) =
        .ok ⟨r.entries ++ s.entries.filter (Retargeted.isNew r.entries), r.skipped + s.skipped,
          r.duplicates + s.duplicates + s.entries.countP (!Retargeted.isNew r.entries ·)⟩) ∧
    (∀ es r, d.retarget read es = .ok r →
      r.entries.length + r.skipped + r.duplicates = es.length ∧
      r.skipped = es.countP (d.alone read · |>.isNone) ∧
      (r.entries.map BuildStep.action).Nodup ∧
      r.entries.Sublist (es.filterMap (d.alone read)) ∧
      ∀ f, f ∈ r.entries ↔ ∃ before e after, es = before ++ e :: after ∧
        d.alone read e = some f ∧ f.output = e.output ∧
        ∀ g ∈ before, ∀ f', d.alone read g = some f' → f'.action ≠ f.action) ∧
    ∀ es, ((∃ fault, d.retarget read es = .error fault) ↔
        ∃ e ∈ es, ∃ fault, d.retarget read [e] = .error fault) ∧
      ∀ fault, d.retarget read es = .error fault ↔ ∃ before e after, es = before ++ e :: after ∧
        (∀ g ∈ before, ∃ r, d.retarget read [g] = .ok r) ∧
        d.prepare read before.length e = .error fault := by
  refine ⟨fun xs ys r s => Drivers.retarget_append, fun es r h => ?_, fun es =>
    ⟨Drivers.exists_error_iff, fun fault => Drivers.retarget_eq_error_iff⟩⟩
  have hmem := Drivers.mem_entries_iff h
  have hskipped := Drivers.skipped_eq h
  have hnodup := Drivers.nodup_actions h
  obtain ⟨-, rfl⟩ := Drivers.retarget_eq_ok_iff.1 h
  exact ⟨Retargeted.length_ofActions (Drivers.length_actions_le es), hskipped, hnodup,
    firstOfEach_sublist _ _, hmem⟩

/-- a compile action and a link -/
def objectSteps : List BuildStep :=
  [⟨"/b", "a.c", none, some "gcc -c a.c", some "a.o"⟩,
   ⟨"/b", "a.o", none, some "gcc a.o -o app", none⟩]

/-- another compile action, and the first one again with another output -/
def repeatedSteps : List BuildStep :=
  [⟨"/b", "b.c", some ["cc", "-c", "b.c"], none, none⟩,
   ⟨"/b", "a.c", none, some "ccache gcc -MD -c a.c", some "b.o"⟩]

theorem retarget_in_parts_repeatedSteps :
    ({} : Drivers).retarget (fun _ => .error .notFound) (objectSteps ++ repeatedSteps) =
        .ok ⟨[⟨"/b", "a.c", some ["clang", "-c", "a.c"], none, some "a.o"⟩,
          ⟨"/b", "b.c", some ["clang", "-c", "b.c"], none, none⟩], 1, 1⟩ ∧
      objectSteps.countP (({} : Drivers).alone (fun _ => .error .notFound) · |>.isNone) = 1 := by
  obtain ⟨happend, heach, -⟩ := retarget_in_parts {} fun _ => .error .notFound
  have hobject : ({} : Drivers).retarget (fun _ => .error .notFound) objectSteps =
      .ok ⟨[⟨"/b", "a.c", some ["clang", "-c", "a.c"], none, some "a.o"⟩], 1, 0⟩ := by
    decide +kernel
  have hrepeated : ({} : Drivers).retarget (fun _ => .error .notFound) repeatedSteps =
      .ok ⟨[⟨"/b", "b.c", some ["clang", "-c", "b.c"], none, none⟩,
        ⟨"/b", "a.c", some ["clang", "-c", "a.c"], none, some "b.o"⟩], 0, 0⟩ := by
    decide +kernel
  refine ⟨(happend _ _ _ _ hobject hrepeated).trans (by decide +kernel), ?_⟩
  exact (heach _ _ hobject).2.1.symm

end Triage
