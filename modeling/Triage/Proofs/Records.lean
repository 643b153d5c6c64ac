import Triage.Proofs.Columns
import Triage.Proofs.CompactTexts
import Triage.Report.Format

/-!
# Scopes and stores read back from what is written for them

* `ReadsBack d r w a`     what `w` writes for `a` nests at most `d` deep, and `r` reads it as `a`;
* `Column d name c fs a`  the fields written under one name, one or none: `c` reads their column as
                          `a`, also when the field has been left out;
* `record_columns`        a record put together from such fields has them for its columns;
* `readsBack`             of each of the formats;
* `written_reads_back`    so the compact text reads back, and no two texts are the same.
-/

namespace Triage.Json

open List (Forall₂)

variable {α : Type}

/-- what is written for this value is plain, and is read as this value -/
structure ReadsBack (d : Nat) (r : Reader α) (w : α → Value) (a : α) : Prop where
  plain : (w a).Plain d
  read : r (.ofValue (w a)) = some a

theorem ReadsBack.compact {d : Nat} {r : Reader α} {w : α → Value} {a : α}
    (h : ReadsBack d r w a) : parseAs? r (w a).compact = some a := by
  rw [parseAs?, Value.term_compact h.plain, Option.bind_some, h.read]

/-- no two values are written as one text -/
theorem ReadsBack.eq_of_compact {d : Nat} {r : Reader α} {w : α → Value} {a b : α}
    (ha : ReadsBack d r w a) (hb : ReadsBack d r w b) (h : (w a).compact = (w b).compact) :
    a = b := by
  have hread := ha.compact
  rw [h, hb.compact] at hread
  exact (Option.some.inj hread).symm

/-! ## elementary values -/

def IsInt64 (n : Int) : Prop := -9223372036854775808 ≤ n ∧ n ≤ 9223372036854775807

instance (n : Int) : Decidable (IsInt64 n) :=
  inferInstanceAs (Decidable (-9223372036854775808 ≤ n ∧ n ≤ 9223372036854775807))

theorem readInt_ofInt {lo hi n : Int} (h : IsInt64 n) (hn : lo ≤ n ∧ n ≤ hi) :
    readInt lo hi (.ofValue (.int n)) = some n := by
  rw [Term.ofValue, readInt, Literal.integer?_ofInt h.1 (Int.lt_of_le_of_lt h.2 (by decide)),
    Option.filter_some, if_pos (decide_eq_true hn)]

theorem plain_int (d : Nat) {n : Int} (h : IsInt64 n) : (Value.int n).Plain d :=
  .int d h.1 (Int.lt_of_le_of_lt h.2 (by decide))

theorem readsBack_int (d : Nat) {n : Int} (h : IsInt64 n) : ReadsBack d readInt64 .int n :=
  ⟨plain_int d h, readInt_ofInt h h⟩

theorem readsBack_nat (d : Nat) {n : Nat} (h : n ≤ Text.maxWord32) :
    ReadsBack d readNat32 natJson n := by
  have hrange : (0 : Int) ≤ n ∧ (n : Int) ≤ Text.maxWord32 := ⟨Int.natCast_nonneg n, by omega⟩
  have hlong : IsInt64 n := by
    have hmax : Text.maxWord32 = 4294967295 := rfl
    constructor <;> omega
  exact ⟨plain_int d hlong, by rw [readNat32, natJson, readInt_ofInt hlong hrange]; rfl⟩

theorem readsBack_text (d : Nat) (s : String) : ReadsBack d readText .text s := by
  refine ⟨.text d s, ?_⟩
  rw [Term.ofValue, readText, Piece.decode?_ofChar, Option.map_some, String.ofList_toList]

theorem readsBack_bool (d : Nat) (b : Bool) : ReadsBack d readBool .bool b := ⟨.bool d b, rfl⟩

theorem readsBack_code [Coded α] (d : Nat) {a : α}
    (h : -2147483648 ≤ Coded.code a ∧ Coded.code a ≤ 2147483647)
    (ha : Coded.ofCode? (Coded.code a) = some a) : ReadsBack d Coded.ofJson Coded.toJson a := by
  have hlong : IsInt64 (Coded.code a) := by
    obtain ⟨h1, h2⟩ := h
    constructor <;> omega
  refine ⟨plain_int d hlong, ?_⟩
  rw [Coded.ofJson, readInt32, Coded.toJson, readInt_ofInt hlong h, Option.bind_some, ha]

theorem readsBack_severity (d : Nat) (a : Severity) : ReadsBack d Coded.ofJson Coded.toJson a := by
  cases a <;> exact readsBack_code d (by decide) rfl

theorem readsBack_reviewStatus (d : Nat) (a : ReviewStatus) :
    ReadsBack d Coded.ofJson Coded.toJson a := by
  cases a <;> exact readsBack_code d (by decide) rfl

theorem readsBack_detectionStatus (d : Nat) (a : DetectionStatus) :
    ReadsBack d Coded.ofJson Coded.toJson a := by
  cases a <;> exact readsBack_code d (by decide) rfl

theorem readsBack_diffType (d : Nat) (a : DiffType) : ReadsBack d Coded.ofJson Coded.toJson a := by
  cases a <;> exact readsBack_code d (by decide) rfl

/-! ## lists and absent values -/

variable {d : Nat} {r : Reader α} {w : α → Value}

theorem readAll_ofValues {as : List α} (h : ∀ a ∈ as, ReadsBack d r w a) :
    readAll r (Term.ofValues (as.map w)) = some as := by
  induction as with
  | nil => rfl
  | cons a as ih =>
    rw [List.map_cons, Term.ofValues, readAll, (h a List.mem_cons_self).read,
      ih fun b hb => h b (List.mem_cons_of_mem _ hb)]
    rfl

theorem readsBack_list {as : List α} (h : ∀ a ∈ as, ReadsBack d r w a) :
    ReadsBack (d + 1) (readList r) (fun as => .list (as.map w)) as := by
  refine ⟨.list fun v hv => ?_, readAll_ofValues h⟩
  obtain ⟨a, ha, rfl⟩ := List.mem_map.1 hv
  exact (h a ha).plain

/-- a reader that does not take null tells null from a value -/
theorem readOption_some (hnull : r .null = none) {t : Term} {a : α} (h : r t = some a) :
    readOption r t = some (some a) := by
  have hne : t ≠ .null := fun ht => by
    rw [ht, hnull] at h
    cases h
  rw [readOption, h]
  · rfl
  · exact hne

theorem readsBack_orNull (hnull : r .null = none) {o : Option α}
    (h : ∀ a ∈ o, ReadsBack d r w a) : ReadsBack d (readOption r) (Value.orNull w) o := by
  cases o with
  | none => exact ⟨.null d, rfl⟩
  | some a => exact ⟨(h a rfl).plain, readOption_some hnull (h a rfl).read⟩

/-! ## fields -/

/-- the column of the fields with one name -/
def column (fields : List (String × Value)) : Option Term :=
  fields.head?.map fun e => .ofValue e.2

/-- one plain field with this name, or none -/
structure IsColumn (d : Nat) (name : String) (fields : List (String × Value)) : Prop where
  named : (fields.map (·.1)).Sublist [name]
  plain : ∀ e ∈ fields, e.2.Plain d

/-- and their column is read as this value -/
structure Column (d : Nat) (name : String) (c : Option Term → Option α)
    (fields : List (String × Value)) (a : α) : Prop extends IsColumn d name fields where
  read : c (column fields) = some a

section
variable (name : String)

theorem column_missing {c : Option Term → Option α} {a : α} (h : c none = some a) :
    Column d name c [] a :=
  ⟨⟨List.nil_sublist _, fun _ he => by cases he⟩, h⟩

theorem column_given {c : Option Term → Option α} {v : Value} {a : α} (hv : v.Plain d)
    (h : c (some (.ofValue v)) = some a) : Column d name c [(name, v)] a :=
  ⟨⟨List.Sublist.refl _, fun e he => by rw [List.mem_singleton.1 he]; exact hv⟩, h⟩

theorem column_need {a : α} (h : ReadsBack d r w a) : Column d name (need r) [(name, w a)] a :=
  column_given name h.plain h.read

theorem column_orElse (x : α) {a : α} (h : ReadsBack d r w a) :
    Column d name (orElse r x) [(name, w a)] a :=
  column_given name h.plain h.read

theorem column_nonEmpty {as : List α} (h : ∀ a ∈ as, ReadsBack d r w a) :
    Column (d + 1) name (orElse (readList r) []) (Value.nonEmpty name w as) as := by
  cases as with
  | nil => exact column_missing name rfl
  | cons a as => exact column_orElse name [] (readsBack_list h)

theorem column_optional (hnull : r .null = none) {o : Option α}
    (h : ∀ a ∈ o, ReadsBack d r w a) :
    Column d name (orElse (readOption r) none) (Value.optional name w o) o := by
  cases o with
  | none => exact column_missing name rfl
  | some a => exact column_given name (h a rfl).plain (readOption_some hnull (h a rfl).read)

theorem fieldsNamed_ofFields (fields : List (String × Value)) :
    fieldsNamed name (Term.ofFields fields) =
      some ((fields.filter (·.1 == name)).map fun e => .ofValue e.2) := by
  induction fields with
  | nil => rfl
  | cons e fields ih =>
    obtain ⟨key, v⟩ := e
    rw [Term.ofFields, fieldsNamed, Piece.decode?_ofChar, ih]
    simp only [bind, Option.bind_some, String.ofList_toList]
    rw [List.filter_cons]
    by_cases hkey : key = name
    · rw [if_pos hkey, if_pos (beq_iff_eq.2 hkey), List.map_cons]
    · rw [if_neg hkey, if_neg fun hb => hkey (beq_iff_eq.1 hb)]

end

section
variable {names : List String} {fss : List (List (String × Value))}
  (h : Forall₂ (IsColumn d) names fss)
include h

theorem keys_flatten : (fss.flatten.map (·.1)).Sublist names := by
  induction h with
  | nil => exact List.Sublist.refl _
  | cons hfs _ ih =>
    rw [List.flatten_cons, List.map_append]
    exact hfs.named.append ih

theorem plain_flatten : ∀ e ∈ fss.flatten, e.2.Plain d := by
  intro e he
  obtain ⟨fs, hfs, he⟩ := List.mem_flatten.1 he
  obtain ⟨name, -, hcolumn⟩ := exists_of_forall₂ h.flip hfs
  exact hcolumn.plain e he

theorem length_of_columns : ∀ fs ∈ fss, fs.length ≤ 1 := by
  intro fs hfs
  obtain ⟨name, -, hcolumn⟩ := exists_of_forall₂ h.flip hfs
  have hlen := hcolumn.named.length_le
  rwa [List.length_map] at hlen

/-- each name finds its own fields among all of them -/
theorem filter_flatten (hn : names.Nodup) :
    names.map (fun name => fss.flatten.filter (·.1 == name)) = fss := by
  induction h with
  | nil => rfl
  | @cons name fs names fss hfs hrest ih =>
    obtain ⟨hname, hn⟩ := List.nodup_cons.1 hn
    have hkey : ∀ e ∈ fs, e.1 = name := fun e he =>
      List.mem_singleton.1 (hfs.named.subset (List.mem_map_of_mem he))
    have hothers : ∀ e ∈ fss.flatten, e.1 ∈ names := fun e he =>
      (keys_flatten hrest).subset (List.mem_map_of_mem he)
    have hown : fs.filter (·.1 == name) = fs :=
      List.filter_eq_self.2 fun e he => beq_iff_eq.2 (hkey e he)
    have hnone : fss.flatten.filter (·.1 == name) = [] :=
      List.filter_eq_nil_iff.2 fun e he hb => hname (beq_iff_eq.1 hb ▸ hothers e he)
    rw [List.map_cons, List.flatten_cons, List.filter_append, hown, hnone, List.append_nil]
    refine congrArg (fs :: ·) ((List.map_congr_left fun other hother => ?_).trans (ih hn))
    have hforeign : fs.filter (·.1 == other) = [] :=
      List.filter_eq_nil_iff.2 fun e he hb => by
        rw [hkey e he, beq_iff_eq] at hb
        exact hname (hb ▸ hother)
    rw [List.filter_append, hforeign, List.nil_append]

/-- a record of such fields is plain, and has them for its columns -/
theorem record_columns (hn : names.Nodup) : (Value.record fss.flatten).Plain (d + 1) ∧
    columns names (.ofValue (.record fss.flatten)) = some (fss.map column) := by
  refine ⟨.record (hn.sublist (keys_flatten h)) (plain_flatten h), ?_⟩
  have hfilter := filter_flatten h hn
  have hcolumns := (congrArg (List.map column) hfilter).symm.trans List.map_map
  rw [Term.ofValue, columns, columnsOf_eq_mapM, mapM_eq_some, hcolumns]
  refine List.forall₂_map_right_iff.2 (List.forall₂_same.2 fun name hname => ?_)
  have hmem : fss.flatten.filter (·.1 == name) ∈
      names.map fun name => fss.flatten.filter (·.1 == name) := List.mem_map_of_mem hname
  rw [hfilter] at hmem
  refine columnOf_eq_some.2 ⟨_, fieldsNamed_ofFields name _, ?_, List.head?_map⟩
  rw [List.length_map]
  exact length_of_columns h _ hmem

end

/-- what is put together from such fields reads back, if the reader finds it in the columns -/
theorem readsBack_record {names : List String} {fss : List (List (String × Value))} {a : α}
    (hw : w a = .record fss.flatten) (hn : names.Nodup) (h : Forall₂ (IsColumn d) names fss)
    (hr : ∀ t, columns names t = some (fss.map column) → r t = some a) :
    ReadsBack (d + 1) r w a := by
  obtain ⟨hplain, hcolumns⟩ := record_columns h hn
  rw [← hw] at hplain hcolumns
  exact ⟨hplain, hr _ hcolumns⟩

end Triage.Json

namespace Triage

open Json

/-! ## the formats -/

namespace Calendar.Interval

structure InRange (i : Interval) : Prop where
  after : ∀ n ∈ i.after, IsInt64 n
  before : ∀ n ∈ i.before, IsInt64 n

theorem readsBack (d : Nat) {i : Interval} (h : i.InRange) :
    ReadsBack (d + 1) ofJson toJson i := by
  have hafter := column_optional "after" rfl fun n hn => readsBack_int d (h.after n hn)
  have hbefore := column_optional "before" rfl fun n hn => readsBack_int d (h.before n hn)
  refine readsBack_record ?_ (by decide)
    (.cons hafter.toIsColumn (.cons hbefore.toIsColumn .nil)) fun t ht => ?_
  · simp only [toJson, List.flatten_cons, List.flatten_nil, List.append_nil]
  · simp only [ofJson, ht, List.map_cons, List.map_nil, hafter.read, hbefore.read]
    rfl

end Calendar.Interval

namespace LengthRange

structure InRange (r : LengthRange) : Prop where
  min : ∀ n ∈ r.min, n ≤ Text.maxWord32
  max : ∀ n ∈ r.max, n ≤ Text.maxWord32

theorem readsBack (d : Nat) {r : LengthRange} (h : r.InRange) :
    ReadsBack (d + 1) ofJson toJson r := by
  have hmin := column_optional "min" rfl fun n hn => readsBack_nat d (h.min n hn)
  have hmax := column_optional "max" rfl fun n hn => readsBack_nat d (h.max n hn)
  refine readsBack_record ?_ (by decide)
    (.cons hmin.toIsColumn (.cons hmax.toIsColumn .nil)) fun t ht => ?_
  · simp only [toJson, List.flatten_cons, List.flatten_nil, List.append_nil]
  · simp only [ofJson, ht, List.map_cons, List.map_nil, hmin.read, hmax.read]
    rfl

end LengthRange

namespace DateCondition

structure InRange (c : DateCondition) : Prop where
  detected : ∀ i ∈ c.detected, i.InRange
  fixed : ∀ i ∈ c.fixed, i.InRange

theorem readsBack (d : Nat) {c : DateCondition} (h : c.InRange) :
    ReadsBack (d + 2) ofJson toJson c := by
  have hdetected := column_optional "detected" rfl fun i hi =>
    Calendar.Interval.readsBack d (h.detected i hi)
  have hfixed := column_optional "fixed" rfl fun i hi =>
    Calendar.Interval.readsBack d (h.fixed i hi)
  refine readsBack_record ?_ (by decide)
    (.cons hdetected.toIsColumn (.cons hfixed.toIsColumn .nil)) fun t ht => ?_
  · simp only [toJson, List.flatten_cons, List.flatten_nil, List.append_nil]
  · simp only [ofJson, ht, List.map_cons, List.map_nil, hdetected.read, hfixed.read]
    rfl

/-- an empty condition is left out -/
theorem column_date (d : Nat) {c : DateCondition} (h : c.InRange) :
    Column (d + 2) "date" (orElse ofJson {})
      (if c.isEmpty then [] else [("date", c.toJson)]) c := by
  split
  · next hempty =>
    obtain ⟨detected, fixed⟩ := c
    simp only [isEmpty, Bool.and_eq_true, Option.isNone_iff_eq_none] at hempty
    obtain ⟨rfl, rfl⟩ := hempty
    exact column_missing "date" rfl
  · exact column_orElse "date" {} (readsBack d h)

end DateCondition

namespace ReportFilter

structure InRange (f : ReportFilter) : Prop where
  runTag : ∀ n ∈ f.runTag, IsInt64 n
  bugPathLength : ∀ r ∈ f.bugPathLength, r.InRange
  date : f.date.InRange

theorem readsBack (d : Nat) {f : ReportFilter} (h : f.InRange) :
    ReadsBack (d + 3) ofJson toJson f := by
  have htexts (name : String) (ss : List String) :
      Column (d + 2) name (orElse (readList readText) []) (Value.nonEmpty name .text ss) ss :=
    column_nonEmpty name fun s _ => readsBack_text (d + 1) s
  have hfilepath := htexts "filepath" f.filepath
  have hcheckerMsg := htexts "checkerMsg" f.checkerMsg
  have hcheckerName := htexts "checkerName" f.checkerName
  have hreportHash := htexts "reportHash" f.reportHash
  have hseverity : Column (d + 2) _ _ _ f.severity :=
    column_nonEmpty "severity" fun a _ => readsBack_severity (d + 1) a
  have hreview : Column (d + 2) _ _ _ f.reviewStatus :=
    column_nonEmpty "reviewStatus" fun a _ => readsBack_reviewStatus (d + 1) a
  have hdetection : Column (d + 2) _ _ _ f.detectionStatus :=
    column_nonEmpty "detectionStatus" fun a _ => readsBack_detectionStatus (d + 1) a
  have hrunTag := column_nonEmpty "runTag" fun n hn => readsBack_int (d + 1) (h.runTag n hn)
  have hcomponents := htexts "componentNames" f.componentNames
  have hlength := column_optional "bugPathLength" rfl fun r hr =>
    LengthRange.readsBack (d + 1) (h.bugPathLength r hr)
  have hdate := DateCondition.column_date d h.date
  have hunique := column_orElse "isUnique" false (readsBack_bool (d + 2) f.isUnique)
  refine readsBack_record ?_ (by decide : fieldNames.Nodup)
    (.cons hfilepath.toIsColumn <| .cons hcheckerMsg.toIsColumn <| .cons hcheckerName.toIsColumn <|
      .cons hreportHash.toIsColumn <| .cons hseverity.toIsColumn <| .cons hreview.toIsColumn <|
      .cons hdetection.toIsColumn <| .cons hrunTag.toIsColumn <| .cons hcomponents.toIsColumn <|
      .cons hlength.toIsColumn <| .cons hdate.toIsColumn <| .cons hunique.toIsColumn .nil)
    fun t ht => ?_
  · simp only [toJson, List.flatten_cons, List.flatten_nil, List.append_nil, List.append_assoc]
  · simp only [ofJson, ht, List.map_cons, List.map_nil, hfilepath.read, hcheckerMsg.read,
      hcheckerName.read, hreportHash.read, hseverity.read, hreview.read, hdetection.read,
      hrunTag.read, hcomponents.read, hlength.read, hdate.read, hunique.read]
    rfl

end ReportFilter

theorem Json.readsBack_ints (d : Nat) {ns : List Int} (h : ∀ n ∈ ns, IsInt64 n) :
    ReadsBack (d + 1) (readList readInt64) Value.ints ns :=
  readsBack_list fun n hn => readsBack_int d (h n hn)

namespace Comparison

structure InRange (c : Comparison) : Prop where
  runIds : ∀ ns ∈ c.runIds, ∀ n ∈ ns, IsInt64 n
  runTag : ∀ ns ∈ c.runTag, ∀ n ∈ ns, IsInt64 n

theorem readsBack (d : Nat) {c : Comparison} (h : c.InRange) :
    ReadsBack (d + 2) ofJson toJson c := by
  have hruns := column_optional "runIds" rfl fun ns hns => readsBack_ints d (h.runIds ns hns)
  have htags := column_optional "runTag" rfl fun ns hns => readsBack_ints d (h.runTag ns hns)
  have hdiff := column_orElse "diffType" .new (readsBack_diffType (d + 1) c.diffType)
  refine readsBack_record ?_ (by decide)
    (.cons hruns.toIsColumn <| .cons htags.toIsColumn <| .cons hdiff.toIsColumn .nil)
    fun t ht => ?_
  · simp only [toJson, List.flatten_cons, List.flatten_nil, List.append_nil, List.append_assoc]
  · simp only [ofJson, ht, List.map_cons, List.map_nil, hruns.read, htags.read, hdiff.read]
    rfl

end Comparison

namespace Scope

structure InRange (s : Scope) : Prop where
  runIds : ∀ n ∈ s.runIds, IsInt64 n
  filter : s.filter.InRange
  comparison : ∀ c ∈ s.comparison, c.InRange

theorem readsBack (d : Nat) {s : Scope} (h : s.InRange) : ReadsBack (d + 4) ofJson toJson s := by
  have hruns := column_need "runIds" (readsBack_ints (d + 2) h.runIds)
  have hfilter := column_need "reportFilter" (ReportFilter.readsBack d h.filter)
  have hcomparison := column_optional "cmpData" rfl fun c hc =>
    Comparison.readsBack (d + 1) (h.comparison c hc)
  refine readsBack_record ?_ (by decide)
    (.cons hruns.toIsColumn <| .cons hfilter.toIsColumn <| .cons hcomparison.toIsColumn .nil)
    fun t ht => ?_
  · simp only [toJson, List.flatten_cons, List.flatten_nil, List.append_nil, List.cons_append,
      List.nil_append]
  · simp only [ofJson, ht, List.map_cons, List.map_nil, hruns.read, hfilter.read,
      hcomparison.read]
    rfl

end Scope

namespace Run

structure InRange (r : Run) : Prop where
  id : IsInt64 r.id

theorem readsBack (d : Nat) {r : Run} (h : r.InRange) : ReadsBack (d + 1) ofJson toJson r := by
  have hid := column_need "id" (readsBack_int d h.id)
  have hname := column_need "name" (readsBack_text d r.name)
  refine readsBack_record rfl (by decide) (.cons hid.toIsColumn <| .cons hname.toIsColumn .nil)
    fun t ht => ?_
  simp only [ofJson, ht, List.map_cons, List.map_nil, hid.read, hname.read]
  rfl

end Run

namespace RunTag

structure InRange (t : RunTag) : Prop where
  id : IsInt64 t.id
  runId : IsInt64 t.runId
  timestamp : IsInt64 t.timestamp

theorem readsBack (d : Nat) {tag : RunTag} (h : tag.InRange) :
    ReadsBack (d + 1) ofJson toJson tag := by
  have hid := column_need "id" (readsBack_int d h.id)
  have hrun := column_need "run_id" (readsBack_int d h.runId)
  have htag := column_need "tag" (readsBack_text d tag.tag)
  have htime := column_need "timestamp" (readsBack_int d h.timestamp)
  refine readsBack_record rfl (by decide) (.cons hid.toIsColumn <| .cons hrun.toIsColumn <|
    .cons htag.toIsColumn <| .cons htime.toIsColumn .nil) fun t ht => ?_
  simp only [ofJson, ht, List.map_cons, List.map_nil, hid.read, hrun.read, htag.read, htime.read]
  rfl

end RunTag

namespace Report

structure InRange (r : Report) : Prop where
  id : IsInt64 r.id
  runId : IsInt64 r.runId
  detectedAt : IsInt64 r.detectedAt
  fixedAt : ∀ n ∈ r.fixedAt, IsInt64 n
  bugPathLength : r.bugPathLength ≤ Text.maxWord32

theorem readsBack (d : Nat) {r : Report} (h : r.InRange) : ReadsBack (d + 1) ofJson toJson r := by
  have hid := column_need "id" (readsBack_int d h.id)
  have hrun := column_need "run_id" (readsBack_int d h.runId)
  have hhash := column_need "bug_hash" (readsBack_text d r.bugHash)
  have hpath := column_need "file_path" (readsBack_text d r.filePath)
  have hchecker := column_need "checker_name" (readsBack_text d r.checkerName)
  have hmsg := column_orElse "checker_msg" "" (readsBack_text d r.checkerMsg)
  have hseverity := column_need "severity" (readsBack_severity d r.severity)
  have hreview := column_orElse "review_status" .unreviewed
    (readsBack_reviewStatus d r.reviewStatus)
  have hdetection := column_orElse "detection_status" .new
    (readsBack_detectionStatus d r.detectionStatus)
  have hdetected := column_need "detected_at" (readsBack_int d h.detectedAt)
  have hfixed := column_orElse "fixed_at" none
    (readsBack_orNull rfl fun n hn => readsBack_int d (h.fixedAt n hn))
  have hlength := column_orElse "bug_path_length" 0 (readsBack_nat d h.bugPathLength)
  refine readsBack_record rfl (by decide : fieldNames.Nodup)
    (.cons hid.toIsColumn <| .cons hrun.toIsColumn <| .cons hhash.toIsColumn <|
      .cons hpath.toIsColumn <| .cons hchecker.toIsColumn <| .cons hmsg.toIsColumn <|
      .cons hseverity.toIsColumn <| .cons hreview.toIsColumn <| .cons hdetection.toIsColumn <|
      .cons hdetected.toIsColumn <| .cons hfixed.toIsColumn <| .cons hlength.toIsColumn .nil)
    fun t ht => ?_
  simp only [ofJson, ht, List.map_cons, List.map_nil, hid.read, hrun.read, hhash.read, hpath.read,
    hchecker.read, hmsg.read, hseverity.read, hreview.read, hdetection.read, hdetected.read,
    hfixed.read, hlength.read]
  rfl

end Report

theorem Component.readsBack (d : Nat) (c : Component) : ReadsBack (d + 2) ofJson toJson c := by
  have hname := column_need "name" (readsBack_text (d + 1) c.name)
  have hpatterns : Column (d + 1) _ _ [("patterns", Value.texts c.patterns)] c.patterns :=
    column_need "patterns" (readsBack_list fun s _ => readsBack_text d s)
  refine readsBack_record rfl (by decide)
    (.cons hname.toIsColumn <| .cons hpatterns.toIsColumn .nil) fun t ht => ?_
  simp only [ofJson, ht, List.map_cons, List.map_nil, hname.read, hpatterns.read]
  rfl

namespace Store

structure InRange (s : Store) : Prop where
  runs : ∀ r ∈ s.runs, r.InRange
  tags : ∀ t ∈ s.tags, t.InRange
  reports : ∀ r ∈ s.reports, r.InRange

theorem readsBack (d : Nat) {s : Store} (h : s.InRange) : ReadsBack (d + 4) ofJson toJson s := by
  have hruns := column_orElse "runs" [] (readsBack_list fun r hr =>
    Run.readsBack (d + 1) (h.runs r hr))
  have htags := column_orElse "tags" [] (readsBack_list fun t ht =>
    RunTag.readsBack (d + 1) (h.tags t ht))
  have hreports := column_orElse "reports" [] (readsBack_list fun r hr =>
    Report.readsBack (d + 1) (h.reports r hr))
  have hcomponents : Column (d + 3) _ _ _ s.components :=
    column_orElse "components" [] (readsBack_list fun c _ => Component.readsBack d c)
  refine readsBack_record rfl (by decide) (.cons hruns.toIsColumn <| .cons htags.toIsColumn <|
    .cons hreports.toIsColumn <| .cons hcomponents.toIsColumn .nil) fun t ht => ?_
  simp only [ofJson, ht, List.map_cons, List.map_nil, hruns.read, htags.read, hreports.read,
    hcomponents.read]
  rfl

end Store

/-- Filters, scopes and stores with numbers of 64 and of 32 bits read back from their compact text,
and none of them is written as another. -/
theorem written_reads_back :
    (∀ f : ReportFilter, f.InRange → parseAs? ReportFilter.ofJson f.toJson.compact = some f) ∧
      (∀ s : Scope, s.InRange → parseAs? Scope.ofJson s.toJson.compact = some s) ∧
      (∀ s : Store, s.InRange → parseAs? Store.ofJson s.toJson.compact = some s) ∧
      (∀ f g : ReportFilter, f.InRange → g.InRange → f.toJson.compact = g.toJson.compact → f = g) ∧
      (∀ s t : Scope, s.InRange → t.InRange → s.toJson.compact = t.toJson.compact → s = t) ∧
      ∀ s t : Store, s.InRange → t.InRange → s.toJson.compact = t.toJson.compact → s = t :=
  ⟨fun _ h => (ReportFilter.readsBack 0 h).compact, fun _ h => (Scope.readsBack 0 h).compact,
    fun _ h => (Store.readsBack 0 h).compact,
    fun _ _ hf hg => (ReportFilter.readsBack 0 hf).eq_of_compact (ReportFilter.readsBack 0 hg),
    fun _ _ hs ht => (Scope.readsBack 0 hs).eq_of_compact (Scope.readsBack 0 ht),
    fun _ _ hs ht => (Store.readsBack 0 hs).eq_of_compact (Store.readsBack 0 ht)⟩

/-- intervals and ranges without bounds, and a comparison with a list of no runs -/
def unboundedScope : Scope where
  runIds := [-9223372036854775808, 9223372036854775807]
  filter :=
    { filepath := ["", "*\"\\/\x00\x7f\u2028"]
      severity := [.critical, .unspecified]
      bugPathLength := some ⟨none, some 4294967295⟩
      date := ⟨some ⟨none, none⟩, none⟩ }
  comparison := some ⟨some [], none, .resolved⟩

/-- the same with a comparison that names no runs at all -/
def unnamedScope : Scope := { unboundedScope with comparison := some ⟨none, none, .resolved⟩ }

/-- the largest numbers, and a text with every kind of escape -/
def extremeStore : Store where
  runs := [⟨-9223372036854775808, "\"\\\n\x01\x7f\u2028"⟩]
  reports :=
    [{ id := 9223372036854775807, runId := -9223372036854775808, bugHash := "", filePath := "/a.c",
       checkerName := "*", severity := .style, detectedAt := 0, fixedAt := some (-1),
       bugPathLength := 4294967295 }]

theorem written_reads_back_unbounded :
    unboundedScope.InRange ∧ unnamedScope.InRange ∧ extremeStore.InRange ∧
      parseAs? Scope.ofJson unboundedScope.toJson.compact = some unboundedScope ∧
      parseAs? ReportFilter.ofJson unboundedScope.filter.toJson.compact =
        some unboundedScope.filter ∧
      parseAs? Store.ofJson extremeStore.toJson.compact = some extremeStore ∧
      unboundedScope.toJson.compact ≠ unnamedScope.toJson.compact := by
  have hfilter : unboundedScope.filter.InRange := by
    refine ⟨by decide, ?_, ?_, by rintro _ ⟨⟩⟩
    · rintro _ ⟨⟩
      exact ⟨by rintro _ ⟨⟩, by rintro _ ⟨⟩; decide⟩
    · rintro _ ⟨⟩
      exact ⟨by rintro _ ⟨⟩, by rintro _ ⟨⟩⟩
  have hscope : unboundedScope.InRange := by
    refine ⟨by decide, hfilter, ?_⟩
    rintro _ ⟨⟩
    exact ⟨by rintro _ ⟨⟩; decide, by rintro _ ⟨⟩⟩
  have hunnamed : unnamedScope.InRange := by
    refine ⟨by decide, hfilter, ?_⟩
    rintro _ ⟨⟩
    exact ⟨by rintro _ ⟨⟩, by rintro _ ⟨⟩⟩
  have hstore : extremeStore.InRange := by
    refine ⟨?_, nofun, ?_⟩
    · rw [extremeStore, List.forall_mem_singleton]
      exact ⟨by decide⟩
    · rw [extremeStore, List.forall_mem_singleton]
      exact ⟨by decide, by decide, by decide, by rintro _ ⟨⟩; decide, by decide⟩
  obtain ⟨readFilter, readScope, readStore, -, eqScope, -⟩ := written_reads_back
  refine ⟨hscope, hunnamed, hstore, readScope _ hscope, readFilter _ hfilter,
    readStore _ hstore, fun h => ?_⟩
  have hne : unboundedScope.comparison ≠ unnamedScope.comparison := by decide
  exact hne (congrArg Scope.comparison (eqScope _ _ hscope hunnamed h))

end Triage
