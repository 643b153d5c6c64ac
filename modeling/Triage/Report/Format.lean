import Triage.Json.Printer
import Triage.Json.Reader
import Triage.Report.Store

/-!
# The JSON form of scopes and stores

Coded attributes are written as their codes.  A filter leaves out empty lists, absent values and an
empty `date`; a store writes every field.  Each `toJson` has a reader `ofJson` beside it, which
accepts a field that has a default when it is missing, but not when it is null.
-/

namespace Triage

open Json (Value Term Reader readInt32 readInt64 readNat32 readText readBool readList readOption
  columns need orElse)

namespace Coded

variable {α : Type} [Coded α]

def toJson (a : α) : Value := .int (code a)

def ofJson : Reader α := fun t => (readInt32 t).bind ofCode?

end Coded

namespace Calendar.Interval

def toJson (i : Interval) : Value :=
  .record (Value.optional "after" .int i.after ++ Value.optional "before" .int i.before)

def ofJson : Reader Interval := fun t =>
  match columns ["after", "before"] t with
  | some [after, before] => do
    some ⟨← orElse (readOption readInt64) none after, ← orElse (readOption readInt64) none before⟩
  | _ => none

end Calendar.Interval

/-- a count as a JSON number -/
def natJson (n : Nat) : Value := .int n

namespace LengthRange

def toJson (r : LengthRange) : Value :=
  .record (Value.optional "min" natJson r.min ++ Value.optional "max" natJson r.max)

def ofJson : Reader LengthRange := fun t =>
  match columns ["min", "max"] t with
  | some [min, max] => do
    some ⟨← orElse (readOption readNat32) none min, ← orElse (readOption readNat32) none max⟩
  | _ => none

end LengthRange

namespace DateCondition

def toJson (d : DateCondition) : Value :=
  .record (Value.optional "detected" Calendar.Interval.toJson d.detected ++
    Value.optional "fixed" Calendar.Interval.toJson d.fixed)

def ofJson : Reader DateCondition := fun t =>
  match columns ["detected", "fixed"] t with
  | some [detected, fixed] => do
    some ⟨← orElse (readOption Calendar.Interval.ofJson) none detected,
      ← orElse (readOption Calendar.Interval.ofJson) none fixed⟩
  | _ => none

end DateCondition

namespace ReportFilter

def fieldNames : List String :=
  ["filepath", "checkerMsg", "checkerName", "reportHash", "severity", "reviewStatus",
   "detectionStatus", "runTag", "componentNames", "bugPathLength", "date", "isUnique"]

def toJson (f : ReportFilter) : Value :=
  .record (Value.nonEmpty "filepath" .text f.filepath ++
    Value.nonEmpty "checkerMsg" .text f.checkerMsg ++
    Value.nonEmpty "checkerName" .text f.checkerName ++
    Value.nonEmpty "reportHash" .text f.reportHash ++
    Value.nonEmpty "severity" Coded.toJson f.severity ++
    Value.nonEmpty "reviewStatus" Coded.toJson f.reviewStatus ++
    Value.nonEmpty "detectionStatus" Coded.toJson f.detectionStatus ++
    Value.nonEmpty "runTag" .int f.runTag ++
    Value.nonEmpty "componentNames" .text f.componentNames ++
    Value.optional "bugPathLength" LengthRange.toJson f.bugPathLength ++
    (if f.date.isEmpty then [] else [("date", f.date.toJson)]) ++
    [("isUnique", .bool f.isUnique)])

def ofJson : Reader ReportFilter := fun t =>
  match columns fieldNames t with
  | some [filepath, checkerMsg, checkerName, reportHash, severity, reviewStatus, detectionStatus,
      runTag, componentNames, bugPathLength, date, isUnique] => do
    some {
      filepath := ← orElse (readList readText) [] filepath
      checkerMsg := ← orElse (readList readText) [] checkerMsg
      checkerName := ← orElse (readList readText) [] checkerName
      reportHash := ← orElse (readList readText) [] reportHash
      severity := ← orElse (readList Coded.ofJson) [] severity
      reviewStatus := ← orElse (readList Coded.ofJson) [] reviewStatus
      detectionStatus := ← orElse (readList Coded.ofJson) [] detectionStatus
      runTag := ← orElse (readList readInt64) [] runTag
      componentNames := ← orElse (readList readText) [] componentNames
      bugPathLength := ← orElse (readOption LengthRange.ofJson) none bugPathLength
      date := ← orElse DateCondition.ofJson {} date
      isUnique := ← orElse readBool false isUnique }
  | _ => none

end ReportFilter

namespace Comparison

def toJson (c : Comparison) : Value :=
  .record (Value.optional "runIds" Value.ints c.runIds ++
    Value.optional "runTag" Value.ints c.runTag ++ [("diffType", Coded.toJson c.diffType)])

def ofJson : Reader Comparison := fun t =>
  match columns ["runIds", "runTag", "diffType"] t with
  | some [runIds, runTag, diffType] => do
    some ⟨← orElse (readOption (readList readInt64)) none runIds,
      ← orElse (readOption (readList readInt64)) none runTag,
      ← orElse Coded.ofJson .new diffType⟩
  | _ => none

end Comparison

namespace Scope

def toJson (s : Scope) : Value :=
  .record ([("runIds", Value.ints s.runIds), ("reportFilter", s.filter.toJson)] ++
    Value.optional "cmpData" Comparison.toJson s.comparison)

def ofJson : Reader Scope := fun t =>
  match columns ["runIds", "reportFilter", "cmpData"] t with
  | some [runIds, filter, comparison] => do
    some ⟨← need (readList readInt64) runIds, ← need ReportFilter.ofJson filter,
      ← orElse (readOption Comparison.ofJson) none comparison⟩
  | _ => none

end Scope

namespace Run

def toJson (r : Run) : Value := .record [("id", .int r.id), ("name", .text r.name)]

def ofJson : Reader Run := fun t =>
  match columns ["id", "name"] t with
  | some [id, name] => do some ⟨← need readInt64 id, ← need readText name⟩
  | _ => none

end Run

namespace RunTag

def toJson (t : RunTag) : Value :=
  .record [("id", .int t.id), ("run_id", .int t.runId), ("tag", .text t.tag),
    ("timestamp", .int t.timestamp)]

def ofJson : Reader RunTag := fun t =>
  match columns ["id", "run_id", "tag", "timestamp"] t with
  | some [id, runId, tag, timestamp] => do
    some ⟨← need readInt64 id, ← need readInt64 runId, ← need readText tag,
      ← need readInt64 timestamp⟩
  | _ => none

end RunTag

namespace Report

def fieldNames : List String :=
  ["id", "run_id", "bug_hash", "file_path", "checker_name", "checker_msg", "severity",
   "review_status", "detection_status", "detected_at", "fixed_at", "bug_path_length"]

def toJson (r : Report) : Value :=
  .record [("id", .int r.id), ("run_id", .int r.runId), ("bug_hash", .text r.bugHash),
    ("file_path", .text r.filePath), ("checker_name", .text r.checkerName),
    ("checker_msg", .text r.checkerMsg), ("severity", Coded.toJson r.severity),
    ("review_status", Coded.toJson r.reviewStatus),
    ("detection_status", Coded.toJson r.detectionStatus), ("detected_at", .int r.detectedAt),
    ("fixed_at", Value.orNull .int r.fixedAt), ("bug_path_length", natJson r.bugPathLength)]

def ofJson : Reader Report := fun t =>
  match columns fieldNames t with
  | some [id, runId, bugHash, filePath, checkerName, checkerMsg, severity, reviewStatus,
      detectionStatus, detectedAt, fixedAt, bugPathLength] => do
    some {
      id := ← need readInt64 id
      runId := ← need readInt64 runId
      bugHash := ← need readText bugHash
      filePath := ← need readText filePath
      checkerName := ← need readText checkerName
      checkerMsg := ← orElse readText "" checkerMsg
      severity := ← need Coded.ofJson severity
      reviewStatus := ← orElse Coded.ofJson .unreviewed reviewStatus
      detectionStatus := ← orElse Coded.ofJson .new detectionStatus
      detectedAt := ← need readInt64 detectedAt
      fixedAt := ← orElse (readOption readInt64) none fixedAt
      bugPathLength := ← orElse readNat32 0 bugPathLength }
  | _ => none

end Report

namespace Component

def toJson (c : Component) : Value :=
  .record [("name", .text c.name), ("patterns", Value.texts c.patterns)]

def ofJson : Reader Component := fun t =>
  match columns ["name", "patterns"] t with
  | some [name, patterns] => do some ⟨← need readText name, ← need (readList readText) patterns⟩
  | _ => none

end Component

namespace Store

def toJson (s : Store) : Value :=
  .record [("runs", .list (s.runs.map Run.toJson)), ("tags", .list (s.tags.map RunTag.toJson)),
    ("reports", .list (s.reports.map Report.toJson)),
    ("components", .list (s.components.map Component.toJson))]

def ofJson : Reader Store := fun t =>
  match columns ["runs", "tags", "reports", "components"] t with
  | some [runs, tags, reports, components] => do
    some ⟨← orElse (readList Run.ofJson) [] runs, ← orElse (readList RunTag.ofJson) [] tags,
      ← orElse (readList Report.ofJson) [] reports,
      ← orElse (readList Component.ofJson) [] components⟩
  | _ => none

end Store

end Triage
