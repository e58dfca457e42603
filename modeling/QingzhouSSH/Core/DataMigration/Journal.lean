/-
  QingzhouSSH.Core.DataMigration.Journal — the files that a migration leaves behind.

  A journal lies in both roots, and a marker in the target once its copy is verified.  Both
  are records, printed as indented JSON and read again at the next start.

  Main results:
    * `DataMigrationJournal.fromSlice_toVecPretty` — a journal is read back as it was saved;
    * `MigrationCompleteMarker.fromSlice_toVecPretty` — and so is a marker.
-/
import QingzhouSSH.Core.DataMigration.Copy
import QingzhouSSH.Core.JsonRecord
import QingzhouSSH.Domain.Utf8Decoding
import QingzhouSSH.Domain.WorkflowRun

namespace QingzhouSSH.Core.DataMigration

open QingzhouSSH.JsonTree
open QingzhouSSH.Core.Tasks (isHyphenated)
open QingzhouSSH.Domain (Uuid fromUtf8 fromUtf8_flatMap)

/-! ## §1. Names. -/

namespace DataMigrationPhase

def all : List DataMigrationPhase :=
  [.prepared, .copying, .verifying, .switched, .completed, .failed]

def asStr : DataMigrationPhase → Text
  | .prepared => "prepared".toList
  | .copying => "copying".toList
  | .verifying => "verifying".toList
  | .switched => "switched".toList
  | .completed => "completed".toList
  | .failed => "failed".toList

def parse (name : Text) : Option DataMigrationPhase := all.find? fun phase => phase.asStr = name

theorem parse_asStr (phase : DataMigrationPhase) : parse phase.asStr = some phase := by
  cases phase <;> decide +kernel

end DataMigrationPhase

namespace DataRootSource

def all : List DataRootSource :=
  [.environment, .portableCustom, .portableDefault, .platform, .registry, .needsSelection]

def asStr : DataRootSource → Text
  | .environment => "environment".toList
  | .portableCustom => "portable_custom".toList
  | .portableDefault => "portable_default".toList
  | .platform => "platform".toList
  | .registry => "registry".toList
  | .needsSelection => "needs_selection".toList

def parse (name : Text) : Option DataRootSource := all.find? fun source => source.asStr = name

theorem parse_asStr (source : DataRootSource) : parse source.asStr = some source := by
  cases source <;> decide +kernel

end DataRootSource

/-- An identifier that is a field. -/
def asUuid (field : Option JsonTree) : Option Text := do
  let text ← asText field
  (Uuid.parseStr text).map Uuid.text

theorem asUuid_text {id : Text} (h : isHyphenated id = true) :
    asUuid (some (.string id)) = some id := by
  show (Uuid.parseStr id).map Uuid.text = _
  rw [show id = (Uuid.mk id h).text from rfl, Uuid.parseStr_text]
  rfl

/-- `serde_json::to_vec_pretty` of a record. -/
def recordToVec (names : List Text) (values : List PlainValue) : Bytes :=
  (Value.object ((names.zip values).map fun field => (field.1, field.2.value))).toPretty.flatMap
    String.utf8EncodeChar

/-- `serde_json::from_slice`, up to the fields of the record. -/
def recordFromSlice (names : List Text) (payload : Bytes) : Option (List (Option JsonTree)) :=
  match fromUtf8 payload with
  | .error _ => none
  | .ok text => (fromStr text).bind (record names)

/-- **The fields of a record are read back.** -/
theorem recordFromSlice_recordToVec {names : List Text} {values : List PlainValue}
    (hnodup : names.Nodup) (hsome : names ≠ []) (hlength : names.length = values.length) :
    recordFromSlice names (recordToVec names values)
      = some (values.map fun v => some v.tree) := by
  have hzip : ((names.zip values).map fun field => (field.1, field.2.tree))
      = names.zip (values.map PlainValue.tree) := by
    rw [List.zip_map_right]
    rfl
  have hfields : names.zip values ≠ [] := by
    obtain ⟨name, names, rfl⟩ := List.exists_cons_of_ne_nil hsome
    obtain ⟨v, values, rfl⟩ := List.exists_cons_of_length_eq_add_one hlength.symm
    exact List.cons_ne_nil _ _
  unfold recordFromSlice recordToVec
  rw [fromUtf8_flatMap]
  dsimp only
  rw [PlainValue.fromStr_toPretty hfields, Option.bind_some, hzip,
    record_object hnodup (by rw [List.length_map, hlength]), List.map_map]
  rfl

/-! ## §2. Journals. -/

namespace DataMigrationJournal

def fieldNames : List Text :=
  ["schemaVersion".toList, "migrationId".toList, "source".toList, "target".toList,
    "sourceMode".toList, "parentPid".toList, "fileCount".toList, "totalBytes".toList,
    "copiedFiles".toList, "copiedBytes".toList, "phase".toList, "errorSummary".toList,
    "startedAt".toList, "updatedAt".toList, "acknowledged".toList]

def fieldValues (journal : DataMigrationJournal) : List PlainValue :=
  [.ofU32 journal.schemaVersion, .string journal.migrationId,
    .string journal.source, .string journal.target, .string journal.sourceMode.asStr,
    .ofU32 journal.parentPid, .ofU64 journal.fileCount,
    .ofU64 journal.totalBytes,
    .ofU64 journal.copiedFiles,
    .ofU64 journal.copiedBytes, .string journal.phase.asStr,
    .ofOptionalText journal.errorSummary, .ofI64 journal.startedAt, .ofI64 journal.updatedAt,
    .bool journal.acknowledged]

def toVecPretty (journal : DataMigrationJournal) : Bytes :=
  recordToVec fieldNames journal.fieldValues

def ofFields : List (Option JsonTree) → Option DataMigrationJournal
  | [schemaVersion, migrationId, source, target, sourceMode, parentPid, fileCount, totalBytes,
      copiedFiles, copiedBytes, phase, errorSummary, startedAt, updatedAt, acknowledged] => do
      return {
        schemaVersion := ← asUnsigned (2 ^ 32) schemaVersion
        migrationId := ← asUuid migrationId
        source := ← asText source
        target := ← asText target
        sourceMode := ← (← asText sourceMode) |> DataRootSource.parse
        parentPid := ← asUnsigned (2 ^ 32) parentPid
        fileCount := ← asUnsigned (2 ^ 64) fileCount
        totalBytes := ← asUnsigned (2 ^ 64) totalBytes
        copiedFiles := ← asUnsigned (2 ^ 64) copiedFiles
        copiedBytes := ← asUnsigned (2 ^ 64) copiedBytes
        phase := ← (← asText phase) |> DataMigrationPhase.parse
        errorSummary := ← asOptionalText errorSummary
        startedAt := ← asI64 startedAt
        updatedAt := ← asI64 updatedAt
        acknowledged := ← asBool acknowledged }
  | _ => none

/-- `serde_json::from_slice`. -/
def fromSlice (payload : Bytes) : Option DataMigrationJournal :=
  (recordFromSlice fieldNames payload).bind ofFields

/-- A journal, with its numbers as their types hold them. -/
def wrapped (journal : DataMigrationJournal) : DataMigrationJournal :=
  { journal with
    schemaVersion := journal.schemaVersion % 2 ^ 32
    parentPid := journal.parentPid % 2 ^ 32
    fileCount := journal.fileCount % 2 ^ 64
    totalBytes := journal.totalBytes % 2 ^ 64
    copiedFiles := journal.copiedFiles % 2 ^ 64
    copiedBytes := journal.copiedBytes % 2 ^ 64
    startedAt := journal.startedAt.bmod (2 ^ 64)
    updatedAt := journal.updatedAt.bmod (2 ^ 64) }

theorem ofFields_fieldValues {journal : DataMigrationJournal}
    (h : isHyphenated journal.migrationId = true) :
    ofFields (journal.fieldValues.map fun v => some v.tree) = some journal.wrapped := by
  simp only [fieldValues, List.map_cons, List.map_nil, ofFields, PlainValue.asUnsigned_ofU32,
    PlainValue.asUnsigned_ofU64, PlainValue.asOptionalText_ofOptionalText,
    PlainValue.asI64_ofI64, PlainValue.tree_bool, PlainValue.tree_string, asUuid_text h, asText,
    asBool, DataRootSource.parse_asStr, DataMigrationPhase.parse_asStr, Option.bind_eq_bind,
    Option.bind_some, Option.pure_def, wrapped]

theorem fieldNames_nodup : fieldNames.Nodup := by decide +kernel

/-- **A journal is read back as it was saved.** -/
theorem fromSlice_toVecPretty {journal : DataMigrationJournal}
    (h : isHyphenated journal.migrationId = true) :
    fromSlice journal.toVecPretty = some journal.wrapped := by
  unfold fromSlice toVecPretty
  rw [recordFromSlice_recordToVec fieldNames_nodup (List.cons_ne_nil _ _) rfl,
    Option.bind_some, ofFields_fieldValues h]

end DataMigrationJournal

/-- The counters of a worker that starts. -/
def DataMigrationJournal.restarted (journal : DataMigrationJournal) (fileCount totalBytes : Nat)
    (now : Int) : DataMigrationJournal :=
  { journal with
    fileCount := fileCount
    totalBytes := totalBytes
    copiedFiles := 0
    copiedBytes := 0
    updatedAt := now }

/-- The same migration, at another time. -/
structure SameRun (journal journal' : DataMigrationJournal) : Prop where
  migrationId : journal'.migrationId = journal.migrationId
  source : journal'.source = journal.source
  target : journal'.target = journal.target
  sourceMode : journal'.sourceMode = journal.sourceMode
  hyphenated : isHyphenated journal'.migrationId = true

namespace SameRun

variable {journal journal' : DataMigrationJournal}

theorem transition (h : SameRun journal journal') (phase : DataMigrationPhase) (now : Int) :
    SameRun journal (journal'.transition phase now) :=
  ⟨h.1, h.2, h.3, h.4, h.5⟩

theorem fail (h : SameRun journal journal') (error : AppError) (now : Int) :
    SameRun journal (journal'.fail error now) :=
  ⟨h.1, h.2, h.3, h.4, h.5⟩

theorem copied (h : SameRun journal journal') (sizeBytes : Nat) (now : Int) :
    SameRun journal (journal'.copied sizeBytes now) :=
  ⟨h.1, h.2, h.3, h.4, h.5⟩

theorem restarted (h : SameRun journal journal') (fileCount totalBytes : Nat) (now : Int) :
    SameRun journal (journal'.restarted fileCount totalBytes now) :=
  ⟨h.1, h.2, h.3, h.4, h.5⟩

theorem wrapped (h : SameRun journal journal') : SameRun journal journal'.wrapped :=
  ⟨h.1, h.2, h.3, h.4, h.5⟩

end SameRun

/-! ## §3. Markers. -/

structure MigrationCompleteMarker where
  migrationId : Text
  previousRoot : Text
  fileCount : Nat
  totalBytes : Nat
  completedAt : Int
  deriving DecidableEq

namespace MigrationCompleteMarker

def fieldNames : List Text :=
  ["migrationId".toList, "previousRoot".toList, "fileCount".toList, "totalBytes".toList,
    "completedAt".toList]

def fieldValues (marker : MigrationCompleteMarker) : List PlainValue :=
  [.string marker.migrationId, .string marker.previousRoot,
    .ofU64 marker.fileCount, .ofU64 marker.totalBytes,
    .ofI64 marker.completedAt]

def toVecPretty (marker : MigrationCompleteMarker) : Bytes :=
  recordToVec fieldNames marker.fieldValues

def ofFields : List (Option JsonTree) → Option MigrationCompleteMarker
  | [migrationId, previousRoot, fileCount, totalBytes, completedAt] => do
      return {
        migrationId := ← asUuid migrationId
        previousRoot := ← asText previousRoot
        fileCount := ← asUnsigned (2 ^ 64) fileCount
        totalBytes := ← asUnsigned (2 ^ 64) totalBytes
        completedAt := ← asI64 completedAt }
  | _ => none

def fromSlice (payload : Bytes) : Option MigrationCompleteMarker :=
  (recordFromSlice fieldNames payload).bind ofFields

def wrapped (marker : MigrationCompleteMarker) : MigrationCompleteMarker :=
  { marker with
    fileCount := marker.fileCount % 2 ^ 64
    totalBytes := marker.totalBytes % 2 ^ 64
    completedAt := marker.completedAt.bmod (2 ^ 64) }

theorem fieldNames_nodup : fieldNames.Nodup := by decide +kernel

/-- **A marker is read back as it was written.** -/
theorem fromSlice_toVecPretty {marker : MigrationCompleteMarker}
    (h : isHyphenated marker.migrationId = true) :
    fromSlice marker.toVecPretty = some marker.wrapped := by
  unfold fromSlice toVecPretty
  rw [recordFromSlice_recordToVec fieldNames_nodup (List.cons_ne_nil _ _) rfl]
  simp only [fieldValues, List.map_cons, List.map_nil, Option.bind_some, ofFields,
    PlainValue.asUnsigned_ofU64, PlainValue.asI64_ofI64, PlainValue.tree_string, asUuid_text h,
    asText, Option.bind_eq_bind, Option.pure_def, wrapped]

end MigrationCompleteMarker

end QingzhouSSH.Core.DataMigration
