/-
  QingzhouSSH.Services.OperationReportService — reports about one run.

  A report is the redacted rows of a finished run, as indented JSON or as text.  Its
  file is named after the run and the format.  A run that has finished may still be
  rolled back, and a report that is there already is not written again.

  Main results:
    * `encodeReport_eq_iff` — what two reports show, if their files are the same;
    * `exportRun_ok` — what a successful export returns;
    * `report_shows_current_run` — when the file shows the rows as they are.
-/
import Mathlib.Logic.Function.Basic
import QingzhouSSH.Core.PrettyJson
import QingzhouSSH.Core.RedactedSecrets
import QingzhouSSH.Domain.Operation
import QingzhouSSH.Domain.WorkflowEvents
import QingzhouSSH.Lib.History
import QingzhouSSH.Repositories.ExecutionRepository

namespace QingzhouSSH.Services.OperationReportService

open String (utf8Len)
open QingzhouSSH.Core.Redaction
open QingzhouSSH.Core.Tasks (RiskLevel)
open QingzhouSSH.Domain (OperationPhase OperationStatus OperationStepStatus Uuid objectValue
  optionValue uuidValue)
open QingzhouSSH.Lib
open QingzhouSSH.Repositories.ExecutionRepository (ExecutionFile)

/-! ## §1. The rows of a run. -/

/-- `OperationRunRecord`, as it is serialized. -/
structure RunRecord where
  id : Uuid
  serverId : Text
  taskId : Text
  taskVersion : JsonInt
  riskLevel : RiskLevel
  status : OperationStatus
  parametersSummary : Option Text
  result : Option Value
  errorCategory : Option Text
  errorMessage : Option Text
  createdAt : JsonInt
  updatedAt : JsonInt
  finishedAt : Option JsonInt

/-- `OperationStepRecord`, as it is serialized. -/
structure StepRecord where
  runId : Uuid
  phase : OperationPhase
  stepIndex : JsonInt
  stepId : Text
  title : Text
  status : OperationStepStatus
  executionId : Option Uuid
  outputSummary : Option Text
  errorMessage : Option Text
  startedAt : Option JsonInt
  finishedAt : Option JsonInt

structure OperationDetails where
  run : RunRecord
  steps : List StepRecord

def phaseStr : OperationPhase → Text
  | .preflight => "preflight".toList
  | .backup => "backup".toList
  | .execute => "execute".toList
  | .verify => "verify".toList
  | .rollback => "rollback".toList

def RunRecord.toValue (run : RunRecord) : Value :=
  objectValue
    [("createdAt", .int run.createdAt), ("errorCategory", optionValue .string run.errorCategory),
      ("errorMessage", optionValue .string run.errorMessage),
      ("finishedAt", optionValue .int run.finishedAt), ("id", uuidValue run.id),
      ("parametersSummary", optionValue .string run.parametersSummary),
      ("result", run.result.getD .null), ("riskLevel", .string run.riskLevel.asStr),
      ("serverId", .string run.serverId), ("status", .string run.status.asStr),
      ("taskId", .string run.taskId), ("taskVersion", .int run.taskVersion),
      ("updatedAt", .int run.updatedAt)]

def StepRecord.toValue (step : StepRecord) : Value :=
  objectValue
    [("errorMessage", optionValue .string step.errorMessage),
      ("executionId", optionValue uuidValue step.executionId),
      ("finishedAt", optionValue .int step.finishedAt),
      ("outputSummary", optionValue .string step.outputSummary),
      ("phase", .string (phaseStr step.phase)), ("runId", uuidValue step.runId),
      ("startedAt", optionValue .int step.startedAt), ("status", .string step.status.asStr),
      ("stepId", .string step.stepId), ("stepIndex", .int step.stepIndex),
      ("title", .string step.title)]

def OperationDetails.toValue (details : OperationDetails) : Value :=
  objectValue [("run", details.run.toValue), ("steps", .array (details.steps.map StepRecord.toValue))]

def OperationDetails.withStatus (next : OperationStatus) (now : JsonInt)
    (details : OperationDetails) : OperationDetails :=
  { details with
    run := { details.run with
             status := next, updatedAt := now
             finishedAt := if next.isTerminal then some now else none } }

/-- `OperationRepository::transition`, with the times of the row. -/
def OperationDetails.transition (next : OperationStatus) (now : JsonInt)
    (details : OperationDetails) : AppResult OperationDetails :=
  if details.run.status.canTransitionTo next then .ok (details.withStatus next now)
  else
    .error (.validation ("运维状态不能从 ".toList ++ details.run.status.asStr ++ " 变为 ".toList
      ++ next.asStr))

/-! ## §2. The text of a report. -/

inductive ReportFormat where
  | json
  | txt
  deriving Repr, DecidableEq

def ReportFormat.extension : ReportFormat → Text
  | .json => "json".toList
  | .txt => "txt".toList

/-- `Value::get`. -/
def field (name : String) (value : Value) : Option Value :=
  value.asObject.bind fun fields => Value.getField fields name.toList

def text : Option Value → Text
  | some (.string value) => value
  | some .null | none => "—".toList
  | some value => value.toJson

def optionalSuffix : Option Value → Text
  | some (.string value) => if value.isEmpty then [] else '（' :: value ++ ['）']
  | _ => []

/-- The members of a field that is an array. -/
def members (value : Option Value) : List Value := (value.bind Value.asArray).getD []

def renderOperation (details : Value) : Text :=
  match field "run" details with
  | none => []
  | some run =>
      let result := field "result" run
      "任务概况\n--------\n".toList
        ++ "服务器：".toList ++ text (field "serverId" run)
        ++ "\n任务：".toList ++ text (field "taskId" run)
        ++ "\n状态：".toList ++ text (field "status" run) ++ "\n\n".toList
        ++ "结论\n----\n".toList ++ text (result.bind (field "summary")) ++ "\n\n".toList
        ++ "发现\n----\n".toList
        ++ (members (result.bind (field "findings"))).flatMap (fun finding =>
            "- [".toList ++ text (field "level" finding) ++ "] ".toList
              ++ text (field "title" finding) ++ "：".toList ++ text (field "detail" finding)
              ++ ['\n'])
        ++ "\n建议\n----\n".toList
        ++ (members (result.bind (field "suggestions"))).flatMap (fun suggestion =>
            "- ".toList ++ text (some suggestion) ++ ['\n'])
        ++ "\n技术详情（已脱敏）\n------------------\n".toList
        ++ text (result.bind (field "technicalDetails")) ++ "\n\n".toList

/-- The part of `render_txt` about a batch. -/
def renderBatch (batch : Value) (operations : List Value) : Text :=
  "批量概况\n--------\n".toList
    ++ (match field "batch" batch with
      | some record =>
          "任务：".toList ++ text (field "taskId" record) ++ "\n状态：".toList
            ++ text (field "status" record) ++ "\n\n".toList
      | none => [])
    ++ "服务器结果\n----------\n".toList
    ++ (members (field "items" batch)).flatMap (fun item =>
        "- ".toList ++ text (field "serverId" item) ++ "：".toList ++ text (field "status" item)
          ++ optionalSuffix (field "errorMessage" item) ++ ['\n'])
    ++ '\n' :: operations.flatMap renderOperation

def renderTxt (payload : Value) : Text :=
  "轻舟 SSH 运维报告\n==================\n\n".toList
    ++ "报告类型：".toList ++ text (field "kind" payload)
    ++ "\n生成时间：".toList ++ text (field "generatedAt" payload) ++ "\n\n".toList
    ++ ((field "operation" payload).elim [] renderOperation)
    ++ ((field "batch" payload).elim [] fun batch =>
        renderBatch batch (members (field "operations" payload)))

def encodeReport : ReportFormat → Value → Text
  | .json, payload => payload.toPretty
  | .txt, payload => renderTxt payload

/-! ## §3. Redaction. -/

inductive StoredCredential where
  | password (password : Text)
  | privateKey (privateKey : Text) (passphrase : Option Text)

def credentialRedactor : StoredCredential → Redactor
  | .password password => Redactor.new [password]
  | .privateKey privateKey passphrase => Redactor.new (privateKey :: passphrase.toList)

/-- The redactor of the data root, in both spellings. -/
def rootRedactor (root : Text) : Redactor :=
  Redactor.new [root, root.map fun c => if c = '\\' then '/' else c]

/-- `redact_for_servers`, for the one server of a run. -/
def redactForServer (root : Text) (credential : StoredCredential) (value : Value) : Value :=
  (rootRedactor root).redactJson ((credentialRedactor credential).redactJson value)

def payload (generatedAt : JsonInt) (details : OperationDetails) : Value :=
  objectValue
    [("generatedAt", .int generatedAt), ("kind", .string "operation".toList),
      ("operation", details.toValue), ("schemaVersion", .int ⟨1, by decide⟩)]

/-! ## §4. Exports. -/

/-- What may fail around an export, and what is read there. -/
structure Attempt where
  now : JsonInt
  readRun : AppResult Unit
  credential : AppResult StoredCredential
  /-- The directory is created and the file looked up. -/
  prepare : AppResult Unit
  /-- The temporary file is written and renamed. -/
  write : AppResult Unit
  /-- The file is examined and hashed. -/
  measure : AppResult Unit

/-- The rows of all runs, and the files in `downloads/reports`. -/
structure Reports where
  runs : Uuid → Option OperationDetails
  directory : Text → Option Text

def maxReportBytes : Nat := 16 * 1024 * 1024

section Export

variable (root : Text) (sha256 : Text → Text)

def measured (attempt : Attempt) (fileName purpose content : Text) : AppResult ExecutionFile :=
  attempt.measure.map fun _ =>
    { relativePath := "downloads/reports/".toList ++ fileName, purpose := purpose
      sizeBytes := utf8Len content, sha256 := sha256 content }

def writeReport (attempt : Attempt) (fileName purpose bytes : Text) (s : Reports) :
    AppResult ExecutionFile × Reports :=
  if maxReportBytes < utf8Len bytes then
    (.error (.validation "报告超过 16 MiB 大小上限".toList), s)
  else
    match attempt.prepare with
    | .error e => (.error e, s)
    | .ok _ =>
        match s.directory fileName with
        | some content => (measured sha256 attempt fileName purpose content, s)
        | none =>
            match attempt.write with
            | .error e => (.error e, s)
            | .ok _ =>
                (measured sha256 attempt fileName purpose bytes,
                  { s with directory := Function.update s.directory fileName (some bytes) })

def fileName (runId : Uuid) (format : ReportFormat) : Text :=
  "operation-".toList ++ runId.text ++ '.' :: format.extension

/-- `export_run`. -/
def exportRun (runId : Uuid) (format : ReportFormat) (attempt : Attempt) (s : Reports) :
    AppResult ExecutionFile × Reports :=
  match attempt.readRun with
  | .error e => (.error e, s)
  | .ok _ =>
      match s.runs runId with
      | none => (.error (.validation "运维运行不存在".toList), s)
      | some details =>
          if !details.run.status.isTerminal then
            (.error (.validation "运维运行结束后才能导出报告".toList), s)
          else
            match attempt.credential with
            | .error e => (.error e, s)
            | .ok credential =>
                writeReport sha256 attempt (fileName runId format) "operation_report".toList
                  (encodeReport format
                    (redactForServer root credential (payload attempt.now details))) s

end Export

/-! ## §5. What a report shows. -/

/-- The redacted parts of a report, its time aside.  The kind stays on its line. -/
structure Shown where
  kind : Text
  operation : Value
  oneLine : '\n' ∉ kind

def Shown.report (shown : Shown) (generatedAt : JsonInt) : Value :=
  objectValue
    [("generatedAt", .int generatedAt), ("kind", .string shown.kind),
      ("operation", shown.operation), ("schemaVersion", .int ⟨1, by decide⟩)]

/-- Redaction puts no line end into a text. -/
theorem newline_not_mem_redact (redactor : Redactor) {s : Text} (h : '\n' ∉ s) :
    '\n' ∉ redactor.redact s := by
  have hapart : Lib.Text.ApartFrom redacted ['\n'] := by decide
  rw [← List.singleton_infix_iff] at h ⊢
  unfold Redactor.redact redactNamedAssignments
  have hblocks := (masks_redactPrivateKeyBlocks s).not_occurs hapart h
  have hsecrets := not_infix_replaceSecrets hapart redactor.nonempty hblocks
  exact not_infix_foldl_redactMarker hapart (fun _ hm => hm) hsecrets

def shown (root : Text) (credential : StoredCredential) (details : OperationDetails) : Shown where
  kind := (rootRedactor root).redact ((credentialRedactor credential).redact "operation".toList)
  operation := redactForServer root credential details.toValue
  oneLine := newline_not_mem_redact _ (newline_not_mem_redact _ (by decide))

theorem reportFields_plain : ∀ name ∈ ["generatedAt", "kind", "operation", "schemaVersion"],
    isSensitiveKey name.toList = false := by
  decide

theorem redactJson_report (redactor : Redactor) (now version : JsonInt) (kind : Text)
    (operation : Value) :
    redactor.redactJson (objectValue [("generatedAt", .int now), ("kind", .string kind),
        ("operation", operation), ("schemaVersion", .int version)])
      = objectValue [("generatedAt", .int now), ("kind", .string (redactor.redact kind)),
        ("operation", redactor.redactJson operation), ("schemaVersion", .int version)] := by
  rw [Domain.redactJson_fields]
  · simp only [List.map_cons, List.map_nil, Redactor.redactJson]
  · intro f hf
    exact reportFields_plain f.1 (List.mem_map_of_mem (f := Prod.fst) hf)

theorem redactForServer_payload (root : Text) (credential : StoredCredential) (now : JsonInt)
    (details : OperationDetails) :
    redactForServer root credential (payload now details)
      = (shown root credential details).report now := by
  unfold Shown.report shown redactForServer payload
  rw [redactJson_report, redactJson_report]

/-- What the file of a format tells apart. -/
def SameContents : ReportFormat → Shown → Shown → Prop
  | .json, a, b => a.kind = b.kind ∧ a.operation = b.operation
  | .txt, a, b => a.kind = b.kind ∧ renderOperation a.operation = renderOperation b.operation

theorem field_objectValue (key name : String) (value : Value) (rest : List (String × Value)) :
    field name (objectValue ((key, value) :: rest))
      = if key = name then some value else field name (objectValue rest) :=
  Domain.getField_cons key name value _

theorem renderTxt_report (a : Shown) (t : JsonInt) :
    renderTxt (a.report t)
      = "轻舟 SSH 运维报告\n==================\n\n".toList ++ "报告类型：".toList
        ++ (a.kind ++ '\n' :: ("生成时间：".toList
          ++ (showInt t.val ++ '\n' :: '\n' :: renderOperation a.operation))) := by
  have hkind : field "kind" (a.report t) = some (.string a.kind) := by
    unfold Shown.report
    rw [field_objectValue, if_neg (by decide), field_objectValue, if_pos rfl]
  have htime : field "generatedAt" (a.report t) = some (.int t) := by
    unfold Shown.report
    rw [field_objectValue, if_pos rfl]
  have hoperation : field "operation" (a.report t) = some a.operation := by
    unfold Shown.report
    rw [field_objectValue, if_neg (by decide), field_objectValue, if_neg (by decide),
      field_objectValue, if_pos rfl]
  have hbatch : field "batch" (a.report t) = none := by
    unfold Shown.report
    rw [field_objectValue, if_neg (by decide), field_objectValue, if_neg (by decide),
      field_objectValue, if_neg (by decide), field_objectValue, if_neg (by decide)]
    rfl
  unfold renderTxt
  rw [hkind, htime, hoperation, hbatch]
  have hline : "\n生成时间：".toList = '\n' :: "生成时间：".toList := rfl
  have hlines : "\n\n".toList = ['\n', '\n'] := rfl
  simp only [Option.elim, text, Value.toJson, hline, hlines, List.append_assoc, List.cons_append,
    List.nil_append, List.append_nil]

/-- A text is determined up to its first line end. -/
theorem line_inj {s t r u : Text} (hs : '\n' ∉ s) (ht : '\n' ∉ t)
    (h : s ++ '\n' :: r = t ++ '\n' :: u) : s = t ∧ r = u := by
  induction s generalizing t with
  | nil =>
      cases t with
      | nil => exact ⟨rfl, (List.cons.inj h).2⟩
      | cons c t =>
          have hc : '\n' = c := (List.cons.inj h).1
          exact absurd List.mem_cons_self (hc ▸ ht)
  | cons c s ih =>
      cases t with
      | nil =>
          have hc : c = '\n' := (List.cons.inj h).1
          exact absurd List.mem_cons_self (hc ▸ hs)
      | cons d t =>
          obtain ⟨hcd, hrest⟩ := List.cons.inj h
          obtain ⟨hst, hru⟩ := ih (fun hmem => hs (List.mem_cons_of_mem c hmem))
            (fun hmem => ht (List.mem_cons_of_mem d hmem)) hrest
          exact ⟨congrArg₂ List.cons hcd hst, hru⟩

/-- **Two reports have the same file only if they were made at the same time and show
the same.** -/
theorem encodeReport_eq_iff (format : ReportFormat) (a b : Shown) (t u : JsonInt) :
    encodeReport format (a.report t) = encodeReport format (b.report u)
      ↔ t = u ∧ SameContents format a b := by
  constructor
  · intro h
    cases format with
    | json =>
        have hvalue : a.report t = b.report u := Value.toPretty_injective h
        unfold Shown.report objectValue at hvalue
        simp only [List.map_cons, List.map_nil, Value.object.injEq, List.cons.injEq,
          Prod.mk.injEq, true_and, and_true, Value.int.injEq, Value.string.injEq] at hvalue
        exact hvalue
    | txt =>
        have htext : renderTxt (a.report t) = renderTxt (b.report u) := h
        rw [renderTxt_report, renderTxt_report] at htext
        obtain ⟨hkind, htail⟩ := line_inj a.oneLine b.oneLine (List.append_cancel_left htext)
        have hnumber : ∀ n : Int, '\n' ∉ showInt n := by
          intro n hmem
          exact absurd (showInt_numeral n '\n' hmem) (by decide)
        obtain ⟨htime, hrest⟩ :=
          line_inj (hnumber t.val) (hnumber u.val) (List.append_cancel_left htail)
        have htu : t = u := by
          have hval := showInt_inj htime
          cases t
          cases u
          subst hval
          rfl
        exact ⟨htu, hkind, (List.cons.inj hrest).2⟩
  · rintro ⟨rfl, hsame⟩
    cases format with
    | json =>
        show (a.report t).toPretty = (b.report t).toPretty
        unfold Shown.report
        rw [hsame.1, hsame.2]
    | txt =>
        show renderTxt (a.report t) = renderTxt (b.report t)
        rw [renderTxt_report, renderTxt_report, hsame.1, hsame.2]

/-! ## §6. One export. -/

section Exports

variable {root : Text} {sha256 : Text → Text} {runId : Uuid} {format : ReportFormat}
  {attempt : Attempt} {s : Reports} {file : ExecutionFile}

/-- A file name tells the run and the format. -/
theorem fileName_inj {runId' : Uuid} {format' : ReportFormat}
    (h : fileName runId format = fileName runId' format') : runId = runId' ∧ format = format' := by
  unfold fileName at h
  rw [List.append_assoc, List.append_assoc] at h
  have hrest := List.append_cancel_left h
  have hlength : runId.text.length = runId'.text.length := by
    rw [runId.length_text, runId'.length_text]
  obtain ⟨hid, hext⟩ := List.append_inj hrest hlength
  refine ⟨?_, ?_⟩
  · cases runId
    cases runId'
    subst hid
    rfl
  · cases format with
    | json =>
        cases format' with
        | json => rfl
        | txt => exact absurd hext (by decide)
    | txt =>
        cases format' with
        | json => exact absurd hext (by decide)
        | txt => rfl

/-- What an export returns for a file with this content. -/
def reportFile (sha256 : Text → Text) (runId : Uuid) (format : ReportFormat) (content : Text) :
    ExecutionFile where
  relativePath := "downloads/reports/".toList ++ fileName runId format
  purpose := "operation_report".toList
  sizeBytes := utf8Len content
  sha256 := sha256 content

/-- The bytes that an export encodes. -/
def reportBytes (root : Text) (format : ReportFormat) (credential : StoredCredential)
    (now : JsonInt) (details : OperationDetails) : Text :=
  encodeReport format ((shown root credential details).report now)

def Reports.put (s : Reports) (name content : Text) : Reports :=
  { s with directory := Function.update s.directory name (some content) }

@[simp] theorem Reports.put_runs (s : Reports) (name content : Text) :
    (s.put name content).runs = s.runs := rfl

theorem Reports.put_directory (s : Reports) (name content : Text) :
    (s.put name content).directory name = some content := Function.update_self ..

theorem Reports.put_other (s : Reports) {name other : Text} (content : Text) (h : other ≠ name) :
    (s.put name content).directory other = s.directory other := Function.update_of_ne h ..

theorem writeReport_state (sha256 : Text → Text) (attempt : Attempt) (name purpose bytes : Text)
    (s : Reports) :
    (writeReport sha256 attempt name purpose bytes s).2 = s
      ∨ (s.directory name = none
        ∧ (writeReport sha256 attempt name purpose bytes s).2 = s.put name bytes) := by
  unfold writeReport
  split
  next => exact Or.inl rfl
  next =>
    cases attempt.prepare with
    | error e => exact Or.inl rfl
    | ok _ =>
        cases hfile : s.directory name with
        | some content => exact Or.inl rfl
        | none =>
            cases attempt.write with
            | error e => exact Or.inl rfl
            | ok _ => exact Or.inr ⟨rfl, rfl⟩

/-- A report that is there is returned as it is. -/
theorem writeReport_ok {name purpose bytes : Text}
    (h : (writeReport sha256 attempt name purpose bytes s).1 = .ok file) :
    (writeReport sha256 attempt name purpose bytes s).2.directory name
        = some ((s.directory name).getD bytes)
      ∧ measured sha256 attempt name purpose ((s.directory name).getD bytes) = .ok file := by
  unfold writeReport at h ⊢
  by_cases hsize : maxReportBytes < utf8Len bytes
  · rw [if_pos hsize] at h
    exact absurd h (by simp)
  rw [if_neg hsize] at h ⊢
  cases hprepare : attempt.prepare with
  | error e =>
      rw [hprepare] at h
      exact absurd h (by simp)
  | ok _ =>
      rw [hprepare] at h
      dsimp only at h ⊢
      cases hfile : s.directory name with
      | some content =>
          rw [hfile] at h
          exact ⟨hfile, h⟩
      | none =>
          rw [hfile] at h
          dsimp only at h ⊢
          cases hwrite : attempt.write with
          | error e =>
              rw [hwrite] at h
              exact absurd h (by simp)
          | ok _ =>
              rw [hwrite] at h
              exact ⟨s.put_directory name bytes, h⟩

/-- An export changes nothing, or writes the file that was not there. -/
theorem exportRun_state (root : Text) (sha256 : Text → Text) (runId : Uuid)
    (format : ReportFormat) (attempt : Attempt) (s : Reports) :
    (exportRun root sha256 runId format attempt s).2 = s
      ∨ ∃ details credential, s.runs runId = some details ∧ attempt.credential = .ok credential
        ∧ s.directory (fileName runId format) = none
        ∧ (exportRun root sha256 runId format attempt s).2
          = s.put (fileName runId format)
            (reportBytes root format credential attempt.now details) := by
  unfold exportRun
  cases attempt.readRun with
  | error e => exact Or.inl rfl
  | ok _ =>
      cases hrun : s.runs runId with
      | none => exact Or.inl rfl
      | some details =>
          dsimp only
          split
          next => exact Or.inl rfl
          next =>
            cases hcredential : attempt.credential with
            | error e => exact Or.inl rfl
            | ok credential =>
                dsimp only
                rw [redactForServer_payload]
                rcases writeReport_state sha256 attempt (fileName runId format)
                  "operation_report".toList
                  (reportBytes root format credential attempt.now details) s
                  with hsame | ⟨habsent, hput⟩
                · exact Or.inl hsame
                · exact Or.inr ⟨details, credential, rfl, rfl, habsent, hput⟩

/-- **What a successful export returns**: the file that was there, or the one that it
wrote. -/
theorem exportRun_ok (h : (exportRun root sha256 runId format attempt s).1 = .ok file) :
    ∃ details credential content, s.runs runId = some details
      ∧ details.run.status.isTerminal = true ∧ attempt.credential = .ok credential
      ∧ content = (s.directory (fileName runId format)).getD
          (reportBytes root format credential attempt.now details)
      ∧ (exportRun root sha256 runId format attempt s).2.directory (fileName runId format)
        = some content
      ∧ file = reportFile sha256 runId format content := by
  unfold exportRun at h ⊢
  cases hread : attempt.readRun with
  | error e =>
      rw [hread] at h
      exact absurd h (by simp)
  | ok _ =>
      rw [hread] at h
      dsimp only at h ⊢
      cases hrun : s.runs runId with
      | none =>
          rw [hrun] at h
          exact absurd h (by simp)
      | some details =>
          rw [hrun] at h
          dsimp only at h ⊢
          by_cases hterminal : details.run.status.isTerminal = true
          · rw [hterminal] at h ⊢
            cases hcredential : attempt.credential with
            | error e =>
                rw [hcredential] at h
                exact absurd h (by simp)
            | ok credential =>
                rw [hcredential] at h
                dsimp only [Bool.not_true, Bool.false_eq_true, if_false] at h ⊢
                rw [redactForServer_payload] at h ⊢
                obtain ⟨hcontent, hmeasured⟩ := writeReport_ok h
                refine ⟨details, credential, _, rfl, hterminal, rfl, rfl, hcontent, ?_⟩
                unfold measured at hmeasured
                cases hmeasure : attempt.measure with
                | error e =>
                    rw [hmeasure] at hmeasured
                    exact absurd hmeasured (by simp [Except.map])
                | ok _ =>
                    rw [hmeasure] at hmeasured
                    exact (Except.ok.inj hmeasured).symm
          · rw [Bool.not_eq_true _ |>.mp hterminal] at h
            exact absurd h (by simp)

end Exports

/-! ## §7. Histories. -/

/-- What happens to runs: their status changes, their rows are rewritten in some other way,
or a report is exported. -/
inductive Event where
  | transitioned (runId : Uuid) (next : OperationStatus) (now : JsonInt)
  | rewritten (runId : Uuid) (details : OperationDetails)
  | exported (runId : Uuid) (format : ReportFormat) (attempt : Attempt)

def Reports.store (s : Reports) (runId : Uuid) (details : OperationDetails) : Reports :=
  { s with runs := Function.update s.runs runId (some details) }

@[simp] theorem Reports.store_runs (s : Reports) (runId : Uuid) (details : OperationDetails) :
    (s.store runId details).runs runId = some details := Function.update_self ..

@[simp] theorem Reports.store_directory (s : Reports) (runId : Uuid)
    (details : OperationDetails) : (s.store runId details).directory = s.directory := rfl

theorem Reports.store_store (s : Reports) (runId : Uuid) (old details : OperationDetails) :
    (s.store runId old).store runId details = s.store runId details := by
  unfold Reports.store
  rw [Function.update_idem]

/-- A refused transition leaves the rows as they are. -/
def Reports.transition (s : Reports) (runId : Uuid) (next : OperationStatus) (now : JsonInt) :
    Reports :=
  match s.runs runId with
  | none => s
  | some details =>
      match details.transition next now with
      | .error _ => s
      | .ok changed => s.store runId changed

@[simp] theorem Reports.transition_directory (s : Reports) (runId : Uuid)
    (next : OperationStatus) (now : JsonInt) :
    (s.transition runId next now).directory = s.directory := by
  unfold Reports.transition
  cases s.runs runId with
  | none => rfl
  | some details =>
      dsimp only
      cases details.transition next now with
      | error e => rfl
      | ok changed => rfl

section Histories

variable (root : Text) (sha256 : Text → Text)

def apply : Event → Reports → Reports
  | .transitioned runId next now, s => s.transition runId next now
  | .rewritten runId details, s => s.store runId details
  | .exported runId format attempt, s => (exportRun root sha256 runId format attempt s).2

/-- No run and no report. -/
def noReports : Reports := ⟨fun _ => none, fun _ => none⟩

/-- The state after a history, the latest event first. -/
def reportsAfter (history : List Event) : Reports :=
  History.replay (apply root sha256) noReports history

/-- An earlier export wrote the file of this run and format, and this is what it showed. -/
def WroteReport (runId : Uuid) (format : ReportFormat) (history : List Event)
    (earlier : Shown) : Prop :=
  ∃ after attempt before details credential,
    history = after ++ .exported runId format attempt :: before
      ∧ (reportsAfter root sha256 before).directory (fileName runId format) = none
      ∧ (reportsAfter root sha256 (.exported runId format attempt :: before)).directory
        (fileName runId format) ≠ none
      ∧ (reportsAfter root sha256 before).runs runId = some details
      ∧ attempt.credential = .ok credential
      ∧ earlier = shown root credential details

/-- The file shows these rows, redacted, with some generation time, and is described as it is. -/
def ShowsRun (format : ReportFormat) (credential : StoredCredential)
    (details : OperationDetails) (content : Text) (file : ExecutionFile) : Prop :=
  ∃ generatedAt,
    content = encodeReport format (redactForServer root credential (payload generatedAt details))
      ∧ file.sizeBytes = utf8Len content ∧ file.sha256 = sha256 content

end Histories

section Runs

variable {root : Text} {sha256 : Text → Text} {runId : Uuid} {format : ReportFormat}
  {event : Event} {s : Reports} {content : Text}

/-- No event changes a file that is there. -/
theorem apply_keeps {name : Text} (h : s.directory name = some content) :
    (apply root sha256 event s).directory name = some content := by
  cases event with
  | transitioned id next now =>
      show (s.transition id next now).directory name = some content
      rw [Reports.transition_directory]
      exact h
  | rewritten id details => exact h
  | exported id format attempt =>
      show (exportRun root sha256 id format attempt s).2.directory name = some content
      rcases exportRun_state root sha256 id format attempt s with hsame
        | ⟨details, credential, _, _, habsent, hput⟩
      · rw [hsame]
        exact h
      · have hother : name ≠ fileName id format := by
          rintro rfl
          rw [habsent] at h
          exact absurd h (by simp)
        rw [hput, Reports.put_other s _ hother]
        exact h

/-- A new file was written by an export of its run in its format. -/
theorem apply_writes (habsent : s.directory (fileName runId format) = none)
    (hthere : (apply root sha256 event s).directory (fileName runId format) = some content) :
    ∃ attempt details credential, event = .exported runId format attempt
      ∧ s.runs runId = some details ∧ attempt.credential = .ok credential
      ∧ content = reportBytes root format credential attempt.now details := by
  cases event with
  | transitioned id next now =>
      have hsame : (s.transition id next now).directory (fileName runId format) = some content :=
        hthere
      rw [Reports.transition_directory, habsent] at hsame
      exact absurd hsame (by simp)
  | rewritten id details => exact absurd (habsent.symm.trans hthere) (by simp)
  | exported id format' attempt =>
      have hafter : (exportRun root sha256 id format' attempt s).2.directory
          (fileName runId format) = some content := hthere
      rcases exportRun_state root sha256 id format' attempt s with hsame
        | ⟨details, credential, hrun, hcredential, _, hput⟩
      · rw [hsame, habsent] at hafter
        exact absurd hafter (by simp)
      · rw [hput] at hafter
        by_cases hname : fileName runId format = fileName id format'
        · obtain ⟨rfl, rfl⟩ := fileName_inj hname
          rw [Reports.put_directory] at hafter
          exact ⟨attempt, details, credential, rfl, hrun, hcredential,
            (Option.some.inj hafter).symm⟩
        · rw [Reports.put_other s _ hname, habsent] at hafter
          exact absurd hafter (by simp)

@[simp] theorem reportsAfter_cons (event : Event) (before : List Event) :
    reportsAfter root sha256 (event :: before)
      = apply root sha256 event (reportsAfter root sha256 before) := rfl

theorem reportsAfter_keeps {name : Text} {before : List Event}
    (h : (reportsAfter root sha256 before).directory name = some content) (after : List Event) :
    (reportsAfter root sha256 (after ++ before)).directory name = some content := by
  induction after with
  | nil => exact h
  | cons event after ih => exact apply_keeps ih

/-- The file of the export that wrote it is still as it was written. -/
theorem WroteReport.file_eq {history : List Event} {earlier : Shown}
    (h : WroteReport root sha256 runId format history earlier) :
    ∃ generatedAt, (reportsAfter root sha256 history).directory (fileName runId format)
      = some (encodeReport format (earlier.report generatedAt)) := by
  obtain ⟨after, attempt, before, details, credential, rfl, habsent, hthere, hrun, hcredential,
    rfl⟩ := h
  obtain ⟨content, hcontent⟩ := Option.ne_none_iff_exists'.mp hthere
  have hkept := reportsAfter_keeps hcontent after
  rw [reportsAfter_cons] at hcontent
  obtain ⟨attempt', details', credential', hevent, hrun', hcredential', hbytes⟩ :=
    apply_writes habsent hcontent
  obtain rfl : attempt = attempt' := by
    injection hevent
  rw [hrun] at hrun'
  rw [hcredential] at hcredential'
  obtain rfl := Option.some.inj hrun'
  obtain rfl := Except.ok.inj hcredential'
  exact ⟨attempt.now, hkept.trans (congrArg some hbytes)⟩

/-- A file that is there was written by one export. -/
theorem exists_wroteReport {history : List Event}
    (h : (reportsAfter root sha256 history).directory (fileName runId format) = some content) :
    ∃ earlier generatedAt, WroteReport root sha256 runId format history earlier
      ∧ content = encodeReport format (earlier.report generatedAt) := by
  have hstart : ¬ ∃ content, (History.replay (apply root sha256) noReports []).directory
      (fileName runId format) = some content := by
    rintro ⟨content, hcontent⟩
    exact absurd hcontent (by simp [noReports])
  have hend : ∃ content, (History.replay (apply root sha256) noReports (history ++ [])).directory
      (fileName runId format) = some content := by
    rw [List.append_nil]
    exact ⟨content, h⟩
  obtain ⟨after, event, before, hhistory, hbefore, written, hwritten⟩ :=
    History.exists_switch (P := fun s : Reports =>
      ∃ content, s.directory (fileName runId format) = some content) hstart hend
  rw [List.append_nil] at hbefore hwritten
  have habsent : (reportsAfter root sha256 before).directory (fileName runId format) = none := by
    cases hfile : (reportsAfter root sha256 before).directory (fileName runId format) with
    | none => rfl
    | some old => exact absurd ⟨old, hfile⟩ hbefore
  obtain ⟨attempt, details, credential, rfl, hrun, hcredential, hbytes⟩ :=
    apply_writes habsent hwritten
  have hkept := reportsAfter_keeps hwritten after
  rw [← hhistory, h] at hkept
  refine ⟨shown root credential details, attempt.now,
    ⟨after, attempt, before, details, credential, hhistory, habsent, ?_, hrun, hcredential, rfl⟩,
    (Option.some.inj hkept).trans hbytes⟩
  exact fun hnone => absurd (hnone.symm.trans hwritten) (by simp)

end Runs

/-- **When the file shows the rows as they are.**  After every history, what a successful
export returns describes the file of the run and the format; the file shows the run as it is
at that export if and only if the export that wrote it showed the same. -/
theorem report_shows_current_run (root : Text) (sha256 : Text → Text) (history : List Event)
    (runId : Uuid) (format : ReportFormat) (attempt : Attempt) {file : ExecutionFile}
    (h : (exportRun root sha256 runId format attempt (reportsAfter root sha256 history)).1
      = .ok file) :
    ∃ details credential content,
      (reportsAfter root sha256 history).runs runId = some details
        ∧ details.run.status.isTerminal = true ∧ attempt.credential = .ok credential
        ∧ (exportRun root sha256 runId format attempt
            (reportsAfter root sha256 history)).2.directory (fileName runId format) = some content
        ∧ file = reportFile sha256 runId format content
        ∧ (ShowsRun root sha256 format credential details content file
          ↔ ∀ earlier, WroteReport root sha256 runId format history earlier →
              SameContents format earlier (shown root credential details)) := by
  obtain ⟨details, credential, content, hrun, hterminal, hcredential, hcontent, hfile, hreport⟩ :=
    exportRun_ok h
  refine ⟨details, credential, content, hrun, hterminal, hcredential, hfile, hreport, ?_, ?_⟩
  · rintro ⟨generatedAt, hshows, _, _⟩ earlier hwrote
    obtain ⟨writtenAt, hwritten⟩ := hwrote.file_eq
    rw [hwritten, Option.getD_some] at hcontent
    rw [hcontent, redactForServer_payload] at hshows
    exact ((encodeReport_eq_iff format earlier _ writtenAt generatedAt).mp hshows).2
  · intro hsame
    cases hthere : (reportsAfter root sha256 history).directory (fileName runId format) with
    | none =>
        -- the first report of this format is that of this export
        rw [hthere, Option.getD_none] at hcontent
        refine ⟨attempt.now, ?_, by rw [hreport]; rfl, by rw [hreport]; rfl⟩
        rw [hcontent, redactForServer_payload]
        rfl
    | some old =>
        rw [hthere, Option.getD_some] at hcontent
        obtain ⟨earlier, writtenAt, hwrote, hold⟩ := exists_wroteReport hthere
        refine ⟨writtenAt, ?_, by rw [hreport]; rfl, by rw [hreport]; rfl⟩
        rw [hcontent, hold, redactForServer_payload]
        exact (encodeReport_eq_iff format earlier _ writtenAt writtenAt).mpr
          ⟨rfl, hsame earlier hwrote⟩

/-! ## §8. A report from before the rollback. -/

def reportedRun : Uuid := ⟨"00000000-0000-4000-8000-000000000001".toList, Domain.hyphenated_one⟩

theorem one_inRange : -(2 ^ 63) ≤ (1 : Int) ∧ (1 : Int) < 2 ^ 64 := by decide

theorem two_inRange : -(2 ^ 63) ≤ (2 : Int) ∧ (2 : Int) < 2 ^ 64 := by decide

def succeededDetails : OperationDetails where
  run :=
    { id := reportedRun, serverId := "s".toList, taskId := "network.hosts".toList
      taskVersion := ⟨2, two_inRange⟩, riskLevel := .dangerous, status := .succeeded
      parametersSummary := none, result := none, errorCategory := none, errorMessage := none
      createdAt := ⟨1, one_inRange⟩, updatedAt := ⟨2, two_inRange⟩
      finishedAt := some ⟨2, two_inRange⟩ }
  steps := []

def samplePassword : StoredCredential := .password "hunter2".toList

/-- An export that nothing goes wrong with. -/
def smoothAttempt (now : JsonInt) : Attempt where
  now := now
  readRun := .ok ()
  credential := .ok samplePassword
  prepare := .ok ()
  write := .ok ()
  measure := .ok ()

def sampleDigest (content : Text) : Text := List.replicate 64 (Nat.digitChar (content.length % 16))

/-- The run is reported, and then rolled back. -/
def rolledBackHistory : List Event :=
  [.transitioned reportedRun .rolledBack ⟨6, by decide⟩,
    .transitioned reportedRun .rollingBack ⟨5, by decide⟩,
    .transitioned reportedRun .rollbackAvailable ⟨4, by decide⟩,
    .exported reportedRun .json (smoothAttempt ⟨3, by decide⟩),
    .rewritten reportedRun succeededDetails]

def rolledBackDetails : OperationDetails :=
  { succeededDetails with
    run := { succeededDetails.run with
             status := .rolledBack, updatedAt := ⟨6, by decide⟩
             finishedAt := some ⟨6, by decide⟩ } }

def rootText : Text := "/data".toList

def sampleBytes (now : JsonInt) (details : OperationDetails) : Text :=
  reportBytes rootText .json samplePassword now details

/-- A secret that is given several times is registered once. -/
theorem new_replicate {secret : Text} (hne : secret ≠ []) (n : Nat) :
    Redactor.new (List.replicate (n + 1) secret)
      = ⟨[secret], fun _ h => List.mem_singleton.mp h ▸ hne⟩ := by
  have honce : (List.replicate (n + 1) secret).destutter (· ≠ ·) = [secret] := by
    show (List.replicate n secret).destutter' (· ≠ ·) secret = [secret]
    induction n with
    | zero => rfl
    | succ n ih =>
        rw [List.replicate_succ, List.destutter'_cons_neg _ (by simp)]
        exact ih
  have hkept : (List.replicate (n + 1) secret).filter (fun s => !s.isEmpty)
      = List.replicate (n + 1) secret := by
    rw [List.filter_eq_self]
    intro s hs
    rw [List.eq_of_mem_replicate hs]
    cases secret with
    | nil => exact absurd rfl hne
    | cons c rest => rfl
  have hsorted : (List.replicate (n + 1) secret).mergeSort
      (fun s t => decide (utf8Len t ≤ utf8Len s)) = List.replicate (n + 1) secret :=
    List.mergeSort_of_pairwise (List.pairwise_replicate.mpr (Or.inr (by simp)))
  unfold Redactor.new
  congr 1
  rw [hkept, hsorted, honce]

theorem rootRedactor_sample : rootRedactor rootText = ⟨[rootText], by decide⟩ :=
  new_replicate (by decide) 1

theorem credentialRedactor_sample :
    credentialRedactor samplePassword = ⟨["hunter2".toList], by decide⟩ :=
  new_replicate (by decide) 0

theorem sampleBytes_fit :
    utf8Len (sampleBytes ⟨3, by decide⟩ succeededDetails) ≤ maxReportBytes
      ∧ utf8Len (sampleBytes ⟨7, by decide⟩ rolledBackDetails) ≤ maxReportBytes := by
  unfold sampleBytes reportBytes shown redactForServer
  simp only [rootRedactor_sample, credentialRedactor_sample]
  decide +kernel

/-- The status that a report shows. -/
def shownStatus (shown : Shown) : Option Text :=
  ((field "run" shown.operation).bind (field "status")).bind Value.asStr

theorem shownStatus_sample :
    shownStatus (shown rootText samplePassword succeededDetails) = some "succeeded".toList
      ∧ shownStatus (shown rootText samplePassword rolledBackDetails)
        = some "rolled_back".toList := by
  unfold shown redactForServer
  simp only [rootRedactor_sample, credentialRedactor_sample]
  decide +kernel

/-- An export without failures. -/
theorem exportRun_smooth {s : Reports} {root : Text} {sha256 : Text → Text} {runId : Uuid}
    {format : ReportFormat} {now : JsonInt} {details : OperationDetails}
    (hrun : s.runs runId = some details) (hterminal : details.run.status.isTerminal = true)
    (hfits : utf8Len (reportBytes root format samplePassword now details) ≤ maxReportBytes) :
    exportRun root sha256 runId format (smoothAttempt now) s
      = match s.directory (fileName runId format) with
        | some content => (.ok (reportFile sha256 runId format content), s)
        | none =>
            (.ok (reportFile sha256 runId format
                (reportBytes root format samplePassword now details)),
              s.put (fileName runId format)
                (reportBytes root format samplePassword now details)) := by
  unfold exportRun smoothAttempt
  dsimp only
  rw [hrun]
  dsimp only
  rw [hterminal, if_neg (by decide), redactForServer_payload]
  unfold writeReport
  have hsmall := Nat.not_lt.mpr hfits
  rw [reportBytes] at hsmall
  rw [if_neg hsmall]
  cases s.directory (fileName runId format) with
  | some content => rfl
  | none => rfl

theorem Reports.transition_of_can {s : Reports} {runId : Uuid} {next : OperationStatus}
    {details : OperationDetails} (now : JsonInt) (hrun : s.runs runId = some details)
    (hcan : details.run.status.canTransitionTo next = true) :
    s.transition runId next now = s.store runId (details.withStatus next now) := by
  unfold Reports.transition OperationDetails.transition
  rw [hrun]
  dsimp only
  rw [if_pos hcan]

theorem report_shows_current_run_first :
    ∃ content,
      (exportRun rootText sampleDigest reportedRun .json (smoothAttempt ⟨3, by decide⟩)
          (reportsAfter rootText sampleDigest [.rewritten reportedRun succeededDetails])).2.directory
        (fileName reportedRun .json) = some content
        ∧ ShowsRun rootText sampleDigest .json samplePassword succeededDetails content
          (reportFile sampleDigest reportedRun .json content) := by
  have hstored : (reportsAfter rootText sampleDigest
      [.rewritten reportedRun succeededDetails]).runs reportedRun = some succeededDetails :=
    Reports.store_runs noReports _ _
  have hexport := @exportRun_smooth _ rootText sampleDigest reportedRun .json ⟨3, by decide⟩ _
    hstored rfl sampleBytes_fit.1
  obtain ⟨details, credential, content, hrun, _, hcredential, hfile, hreport, hiff⟩ :=
    report_shows_current_run rootText sampleDigest [.rewritten reportedRun succeededDetails]
      reportedRun .json (smoothAttempt ⟨3, by decide⟩) (congrArg Prod.fst hexport)
  obtain rfl := Option.some.inj (hstored.symm.trans hrun)
  obtain rfl : samplePassword = credential := Except.ok.inj hcredential
  refine ⟨content, hfile, hreport ▸ hiff.mpr ?_⟩
  rintro earlier ⟨after, attempt, before, _, _, hhistory, _⟩
  -- the only event is not an export
  cases after with
  | nil => exact absurd (List.cons.inj hhistory).1 (by simp)
  | cons event after => exact absurd (List.cons.inj hhistory).2 (by simp)

/-- The report of a run that was rolled back after an export still shows the success. -/
theorem rolled_back_run_reported_as_succeeded :
    ∃ file content,
      (exportRun rootText sampleDigest reportedRun .json (smoothAttempt ⟨7, by decide⟩)
          (reportsAfter rootText sampleDigest rolledBackHistory)).1 = .ok file
        ∧ (reportsAfter rootText sampleDigest rolledBackHistory).runs reportedRun
          = some rolledBackDetails
        ∧ (exportRun rootText sampleDigest reportedRun .json (smoothAttempt ⟨7, by decide⟩)
            (reportsAfter rootText sampleDigest rolledBackHistory)).2.directory
          (fileName reportedRun .json) = some content
        ∧ file = reportFile sampleDigest reportedRun .json content
        ∧ ¬ ShowsRun rootText sampleDigest .json samplePassword rolledBackDetails content file := by
  let bytes := sampleBytes ⟨3, by decide⟩ succeededDetails
  have hexported : reportsAfter rootText sampleDigest
      [.exported reportedRun .json (smoothAttempt ⟨3, by decide⟩),
        .rewritten reportedRun succeededDetails]
      = (noReports.store reportedRun succeededDetails).put (fileName reportedRun .json) bytes := by
    show (exportRun rootText sampleDigest reportedRun .json (smoothAttempt ⟨3, by decide⟩)
      (noReports.store reportedRun succeededDetails)).2 = _
    rw [exportRun_smooth (noReports.store_runs _ _) rfl sampleBytes_fit.1]
    rfl
  have hrolledBack : reportsAfter rootText sampleDigest rolledBackHistory
      = ((noReports.store reportedRun succeededDetails).put (fileName reportedRun .json)
          bytes).store reportedRun rolledBackDetails := by
    show (((reportsAfter rootText sampleDigest _).transition _ _ _).transition _ _ _).transition
      reportedRun .rolledBack ⟨6, by decide⟩ = _
    have hstored : ((noReports.store reportedRun succeededDetails).put
        (fileName reportedRun .json) bytes).runs reportedRun = some succeededDetails := by
      rw [Reports.put_runs, Reports.store_runs]
    rw [hexported, Reports.transition_of_can _ hstored rfl,
      Reports.transition_of_can _ (Reports.store_runs _ _ _) rfl,
      Reports.transition_of_can _ (Reports.store_runs _ _ _) rfl, Reports.store_store,
      Reports.store_store]
    rfl
  have hthere : (reportsAfter rootText sampleDigest rolledBackHistory).directory
      (fileName reportedRun .json) = some bytes := by
    rw [hrolledBack, Reports.store_directory, Reports.put_directory]
  have hrun : (reportsAfter rootText sampleDigest rolledBackHistory).runs reportedRun
      = some rolledBackDetails := by
    rw [hrolledBack, Reports.store_runs]
  have hexport := @exportRun_smooth _ rootText sampleDigest reportedRun .json ⟨7, by decide⟩ _
    hrun rfl sampleBytes_fit.2
  rw [hthere] at hexport
  refine ⟨reportFile sampleDigest reportedRun .json bytes, bytes, ?_, hrun, ?_, rfl, ?_⟩
  · rw [hexport]
  · rw [hexport]
    exact hthere
  · rintro ⟨generatedAt, hshows, _, _⟩
    rw [redactForServer_payload] at hshows
    have hsame := ((encodeReport_eq_iff .json _ _ _ _).mp hshows).2
    have hstatus : shownStatus (shown rootText samplePassword succeededDetails)
        = shownStatus (shown rootText samplePassword rolledBackDetails) :=
      congrArg (fun operation => ((field "run" operation).bind (field "status")).bind Value.asStr)
        hsame.2
    rw [shownStatus_sample.1, shownStatus_sample.2] at hstatus
    exact absurd hstatus (by decide)

end QingzhouSSH.Services.OperationReportService
