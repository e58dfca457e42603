/-
  QingzhouSSH.Repositories.ExecutionRepository — execution records.

  The checks a new record passes, and the updates of its status.  The categories
  that are accepted are fewer than those a task may have.

  Main results:
    * `create_isOk_iff` — which drafts become records;
    * `finish_ok` — a record ends once;
    * `finish_summarised` — its summary is capped.
-/
import QingzhouSSH.Core.Error

namespace QingzhouSSH.Repositories.ExecutionRepository

open String (utf8Len)

/-! ## §1. Records. -/

inductive ExecutionStatus where
  | queued
  | running
  | succeeded
  | failed
  | cancelled
  | uncertain
  deriving Repr, DecidableEq

def ExecutionStatus.isTerminal : ExecutionStatus → Bool
  | .succeeded | .failed | .cancelled | .uncertain => true
  | _ => false

structure ExecutionParameter where
  name : Text
  displayValue : Text
  sensitive : Bool
  deriving Repr, DecidableEq

structure NewExecution where
  serverId : Text
  taskId : Text
  taskVersion : Int
  category : Text
  parameters : List ExecutionParameter
  deriving Repr, DecidableEq

structure ExecutionRecord where
  serverId : Text
  taskId : Text
  taskVersion : Int
  category : Text
  status : ExecutionStatus
  parametersSummary : Option Text
  exitCode : Option Int
  errorCategory : Option Text
  errorMessage : Option Text
  retryable : Bool
  outputSummary : Option Text
  deriving Repr, DecidableEq

structure FinishExecution where
  status : ExecutionStatus
  exitCode : Option Int
  errorCategory : Option Text
  errorMessage : Option Text
  retryable : Bool
  outputSummary : Option Text
  deriving Repr, DecidableEq

/-- A file that an execution has left in the data root. -/
structure ExecutionFile where
  relativePath : Text
  purpose : Text
  sizeBytes : Nat
  sha256 : Text
  deriving Repr, DecidableEq

/-! ## §2. Creating a record. -/

/-- The categories of execution records. -/
def categories : List Text :=
  ["system".toList, "service".toList, "logs".toList, "advanced".toList, "transfer".toList]

def checkParameters : List ExecutionParameter → AppResult Unit
  | [] => .ok ()
  | parameter :: rest =>
      if isBlankText parameter.name || parameter.name.contains '\x00' then
        .error (.validation "执行参数名称无效".toList)
      else if 8 * 1024 < utf8Len parameter.displayValue then
        .error (.validation "执行参数摘要超过限制".toList)
      else checkParameters rest

/-- `validate_draft`. -/
def validateDraft (draft : NewExecution) : AppResult Unit :=
  if isBlankText draft.serverId || isBlankText draft.taskId || isBlankText draft.category
      || draft.taskVersion ≤ 0 then
    .error (.validation "执行定义不完整".toList)
  else if !categories.contains draft.category then
    .error (.validation "执行类别无效".toList)
  else checkParameters draft.parameters

/-- `parameter_summary`. -/
def parameterSummary (parameters : List ExecutionParameter) : Option Text :=
  if parameters.isEmpty then none
  else
    capUtf8
      (some (List.intercalate [',', ' '] (parameters.map fun p =>
        p.name ++ '=' :: (if p.sensitive then "[REDACTED]".toList else p.displayValue))))
      (8 * 1024)

/-- `create`: one transaction over the record and its parameters, whose names are
a primary key. -/
def create (draft : NewExecution) : AppResult ExecutionRecord := do
  validateDraft draft
  if ¬ (draft.parameters.map ExecutionParameter.name).Nodup then
    .error (.database "UNIQUE constraint failed".toList)
  else
    .ok { serverId := draft.serverId, taskId := draft.taskId, taskVersion := draft.taskVersion,
          category := draft.category, status := .queued,
          parametersSummary := parameterSummary draft.parameters, exitCode := none,
          errorCategory := none, errorMessage := none, retryable := false,
          outputSummary := none }

/-! ## §3. Updates. -/

/-- `mark_running`. -/
def markRunning (record : ExecutionRecord) : AppResult ExecutionRecord :=
  if record.status = .queued then .ok { record with status := .running }
  else .error (.validation "执行记录无法进入运行状态".toList)

/-- `finish`. -/
def finish (update : FinishExecution) (record : ExecutionRecord) : AppResult ExecutionRecord :=
  if ¬ update.status.isTerminal then .error (.validation "执行终态无效".toList)
  else if record.status = .queued ∨ record.status = .running then
    .ok { record with
          status := update.status, exitCode := update.exitCode,
          errorCategory := update.errorCategory,
          errorMessage := capUtf8 update.errorMessage (8 * 1024),
          retryable := update.retryable,
          outputSummary := capUtf8 update.outputSummary (8 * 1024) }
  else .error (.validation "执行记录无法进入终态".toList)

/-- `u8::is_ascii_hexdigit`. -/
def isAsciiHexDigit (c : Char) : Bool :=
  ('0' ≤ c && c ≤ '9') || ('a' ≤ c && c ≤ 'f') || ('A' ≤ c && c ≤ 'F')

/-- `validate_file`; which paths are absolute depends on the platform. -/
def validateFile (isAbsolute : Text → Bool) (file : ExecutionFile) : AppResult Unit :=
  if file.relativePath.isEmpty || file.relativePath.contains '\x00' || isAbsolute file.relativePath
      || (file.relativePath.splitOnP fun c => c == '/' || c == '\\').contains ['.', '.'] then
    .error (.validation "执行文件必须使用安全的数据根相对路径".toList)
  else if utf8Len file.sha256 != 64 || !file.sha256.all isAsciiHexDigit then
    .error (.validation "执行文件 SHA-256 无效".toList)
  else .ok ()

/-- The row of `add_file`. -/
def fileRow (file : ExecutionFile) : ExecutionFile :=
  { file with sha256 := file.sha256.map Char.toLower }

/-- The checks of `add_file`. -/
def checkFile (isAbsolute : Text → Bool) (file : ExecutionFile) : AppResult Unit := do
  validateFile isAbsolute file
  if file.sizeBytes < 2 ^ 63 then .ok () else .error (.validation "执行文件大小超出范围".toList)

/-! ## §4. What is accepted. -/

theorem checkParameters_eq_ok {parameters : List ExecutionParameter} :
    checkParameters parameters = .ok () ↔ ∀ p ∈ parameters,
      isBlankText p.name = false ∧ '\x00' ∉ p.name ∧ utf8Len p.displayValue ≤ 8 * 1024 := by
  induction parameters with
  | nil => simp [checkParameters]
  | cons p parameters ih =>
      rw [checkParameters, List.forall_mem_cons, ← ih]
      split
      next h =>
        refine iff_of_false (by simp) ?_
        rintro ⟨⟨hblank, hnul, _⟩, _⟩
        simp [hblank, hnul] at h
      next h =>
        split
        next hlong =>
          refine iff_of_false (by simp) ?_
          rintro ⟨⟨_, _, hshort⟩, _⟩
          omega
        next hlong =>
          simp only [Bool.or_eq_true, List.contains_eq_mem, decide_eq_true_eq, not_or,
            Bool.not_eq_true] at h
          constructor
          · exact fun hrest => ⟨⟨h.1, h.2, by omega⟩, hrest⟩
          · exact fun hall => hall.2

/-- **A draft becomes a record exactly when it is complete, of a known category,
and its parameters are named, distinct and short.** -/
theorem create_isOk_iff (draft : NewExecution) : (create draft).isOk = true ↔
    (isBlankText draft.serverId = false ∧ isBlankText draft.taskId = false
        ∧ isBlankText draft.category = false ∧ 0 < draft.taskVersion)
      ∧ draft.category ∈ categories
      ∧ (∀ p ∈ draft.parameters,
          isBlankText p.name = false ∧ '\x00' ∉ p.name ∧ utf8Len p.displayValue ≤ 8 * 1024)
      ∧ (draft.parameters.map ExecutionParameter.name).Nodup := by
  rw [← checkParameters_eq_ok]
  unfold create validateDraft
  split
  next h =>
    refine iff_of_false (by simp [bind, Except.bind, Except.isOk, Except.toBool]) ?_
    rintro ⟨⟨h1, h2, h3, h4⟩, _⟩
    simp only [h1, h2, h3, Bool.or_self, Bool.false_or, decide_eq_true_eq] at h
    omega
  next h =>
    simp only [Bool.or_eq_true, decide_eq_true_eq, not_or, Bool.not_eq_true, Int.not_le] at h
    split
    next hcat =>
      refine iff_of_false (by simp [bind, Except.bind, Except.isOk, Except.toBool]) ?_
      rintro ⟨_, hmem, _⟩
      simp [hmem] at hcat
    next hcat =>
      simp only [Bool.not_eq_true', List.contains_eq_mem, decide_eq_false_iff_not,
        not_not] at hcat
      cases hcheck : checkParameters draft.parameters with
      | error e =>
          refine iff_of_false (by simp [bind, Except.bind, Except.isOk, Except.toBool]) ?_
          rintro ⟨_, _, hok, _⟩
          exact absurd hok (by simp)
      | ok _ =>
          simp only [bind, Except.bind]
          split
          next hnodup =>
            refine iff_of_false (by simp [Except.isOk, Except.toBool]) ?_
            exact fun hall => hnodup hall.2.2.2
          next hnodup =>
            refine iff_of_true rfl ⟨⟨h.1.1.1, h.1.1.2, h.1.2, h.2⟩, hcat, trivial, ?_⟩
            exact not_not.mp hnodup

/-- A new record is queued, and says what it was made from. -/
theorem create_ok {draft : NewExecution} {record : ExecutionRecord}
    (h : create draft = .ok record) : record.status = .queued := by
  obtain ⟨_, _, h⟩ := bind_eq_ok.mp h
  split at h
  next => exact absurd h (by simp)
  next =>
    rw [← Except.ok.inj h]

theorem markRunning_ok {record record' : ExecutionRecord} (h : markRunning record = .ok record') :
    record' = { record with status := .running } := by
  unfold markRunning at h
  split at h
  next => exact (Except.ok.inj h).symm
  next => exact absurd h (by simp)

theorem finish_ok {update : FinishExecution} {record record' : ExecutionRecord}
    (h : finish update record = .ok record') :
    record'.status = update.status ∧ update.status.isTerminal = true := by
  unfold finish at h
  split at h
  next => exact absurd h (by simp)
  next hterminal =>
    split at h
    next =>
      rw [← Except.ok.inj h]
      exact ⟨rfl, not_not.mp hterminal⟩
    next => exact absurd h (by simp)

/-! ## §5. Summaries. -/

/-- The summary of the output is no longer than the table admits. -/
def ExecutionRecord.Summarised (record : ExecutionRecord) : Prop :=
  ∀ summary ∈ record.outputSummary, utf8Len summary ≤ 8 * 1024

theorem create_summarised {draft : NewExecution} {record : ExecutionRecord}
    (h : create draft = .ok record) : record.Summarised := by
  obtain ⟨_, _, h⟩ := bind_eq_ok.mp h
  split at h
  next => exact absurd h (by simp)
  next =>
    intro summary hsummary
    rw [← Except.ok.inj h] at hsummary
    cases hsummary

theorem markRunning_summarised {record record' : ExecutionRecord}
    (h : markRunning record = .ok record') (hbefore : record.Summarised) : record'.Summarised := by
  rw [markRunning_ok h]
  exact hbefore

theorem finish_summarised {update : FinishExecution} {record record' : ExecutionRecord}
    (h : finish update record = .ok record') : record'.Summarised := by
  unfold finish at h
  split at h
  next => exact absurd h (by simp)
  next =>
    split at h
    next =>
      intro summary hsummary
      rw [← Except.ok.inj h] at hsummary
      obtain ⟨given, _, rfl⟩ := Option.map_eq_some_iff.mp hsummary
      exact utf8Len_takeUtf8_le _ given
    next => exact absurd h (by simp)

end QingzhouSSH.Repositories.ExecutionRepository
