/-
  QingzhouSSH.Services.ScriptRuns — previewing, confirming and cancelling a script run.

  A state holds the tables of scripts and of operation runs, the previews and the tokens of the
  runs in progress, and where every call stands.  A step is one transaction, one section under a
  lock, or one answer of the connector or of the host; any number of calls take their steps in
  any order, and scripts are edited between them.  The token of a confirmation is named by its
  call.  What follows the submission of a command is one step with any result.  The state also
  remembers what was shown, what was withdrawn or cancelled, and what was submitted.

  Main results:
    * `advance_cases` — a step of a call is a step of its operation;
    * `step_start`, `run_snoc` — runs.
-/
import Mathlib.Logic.Function.Basic
import QingzhouSSH.Core.Scripts.Environment
import QingzhouSSH.Repositories.OperationRepository
import QingzhouSSH.Repositories.ScriptRepository
import QingzhouSSH.Services.ExecutionService

namespace QingzhouSSH.Services.ScriptService

open QingzhouSSH.Core.Scripts
open QingzhouSSH.Core.Tasks (RiskLevel SystemCapabilities UuidCrate ValidatedParameters shown)
open QingzhouSSH.Domain
open QingzhouSSH.Repositories
open QingzhouSSH.Repositories.ExecutionRepository (ExecutionParameter ExecutionStatus NewExecution)
open QingzhouSSH.Repositories.ScriptRepository (Tables getForEditor getVersion recordRun)
open QingzhouSSH.Services.ExecutionService (statusOfError)

/-! ## §1. Values. -/

def previewTtlMillis : Int := 5 * 60 * 1000

/-- `i64::saturating_add`, of a time that is not negative. -/
def expiryOf (now : Int) : Int := min (2 ^ 63 - 1) (now + previewTtlMillis)

structure PendingScriptPreview where
  confirmationToken : Uuid
  expiresAt : Int
  serverId : Text
  definitionId : Uuid
  versionId : Uuid
  versionNumber : Nat
  parameterValues : Value

/-- What a preview shows. -/
structure ScriptRunPreview where
  previewId : Uuid
  confirmationToken : Uuid
  expiresAt : Int
  serverId : Text
  scriptDefinitionId : Uuid
  scriptVersionId : Uuid
  scriptVersionNumber : Nat
  title : Text
  riskLevel : RiskLevel
  automaticRollbackAvailable : Bool
  warning : Text
  lineCount : Nat
  characterCount : Nat
  bodySha256 : Text
  parameterNames : List Text
  scanWarnings : List ScriptScanWarning
  timeoutSeconds : Nat
  shell : ScriptShell
  compatibility : ScriptCompatibility

/-- `public_history`. -/
def publicHistory (name : String) (displayValue : Text) : ExecutionParameter :=
  { name := name.toList, displayValue := displayValue, sensitive := false }

/-- `execution_history_parameters`. -/
def executionHistoryParameters (definitionId : Uuid) (version : ScriptVersion)
    (parameters : ValidatedParameters) : List ExecutionParameter :=
  [publicHistory "scriptDefinitionId" definitionId.text,
    publicHistory "scriptVersionId" version.id.text,
    publicHistory "bodySha256" version.bodySha256,
    publicHistory "timeoutSeconds" (showNat version.timeoutSeconds),
    publicHistory "shell" version.shell.asStr]
  ++ parameters.entries.map fun e =>
    { name := "parameter.".toList ++ e.1, displayValue := shown e.2, sensitive := e.2.sensitive }

/-- `operation_parameter_summary`. -/
def operationParameterSummary (definitionId : Uuid) (version : ScriptVersion)
    (parameters : ValidatedParameters) : Option Text :=
  let values := executionHistoryParameters definitionId version parameters
  capUtf8
    (some (List.intercalate ", ".toList (values.map fun parameter =>
      parameter.name ++ '=' ::
        (if parameter.sensitive then "[REDACTED]".toList else parameter.displayValue))))
    (8 * 1024)

/-- `operation_status`. -/
def operationStatus : ExecutionStatus → OperationStatus
  | .succeeded => .succeeded
  | .cancelled => .cancelled
  | .uncertain => .uncertain
  | .failed | .queued | .running => .failed

/-- `CommandRequest::validate`, with the limit on the output that scripts have. -/
def validateCommandRequest (command : Text) (timeoutSeconds : Nat) : AppResult Unit :=
  if command.isEmpty || command.contains '\x00' then
    .error (.validation "SSH 命令不能为空或包含 NUL".toList)
  else if timeoutSeconds = 0 then .error (.validation "SSH 命令超时时间必须大于零".toList)
  else .ok ()

/-! ## §2. What a call works on. -/

/-- What is worked out before a run is created. -/
structure PreviewDraft where
  serverId : Text
  parameterValues : Value
  details : ScriptDetails
  parameters : List ScriptParameter
  validated : ValidatedParameters
  scan : ScriptScanSummary

/-- A preview that was shown, with the version and the values that it was made from. -/
structure IssuedPreview where
  preview : ScriptRunPreview
  version : ScriptVersion
  values : ValidatedParameters

/-- A confirmation whose token was accepted. -/
structure Confirmation where
  previewId : Uuid
  confirmationToken : Uuid
  confirmedAt : Int
  pending : PendingScriptPreview

/-- A confirmation with the version and the values that it runs with. -/
structure PreparedScript extends Confirmation where
  version : ScriptVersion
  values : ValidatedParameters

/-- A script that was submitted to its host, and the runs whose cancellation had succeeded
before. -/
structure ScriptExecution extends PreparedScript where
  launcher : Text
  cancelledBefore : List Uuid

/-- What a call returns. -/
inductive ScriptReply where
  | previewed (preview : ScriptRunPreview)
  | ran (previewId definitionId versionId : Uuid) (status : ExecutionStatus)
  | cancelled

inductive Request where
  | preview (definitionId : Uuid) (serverId : Text) (parameterValues : Value)
  | confirm (previewId confirmationToken : Uuid)
  | cancel (runId : Uuid)

/-- Where a call stands: before the step that is named. -/
inductive Phase where
  | unstarted
  | readingScript (definitionId : Uuid) (serverId : Text) (parameterValues : Value)
  | creatingRun (draft : PreviewDraft)
  | preflighting (draft : PreviewDraft) (runId : Uuid)
  | readying (draft : PreviewDraft) (runId : Uuid)
  | awaiting (draft : PreviewDraft) (runId : Uuid)
  | keepingPreview (draft : PreviewDraft) (runId : Uuid)
  | consuming (previewId confirmationToken : Uuid)
  | expiring (previewId : Uuid)
  | checkingEnabled (confirmation : Confirmation)
  | revoking (previewId : Uuid) (error : AppError)
  | readingVersion (confirmation : Confirmation)
  | starting (prepared : PreparedScript)
  | recording (prepared : PreparedScript)
  | failingRun (previewId : Uuid) (error : AppError)
  | activating (prepared : PreparedScript)
  | creatingExecution (prepared : PreparedScript)
  | connecting (prepared : PreparedScript)
  | rendering (prepared : PreparedScript) (capabilities : SystemCapabilities)
  | marking (prepared : PreparedScript) (launcher : Text)
  | submitting (prepared : PreparedScript) (launcher : Text)
  | ending (prepared : PreparedScript)
  | failingBeforeRun (prepared : PreparedScript) (error : AppError)
  | deactivating (prepared : PreparedScript) (result : AppResult ExecutionStatus)
  | closing (prepared : PreparedScript) (result : AppResult ExecutionStatus)
  | removingPreview (runId : Uuid)
  | cancellingRun (runId : Uuid)
  | findingToken (runId : Uuid)
  | cancellingToken (runId : Uuid) (token : Nat)
  | returned (result : AppResult ScriptReply)

/-- What comes from outside with a step. -/
inductive Answer where
  | done
  | storeFailed (error : AppError)
  | created (runId : Uuid)
  | at (now : Int)
  | kept (confirmationToken : Uuid) (now : Int)
  | cancelSeen
  | connected (result : AppResult SystemCapabilities)
  | rendered (candidates : List Uuid)
  | submitted (result : AppResult Unit)
  | executed (result : AppResult ExecutionStatus)

/-- All that the calls share. -/
structure Shared where
  tables : Tables
  runs : Uuid → Option OperationRunRecord
  steps : Uuid → List OperationStepRecord
  previews : Uuid → Option PendingScriptPreview
  active : Uuid → Option Nat
  cancelled : Nat → Bool
  issued : List IssuedPreview
  withdrawn : List Uuid
  cancelledRuns : List Uuid
  executions : List ScriptExecution

structure ScriptState extends Shared where
  call : Nat → Phase

inductive ScriptEvent where
  | start (id : Nat) (request : Request)
  | step (id : Nat) (answer : Answer)
  | edit (call : ScriptRepository.Call)

/-! ## §3. Steps. -/

/-- One transaction over the row of a run. -/
def Shared.updateRun (sh : Shared) (runId : Uuid)
    (update : OperationRunRecord → AppResult OperationRunRecord) :
    Answer → Option (AppResult Shared)
  | .done =>
      match sh.runs runId with
      | none => some (.error (.validation "运维运行不存在".toList))
      | some run =>
          match update run with
          | .error error => some (.error error)
          | .ok run => some (.ok { sh with runs := Function.update sh.runs runId (some run) })
  | .storeFailed error => some (.error error)
  | _ => none

/-- `transition`. -/
def Shared.transition (sh : Shared) (runId : Uuid) (next : OperationStatus) :
    Answer → Option (AppResult Shared) :=
  sh.updateRun runId (OperationRepository.transition next)

/-- A transition whose result nobody looks at. -/
def Shared.tryTransition (sh : Shared) (runId : Uuid) (next : OperationStatus) (answer : Answer) :
    Option Shared :=
  (sh.transition runId next answer).map fun
    | .ok sh' => sh'
    | .error _ => sh

/-- `require_enabled`. -/
def requireEnabled (id : Uuid) (tables : Tables) : AppResult ScriptDetails :=
  match getForEditor id tables with
  | none => .error (.validation "脚本不存在或已删除".toList)
  | some details =>
      if details.definition.isEnabled then .ok details
      else .error (.validation "脚本尚未启用，请检查内容后先启用再运行".toList)

/-- What `preview_run` returns, and keeps to compare with. -/
def PreviewDraft.show (draft : PreviewDraft) (runId confirmationToken : Uuid) (now : Int) :
    ScriptRunPreview :=
  let version := draft.details.activeVersion
  { previewId := runId,
    confirmationToken := confirmationToken,
    expiresAt := expiryOf now,
    serverId := draft.serverId,
    scriptDefinitionId := draft.details.definition.id,
    scriptVersionId := version.id,
    scriptVersionNumber := version.versionNumber,
    title := draft.details.definition.title,
    riskLevel := .dangerous,
    automaticRollbackAvailable := false,
    warning := "不可自动回滚：此脚本造成的修改无法由客户端自动恢复，请确认目标服务器和参数后再运行。".toList,
    lineCount := draft.scan.lineCount,
    characterCount := draft.scan.characterCount,
    bodySha256 := draft.scan.bodySha256,
    parameterNames := draft.parameters.map fun parameter => parameter.name,
    scanWarnings := draft.scan.warnings,
    timeoutSeconds := version.timeoutSeconds,
    shell := version.shell,
    compatibility := version.compatibility }

def PreviewDraft.pending (draft : PreviewDraft) (confirmationToken : Uuid) (now : Int) :
    PendingScriptPreview :=
  { confirmationToken := confirmationToken,
    expiresAt := expiryOf now,
    serverId := draft.serverId,
    definitionId := draft.details.definition.id,
    versionId := draft.details.activeVersion.id,
    versionNumber := draft.details.activeVersion.versionNumber,
    parameterValues := draft.parameterValues }

/-- The run that a preview creates. -/
def PreviewDraft.run (draft : PreviewDraft) : NewOperationRun :=
  { serverId := draft.serverId,
    taskId := "script.personal".toList,
    taskVersion := draft.details.activeVersion.versionNumber,
    riskLevel := .dangerous,
    parametersSummary := operationParameterSummary draft.details.definition.id
      draft.details.activeVersion draft.validated }

/-- The record of the execution of a script. -/
def PreparedScript.execution (prepared : PreparedScript) : NewExecution :=
  { serverId := prepared.pending.serverId,
    taskId := "script.personal".toList,
    taskVersion := prepared.version.versionNumber,
    category := "advanced".toList,
    parameters := executionHistoryParameters prepared.pending.definitionId prepared.version
      prepared.values }

def refuse (error : AppError) (sh : Shared) : Option (Phase × Shared) :=
  some (.returned (.error error), sh)

section Steps

variable [UuidCrate] (crates : Crates)

/-- `parse_parameters`. -/
def parseParameters (version : ScriptVersion) : AppResult (List ScriptParameter) :=
  match crates.parametersOf version.parameters with
  | some parameters => .ok parameters
  | none => .error (.integrity "已保存的脚本参数定义无效".toList)

/-- The part of `preview_run` before the run is created. -/
def draftPreview (definitionId : Uuid) (serverId : Text) (parameterValues : Value)
    (tables : Tables) : AppResult PreviewDraft := do
  let details ← requireEnabled definitionId tables
  let parameters ← parseParameters crates details.activeVersion
  let validated ← validateScriptParameterValues parameters parameterValues
  let scan ← scanScriptBodyFor crates.sha256 details.activeVersion.shell details.activeVersion.body
  if 2147483647 < details.activeVersion.versionNumber then
    .error (.validation "脚本版本超出运行范围".toList)
  else
    .ok { serverId := serverId, parameterValues := parameterValues, details := details,
          parameters := parameters, validated := validated, scan := scan }

/-- The steps of `preview_run`. -/
def advancePreview (phase : Phase) (sh : Shared) (answer : Answer) : Option (Phase × Shared) :=
  match phase, answer with
  | .readingScript definitionId serverId parameterValues, .done =>
      match draftPreview crates definitionId serverId parameterValues sh.tables with
      | .error error => refuse error sh
      | .ok draft => some (.creatingRun draft, sh)
  | .readingScript _ _ _, .storeFailed error => refuse error sh
  | .creatingRun draft, .created runId =>
      match OperationRepository.create draft.run with
      | .error error => refuse error sh
      | .ok run =>
          match sh.runs runId with
          | some _ => refuse (.database "UNIQUE constraint failed".toList) sh
          | none =>
              some (.preflighting draft runId,
                { sh with runs := Function.update sh.runs runId (some run) })
  | .creatingRun _, .storeFailed error => refuse error sh
  | .preflighting draft runId, answer =>
      match sh.transition runId .preflighting answer with
      | none => none
      | some (.error error) => refuse error sh
      | some (.ok sh') => some (.readying draft runId, sh')
  | .readying draft runId, answer =>
      match sh.transition runId .previewReady answer with
      | none => none
      | some (.error error) => refuse error sh
      | some (.ok sh') => some (.awaiting draft runId, sh')
  | .awaiting draft runId, answer =>
      match sh.transition runId .waitingConfirmation answer with
      | none => none
      | some (.error error) => refuse error sh
      | some (.ok sh') => some (.keepingPreview draft runId, sh')
  | .keepingPreview draft runId, .kept confirmationToken now =>
      let preview := draft.show runId confirmationToken now
      some (.returned (.ok (.previewed preview)),
        { sh with
          previews := Function.update sh.previews runId (some (draft.pending confirmationToken now))
          issued := { preview := preview, version := draft.details.activeVersion,
                      values := draft.validated } :: sh.issued })
  | _, _ => none

/-- The part of `confirm_run` between the version that it reads and the run that it starts. -/
def prepareScript (confirmation : Confirmation) (version : ScriptVersion) :
    AppResult PreparedScript := do
  let parameters ← parseParameters crates version
  let validated ← validateScriptParameterValues parameters confirmation.pending.parameterValues
  if 2147483647 < version.versionNumber then
    .error (.validation "脚本版本超出运行范围".toList)
  else .ok { toConfirmation := confirmation, version := version, values := validated }

/-- The steps of `confirm_run` up to the execution. -/
def advanceConfirm (id : Nat) (phase : Phase) (sh : Shared) (answer : Answer) :
    Option (Phase × Shared) :=
  match phase, answer with
  | .consuming previewId confirmationToken, .at now =>
      match sh.previews previewId with
      | none =>
          refuse (.scriptConfirmationRequired "预演不存在、已经使用或应用已重新启动".toList) sh
      | some pending =>
          if pending.confirmationToken ≠ confirmationToken then
            refuse (.scriptConfirmationRequired "确认令牌与本次预演不匹配".toList) sh
          else if pending.expiresAt < now then
            some (.expiring previewId,
              { sh with previews := Function.update sh.previews previewId none })
          else
            some (.checkingEnabled
                { previewId := previewId, confirmationToken := confirmationToken,
                  confirmedAt := now, pending := pending },
              { sh with previews := Function.update sh.previews previewId none })
  | .expiring previewId, answer =>
      match sh.tryTransition previewId .cancelled answer with
      | none => none
      | some sh' => refuse (.scriptPreviewExpired "请重新预演脚本并再次确认".toList) sh'
  | .checkingEnabled confirmation, .done =>
      match requireEnabled confirmation.pending.definitionId sh.tables with
      | .error error => some (.revoking confirmation.previewId error, sh)
      | .ok _ => some (.readingVersion confirmation, sh)
  | .checkingEnabled confirmation, .storeFailed error =>
      some (.revoking confirmation.previewId error, sh)
  | .revoking previewId error, answer =>
      match sh.tryTransition previewId .cancelled answer with
      | none => none
      | some sh' => refuse error sh'
  | .readingVersion confirmation, .done =>
      match getVersion confirmation.pending.definitionId confirmation.pending.versionNumber
          sh.tables with
      | .error error => refuse error sh
      | .ok version =>
          if version.id ≠ confirmation.pending.versionId then
            some (.revoking confirmation.previewId
              (.integrity "预演锁定的脚本版本不一致".toList), sh)
          else
            match prepareScript crates confirmation version with
            | .error error => refuse error sh
            | .ok prepared => some (.starting prepared, sh)
  | .readingVersion _, .storeFailed error => refuse error sh
  | .starting prepared, answer =>
      match sh.updateRun prepared.previewId
          (OperationRepository.startConfirmedUnrecoverablePersonalScript
            (sh.steps prepared.previewId)) answer with
      | none => none
      | some (.error error) => refuse error sh
      | some (.ok sh') => some (.recording prepared, sh')
  | .recording prepared, .done =>
      match recordRun prepared.pending.definitionId prepared.version.id
          ((sh.runs prepared.previewId).map fun run => run.taskId) sh.tables with
      | .error error => some (.failingRun prepared.previewId error, sh)
      | .ok _ => some (.activating prepared, sh)
  | .recording prepared, .storeFailed error => some (.failingRun prepared.previewId error, sh)
  | .failingRun previewId error, answer =>
      match sh.tryTransition previewId .failed answer with
      | none => none
      | some sh' => refuse error sh'
  | .activating prepared, .done =>
      some (.creatingExecution prepared,
        { sh with active := Function.update sh.active prepared.previewId (some id) })
  | .deactivating prepared result, .done =>
      some (.closing prepared result,
        { sh with active := Function.update sh.active prepared.previewId none })
  | .closing prepared (.error error), answer =>
      match sh.tryTransition prepared.previewId .failed answer with
      | none => none
      | some sh' => refuse error sh'
  | .closing prepared (.ok status), answer =>
      match sh.transition prepared.previewId (operationStatus status) answer with
      | none => none
      | some (.error error) => refuse error sh
      | some (.ok sh') =>
          some (.returned (.ok (.ran prepared.previewId prepared.pending.definitionId
            prepared.version.id status)), sh')
  | _, _ => none

/-- The steps of `execute_personal_script_with_cancel`. -/
def advanceExecution (id : Nat) (phase : Phase) (sh : Shared) (answer : Answer) :
    Option (Phase × Shared) :=
  match phase, answer with
  | .creatingExecution prepared, .done =>
      match ExecutionRepository.create prepared.execution with
      | .error error => some (.deactivating prepared (.error error), sh)
      | .ok _ => some (.connecting prepared, sh)
  | .creatingExecution prepared, .storeFailed error =>
      some (.deactivating prepared (.error error), sh)
  | .connecting prepared, .cancelSeen =>
      if sh.cancelled id then some (.failingBeforeRun prepared .cancelled, sh) else none
  | .connecting prepared, .connected (.error error) => some (.failingBeforeRun prepared error, sh)
  | .connecting prepared, .connected (.ok capabilities) =>
      some (.rendering prepared capabilities, sh)
  | .rendering prepared capabilities, .rendered candidates =>
      match (do
          let executable ← prepared.version.shell.executable capabilities
          renderScriptLauncher candidates prepared.version.shell executable prepared.version.body
            prepared.values) with
      | .error error => some (.failingBeforeRun prepared error, sh)
      | .ok launcher => some (.marking prepared launcher, sh)
  | .marking prepared launcher, .done => some (.submitting prepared launcher, sh)
  | .marking prepared _, .storeFailed error => some (.deactivating prepared (.error error), sh)
  | .submitting prepared launcher, .submitted result =>
      match validateCommandRequest launcher prepared.version.timeoutSeconds, result with
      | .error _, _ => some (.ending prepared, sh)
      | .ok _, .error _ => some (.ending prepared, sh)
      | .ok _, .ok _ =>
          -- the script is submitted, whatever its token says by now
          some (.ending prepared,
            { sh with executions := { toPreparedScript := prepared, launcher := launcher,
                                      cancelledBefore := sh.cancelledRuns } :: sh.executions })
  | .ending prepared, .executed result => some (.deactivating prepared result, sh)
  | .failingBeforeRun prepared error, .done =>
      some (.deactivating prepared (.ok (statusOfError error)), sh)
  | .failingBeforeRun prepared _, .storeFailed error =>
      some (.deactivating prepared (.error error), sh)
  | _, _ => none

/-- The steps of `cancel_run`. -/
def advanceCancel (phase : Phase) (sh : Shared) (answer : Answer) : Option (Phase × Shared) :=
  match phase, answer with
  | .removingPreview runId, .done =>
      match sh.previews runId with
      | some _ =>
          some (.cancellingRun runId,
            { sh with previews := Function.update sh.previews runId none
                      withdrawn := runId :: sh.withdrawn })
      | none => some (.findingToken runId, sh)
  | .cancellingRun runId, answer =>
      match sh.transition runId .cancelled answer with
      | none => none
      | some (.error error) => refuse error sh
      | some (.ok sh') =>
          some (.returned (.ok .cancelled), { sh' with cancelledRuns := runId :: sh'.cancelledRuns })
  | .findingToken runId, .done =>
      match sh.active runId with
      | some token => some (.cancellingToken runId token, sh)
      | none => refuse (.validation "脚本运行不存在、已经结束或无法取消".toList) sh
  | .cancellingToken runId token, .done =>
      some (.returned (.ok .cancelled),
        { sh with cancelled := Function.update sh.cancelled token true
                  cancelledRuns := runId :: sh.cancelledRuns })
  | _, _ => none

/-- The next step of a call. -/
def advance (id : Nat) (phase : Phase) (sh : Shared) (answer : Answer) : Option (Phase × Shared) :=
  ((advancePreview crates phase sh answer).or (advanceConfirm crates id phase sh answer)).or
    ((advanceExecution id phase sh answer).or (advanceCancel phase sh answer))

def Request.phase : Request → Phase
  | .preview definitionId serverId parameterValues =>
      .readingScript definitionId serverId parameterValues
  | .confirm previewId confirmationToken => .consuming previewId confirmationToken
  | .cancel runId => .removingPreview runId

def step (event : ScriptEvent) (s : ScriptState) : Option ScriptState :=
  match event with
  | .start id request =>
      match s.call id with
      | .unstarted => some { s with call := Function.update s.call id request.phase }
      | _ => none
  | .step id answer =>
      (advance crates id (s.call id) s.toShared answer).map fun next =>
        { toShared := next.2, call := Function.update s.call id next.1 }
  | .edit call => some { s with tables := ScriptRepository.apply crates call s.tables }

/-- A run of the service. -/
def run : List ScriptEvent → ScriptState → Option ScriptState
  | [], s => some s
  | event :: rest, s => (step crates event s).bind (run rest)

/-- A service that has just started, over tables that are stored already. -/
def started (tables : Tables) (runs : Uuid → Option OperationRunRecord)
    (steps : Uuid → List OperationStepRecord) : ScriptState :=
  { tables := tables,
    runs := runs,
    steps := steps,
    previews := fun _ => none,
    active := fun _ => none,
    cancelled := fun _ => false,
    issued := [],
    withdrawn := [],
    cancelledRuns := [],
    executions := [],
    call := fun _ => .unstarted }

/-! ## §4. Runs. -/

variable {crates}

theorem step_start {id : Nat} {request : Request} {s s' : ScriptState}
    (h : step crates (.start id request) s = some s') :
    s.call id = .unstarted ∧ s'.toShared = s.toShared
      ∧ s'.call = Function.update s.call id request.phase := by
  dsimp only [step] at h
  split at h
  next hphase =>
    obtain rfl := Option.some.inj h
    exact ⟨hphase, rfl, rfl⟩
  next => cases h

/-- The steps of a call are those of the operation that it is in. -/
theorem advance_cases {id : Nat} {phase phase' : Phase} {sh sh' : Shared} {answer : Answer}
    (h : advance crates id phase sh answer = some (phase', sh')) :
    advancePreview crates phase sh answer = some (phase', sh')
      ∨ advanceConfirm crates id phase sh answer = some (phase', sh')
      ∨ advanceExecution id phase sh answer = some (phase', sh')
      ∨ advanceCancel phase sh answer = some (phase', sh') := by
  unfold advance at h
  simp only [Option.or_eq_some_iff] at h
  tauto

end Steps

end QingzhouSSH.Services.ScriptService
