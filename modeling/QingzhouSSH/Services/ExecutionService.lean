/-
  QingzhouSSH.Services.ExecutionService — running a task directly.

  `executeTask` is the path of the task page and of workflow nodes: it records the
  execution, selects an implementation, renders one command and runs it.  The
  operation engine runs all execution steps of its plan instead.

  Main results:
    * `executeTask_succeeded` — a succeeded record has sent one rendered command;
    * `acceptTask_isOk_iff` — which validated tasks get a record;
    * `execution_submits_plan_iff` — when a success has sent the whole plan.
-/
import QingzhouSSH.Core.Tasks.Planner
import QingzhouSSH.Repositories.ExecutionRepository

namespace QingzhouSSH.Services.ExecutionService

open QingzhouSSH.Lib
open QingzhouSSH.Core.Tasks
open QingzhouSSH.Repositories.ExecutionRepository

/-! ## §1. A host. -/

/-- What a command that ran to its end reports. -/
structure CommandOutcome where
  exitStatus : Int
  stdoutBytes : Nat
  stderrBytes : Nat
  deriving Repr, DecidableEq

/-- One attempt on a host: the connection, the streamed run of a command, and the
registration of its log file. -/
structure Host where
  connect : AppResult SystemCapabilities
  executeStreaming : Text → AppResult CommandOutcome
  recordOutputFile : AppResult Unit

/-- What an execution leaves behind: the commands sent to the host, the stored
record if there is one, and the answer. -/
structure ExecutionRun where
  submitted : List Text
  record : Option ExecutionRecord
  response : AppResult Unit

/-! ## §2. Running one command. -/

/-- The terminal status of an error. -/
def statusOfError : AppError → ExecutionStatus
  | .cancelled => .cancelled
  | .remoteStateUncertain _ => .uncertain
  | _ => .failed

def exitCodeOfError : AppError → Option Int
  | .sshCommand exitStatus _ => some exitStatus
  | _ => none

def finishOfError (error : AppError) : FinishExecution :=
  { status := statusOfError error, exitCode := exitCodeOfError error,
    errorCategory := some error.code, errorMessage := some error.message,
    retryable := error.retryable, outputSummary := none }

def finishOfOutcome (outcome : CommandOutcome) : FinishExecution :=
  { status := .succeeded, exitCode := some 0, errorCategory := none, errorMessage := none,
    retryable := false,
    outputSummary := some ("stdout ".toList ++ showNat outcome.stdoutBytes ++ " 字节，stderr ".toList
      ++ showNat outcome.stderrBytes ++ " 字节".toList) }

/-- An update of the record, after which the execution ends. -/
def endWith (submitted : List Text) (record : ExecutionRecord) (update : FinishExecution) :
    ExecutionRun :=
  match finish update record with
  | .ok record' => { submitted := submitted, record := some record', response := .ok () }
  | .error e => { submitted := submitted, record := some record, response := .error e }

/-- `fail_before_run`. -/
def failBeforeRun (record : ExecutionRecord) (error : AppError) : ExecutionRun :=
  match markRunning record with
  | .ok running => endWith [] running (finishOfError error)
  | .error e => { submitted := [], record := some record, response := .error e }

/-- `run_connected_command`. -/
def runConnectedCommand (host : Host) (command : Text) (record : ExecutionRecord) : ExecutionRun :=
  match markRunning record with
  | .error e => { submitted := [], record := some record, response := .error e }
  | .ok running =>
      match host.executeStreaming command with
      | .error e => endWith [command] running (finishOfError e)
      | .ok outcome =>
          if outcome.exitStatus = 0 then
            match host.recordOutputFile with
            | .error e =>
                { submitted := [command], record := some running, response := .error e }
            | .ok _ => endWith [command] running (finishOfOutcome outcome)
          else
            endWith [command] running
              (finishOfError (.ofSshCommand outcome.exitStatus "远程命令返回非零退出码".toList))

/-! ## §3. Running a task. -/

/-- `history_parameters`. -/
def historyParameters (parameters : ValidatedParameters) : List ExecutionParameter :=
  parameters.entries.map fun e =>
    { name := e.1, displayValue := shown e.2, sensitive := e.2.sensitive }

/-- `reject_legacy_dangerous_task`. -/
def rejectLegacyDangerousTask (definition : TaskDefinition) : AppResult Unit :=
  if definition.riskLevel = .dangerous then
    .error (.security "危险任务必须通过运维中心执行，以启用预演、备份、验证和回滚保护".toList)
  else .ok ()

/-- The draft of a task's record. -/
def taskDraft (serverId : Text) (definition : TaskDefinition)
    (parameters : ValidatedParameters) : NewExecution :=
  { serverId := serverId, taskId := definition.id, taskVersion := definition.version,
    category := definition.category.asStr, parameters := historyParameters parameters }

/-- The checks of `execute_task` that need no host, up to the new record. -/
def acceptTask [UuidCrate] (catalog : List TaskDefinition) (serverId taskId : Text)
    (input : Value) : AppResult (TaskDefinition × ValidatedParameters × ExecutionRecord) :=
  match catalog.find? fun definition => definition.id == taskId with
  | none => .error (.validation "快捷任务不存在".toList)
  | some definition => do
      rejectLegacyDangerousTask definition
      let parameters ← validateParameters definition input
      let record ← create (taskDraft serverId definition parameters)
      .ok (definition, parameters, record)

/-- `obvious_interactive_pattern`. -/
def obviousInteractivePattern (content : Text) : Option Text :=
  let lower := content.map toAsciiLower
  if Text.contains lower "sudo ".toList && !Text.contains lower "sudo -n ".toList then
    some "sudo（缺少 -n）".toList
  else
    ([("read-host".toList, "Read-Host".toList), ("read -p".toList, "read -p".toList),
        ("passwd".toList, "passwd".toList), ("tail -f".toList, "tail -f".toList),
        (" less ".toList, "less".toList), (" vim ".toList, "vim".toList),
        (" nano ".toList, "nano".toList)].find? fun token => Text.contains lower token.1).map
      Prod.snd

structure CustomExecutionRequest where
  mode : Text
  content : Text
  timeoutSeconds : Nat
  dangerousConfirmed : Bool
  shell : Text

/-- `CustomExecutionRequest::validate`. -/
def CustomExecutionRequest.validate (request : CustomExecutionRequest) : AppResult Unit :=
  if !request.dangerousConfirmed then .error (.validation "高级命令或脚本必须二次确认".toList)
  else if isBlankText request.content || request.content.contains '\x00'
      || 1024 * 1024 < String.utf8Len request.content then
    .error (.validation "高级命令或脚本内容无效".toList)
  else if request.timeoutSeconds < 1 || 3600 < request.timeoutSeconds then
    .error (.validation "高级命令超时必须在 1 到 3600 秒之间".toList)
  else
    match obviousInteractivePattern request.content with
    | some pattern =>
        .error (.compatibility ("检测到需要交互输入的模式“".toList ++ pattern
          ++ "”；高级执行不提供 PTY 或持续 stdin".toList))
    | none => .ok ()

/-- The draft of a custom command's record. -/
def customDraft (serverId : Text) (request : CustomExecutionRequest) : NewExecution :=
  { serverId := serverId, taskId := "advanced.".toList ++ request.mode, taskVersion := 1,
    category := "advanced".toList,
    parameters :=
      [{ name := "mode".toList, displayValue := request.mode, sensitive := false },
        { name := "shell".toList, displayValue := request.shell, sensitive := false },
        { name := "content".toList, displayValue := redacted, sensitive := true },
        { name := "timeoutSeconds".toList, displayValue := showNat request.timeoutSeconds,
          sensitive := false }] }

/-- The checks of `execute_custom` that need no host. -/
def acceptCustom (serverId : Text) (request : CustomExecutionRequest) :
    AppResult ExecutionRecord := do
  request.validate
  create (customDraft serverId request)

/-- The draft of a maintenance record. -/
def maintenanceDraft (serverId packageManager : Text) (packages : List Text) : NewExecution :=
  { serverId := serverId, taskId := "maintenance.package_install".toList, taskVersion := 1,
    category := "maintenance".toList,
    parameters :=
      [{ name := "packageManager".toList, displayValue := packageManager, sensitive := false },
        { name := "packages".toList, displayValue := List.intercalate [',', ' '] packages,
          sensitive := false }] }

/-- The checks of `execute_fixed_maintenance` that need no host. -/
def acceptFixedMaintenance (serverId packageManager : Text) (packages : List Text) :
    AppResult ExecutionRecord :=
  create (maintenanceDraft serverId packageManager packages)

/-- `run_task`. -/
def runTask (host : Host) (definition : TaskDefinition) (parameters : ValidatedParameters)
    (record : ExecutionRecord) : ExecutionRun :=
  match host.connect with
  | .error e => failBeforeRun record e
  | .ok capabilities =>
      match selectImplementation definition capabilities with
      | .error e => failBeforeRun record e
      | .ok implementation =>
          match renderCommand implementation parameters with
          | .error e => failBeforeRun record e
          | .ok command => runConnectedCommand host command record

/-- `execute_task`. -/
def executeTask [UuidCrate] (catalog : List TaskDefinition) (serverId taskId : Text)
    (input : Value) (host : Host) : ExecutionRun :=
  match acceptTask catalog serverId taskId input with
  | .error e => { submitted := [], record := none, response := .error e }
  | .ok (definition, parameters, record) => runTask host definition parameters record

/-- The record is stored as succeeded. -/
def ExecutionRun.Succeeded (run : ExecutionRun) : Prop :=
  ∃ record, run.record = some record ∧ record.status = .succeeded

theorem statusOfError_ne_succeeded (e : AppError) : statusOfError e ≠ .succeeded := by
  cases e <;> simp [statusOfError]

/-- An error never ends as a success. -/
theorem not_succeeded_of_error {submitted : List Text} {record : ExecutionRecord} (e : AppError)
    (hrecord : record.status ≠ .succeeded) :
    ¬ (endWith submitted record (finishOfError e)).Succeeded := by
  rintro ⟨stored, hstored, hstatus⟩
  unfold endWith at hstored
  split at hstored
  next record' hfinish =>
    rw [← Option.some.inj hstored] at hstatus
    rw [(finish_ok hfinish).1] at hstatus
    exact statusOfError_ne_succeeded e hstatus
  next =>
    rw [← Option.some.inj hstored] at hstatus
    exact hrecord hstatus

theorem not_succeeded_failBeforeRun {record : ExecutionRecord} (e : AppError)
    (hrecord : record.status ≠ .succeeded) : ¬ (failBeforeRun record e).Succeeded := by
  unfold failBeforeRun
  split
  next running hrun =>
    refine not_succeeded_of_error e ?_
    rw [markRunning_ok hrun]
    simp
  next =>
    rintro ⟨stored, hstored, hstatus⟩
    rw [← Option.some.inj hstored] at hstatus
    exact hrecord hstatus

/-- A command that ends as a success has been sent. -/
theorem runConnectedCommand_succeeded {host : Host} {command : Text} {record : ExecutionRecord}
    (hrecord : record.status ≠ .succeeded)
    (h : (runConnectedCommand host command record).Succeeded) :
    (runConnectedCommand host command record).submitted = [command] := by
  unfold runConnectedCommand at h ⊢
  cases hrun : markRunning record with
  | error e =>
      simp only [hrun] at h
      obtain ⟨stored, hstored, hstatus⟩ := h
      rw [← Option.some.inj hstored] at hstatus
      exact absurd hstatus hrecord
  | ok running =>
      have hsubmitted : ∀ update, (endWith [command] running update).submitted = [command] := by
        intro update
        unfold endWith
        split <;> rfl
      simp only
      split
      next => exact hsubmitted _
      next =>
        split
        next =>
          split
          next => rfl
          next => exact hsubmitted _
        next => exact hsubmitted _

/-- **A task that is recorded as succeeded has sent the command of its first
execution step and nothing else.** -/
theorem executeTask_succeeded [UuidCrate] {catalog : List TaskDefinition}
    {serverId taskId : Text} {input : Value} {host : Host} {capabilities : SystemCapabilities}
    (hconnect : host.connect = .ok capabilities)
    (h : (executeTask catalog serverId taskId input host).Succeeded) :
    ∃ definition parameters implementation command,
      catalog.find? (fun definition => definition.id == taskId) = some definition
        ∧ validateParameters definition input = .ok parameters
        ∧ selectImplementation definition capabilities = .ok implementation
        ∧ renderCommand implementation parameters = .ok command
        ∧ (executeTask catalog serverId taskId input host).submitted = [command] := by
  unfold executeTask at h ⊢
  cases haccept : acceptTask catalog serverId taskId input with
  | error e =>
      simp only [haccept] at h
      obtain ⟨stored, hstored, _⟩ := h
      exact absurd hstored (by simp)
  | ok accepted =>
      obtain ⟨definition, parameters, record⟩ := accepted
      simp only [haccept] at h
      unfold acceptTask at haccept
      split at haccept
      next => exact absurd haccept (by simp)
      next found hfound =>
        obtain ⟨_, _, haccept⟩ := bind_eq_ok.mp haccept
        obtain ⟨validated, hvalid, haccept⟩ := bind_eq_ok.mp haccept
        obtain ⟨created, hcreated, haccept⟩ := bind_eq_ok.mp haccept
        simp only [Except.ok.injEq, Prod.mk.injEq] at haccept
        obtain ⟨rfl, rfl, rfl⟩ := haccept
        have hqueued : created.status ≠ .succeeded := by
          rw [create_ok hcreated]
          simp
        simp only [runTask, hconnect] at h ⊢
        cases hselect : selectImplementation found capabilities with
        | error e =>
            simp only [hselect] at h
            exact absurd h (not_succeeded_failBeforeRun e hqueued)
        | ok implementation =>
            simp only [hselect] at h
            cases hrender : renderCommand implementation validated with
            | error e =>
                simp only [hrender] at h
                exact absurd h (not_succeeded_failBeforeRun e hqueued)
            | ok command =>
                simp only [hrender] at h
                refine ⟨found, validated, implementation, command, hfound, hvalid, hselect,
                  hrender, ?_⟩
                simp only [hrender]
                exact runConnectedCommand_succeeded hqueued h

/-! ## §4. What is accepted without a host. -/

/-- What the execution service asks of a task and its parameters beyond their
validation. -/
structure Recordable (definition : TaskDefinition) (parameters : ValidatedParameters) : Prop where
  notDangerous : definition.riskLevel ≠ .dangerous
  category : definition.category.asStr ∈ categories
  short : ∀ e ∈ parameters.entries, String.utf8Len (shown e.2) ≤ 8 * 1024

theorem nodup_historyParameters (parameters : ValidatedParameters) :
    ((historyParameters parameters).map ExecutionParameter.name).Nodup := by
  have hnames : (historyParameters parameters).map ExecutionParameter.name
      = parameters.entries.map Prod.fst := by
    rw [historyParameters, List.map_map]
    rfl
  rw [hnames, List.nodup_iff_pairwise_ne, List.pairwise_map]
  exact parameters.ascend.imp fun h => ne_of_lt h

theorem mem_historyParameters {parameters : ValidatedParameters} {p : ExecutionParameter} :
    p ∈ historyParameters parameters ↔ ∃ e ∈ parameters.entries,
      p = { name := e.1, displayValue := shown e.2, sensitive := e.2.sensitive } := by
  rw [historyParameters, List.mem_map]
  constructor
  · rintro ⟨e, he, rfl⟩
    exact ⟨e, he, rfl⟩
  · rintro ⟨e, he, rfl⟩
    exact ⟨e, he, rfl⟩

/-- **A task found in the catalogue passes every local check exactly when its
parameters validate and it is recordable.** -/
theorem acceptTask_isOk_iff [UuidCrate] {catalog : List TaskDefinition} {serverId taskId : Text}
    {definition : TaskDefinition} {input : Value} {parameters : ValidatedParameters}
    (hserver : isBlankText serverId = false)
    (hfound : catalog.find? (fun definition => definition.id == taskId) = some definition)
    (hid : isBlankText definition.id = false) (hversion : 0 < definition.version)
    (hnames : ∀ e ∈ parameters.entries, isBlankText e.1 = false ∧ '\x00' ∉ e.1)
    (hvalid : validateParameters definition input = .ok parameters) :
    (∃ accepted, acceptTask catalog serverId taskId input = .ok accepted)
      ↔ Recordable definition parameters := by
  have hcreate := create_isOk_iff (taskDraft serverId definition parameters)
  have hcategory : isBlankText definition.category.asStr = false := by
    cases definition.category <;> decide
  unfold acceptTask rejectLegacyDangerousTask
  rw [hfound]
  simp only [hvalid]
  constructor
  · rintro ⟨accepted, haccepted⟩
    obtain ⟨_, hrisk, haccepted⟩ := bind_eq_ok.mp haccepted
    obtain ⟨_, hsame, haccepted⟩ := bind_eq_ok.mp haccepted
    obtain ⟨record, hrecord, _⟩ := bind_eq_ok.mp haccepted
    rw [← Except.ok.inj hsame] at hrecord
    have hok := hcreate.mp (by rw [hrecord]; rfl)
    refine ⟨?_, hok.2.1, ?_⟩
    · intro hdangerous
      rw [if_pos hdangerous] at hrisk
      exact absurd hrisk (by simp)
    · intro e he
      exact (hok.2.2.1 _ (mem_historyParameters.mpr ⟨e, he, rfl⟩)).2.2
  · intro h
    have hok : (create (taskDraft serverId definition parameters)).isOk = true := by
      refine hcreate.mpr ⟨⟨hserver, hid, hcategory, hversion⟩, h.category, ?_,
        nodup_historyParameters parameters⟩
      intro p hp
      obtain ⟨e, he, rfl⟩ := mem_historyParameters.mp hp
      exact ⟨(hnames e he).1, (hnames e he).2, h.short e he⟩
    obtain ⟨record, hrecord⟩ := exists_ok_of_toBool hok
    refine ⟨(definition, parameters, record), ?_⟩
    rw [if_neg h.notDangerous]
    exact bind_eq_ok.mpr ⟨(), rfl, bind_eq_ok.mpr ⟨parameters, rfl,
      bind_eq_ok.mpr ⟨record, hrecord, rfl⟩⟩⟩

/-- No record has the category of a maintenance. -/
theorem acceptFixedMaintenance_error (serverId packageManager : Text) (packages : List Text) :
    ¬ ∃ record, acceptFixedMaintenance serverId packageManager packages = .ok record := by
  rintro ⟨record, hrecord⟩
  have hok := (create_isOk_iff _).mp (show (create
    (maintenanceDraft serverId packageManager packages)).isOk = true by
      rw [show create (maintenanceDraft serverId packageManager packages) = .ok record from hrecord]
      rfl)
  have hmem : "maintenance".toList ∈ categories := hok.2.1
  exact absurd hmem (by decide)

/-! ## §5. The direct path and the operation engine. -/

/-- The commands of a plan, in order. -/
def plannedCommands (plan : PlannedTask) : List Text :=
  plan.executionSteps.map RenderedTaskStep.command

/-- **A task recorded as succeeded has sent the commands of its plan exactly when
the selected implementation has a single execution step.** -/
theorem execution_submits_plan_iff [UuidCrate] (catalog : List TaskDefinition)
    (serverId taskId : Text) (input : Value) (host : Host) (definition : TaskDefinition)
    (capabilities : SystemCapabilities) (implementation : TaskImplementation)
    (plan : PlannedTask)
    (hfound : catalog.find? (fun definition => definition.id == taskId) = some definition)
    (hconnect : host.connect = .ok capabilities)
    (hselected : selectImplementation definition capabilities = .ok implementation)
    (hplan : planTask definition capabilities input = .ok plan)
    (hdone : (executeTask catalog serverId taskId input host).Succeeded) :
    (executeTask catalog serverId taskId input host).submitted = plannedCommands plan
      ↔ implementation.executionSteps.length = 1 := by
  obtain ⟨found, parameters, selected, command, hfound', hvalid, hselect, hrender, hsubmitted⟩ :=
    executeTask_succeeded hconnect hdone
  obtain ⟨chosen, hplanned⟩ := planTask_ok hplan
  -- both paths find the same definition, parameters and implementation
  rw [hfound, Option.some.injEq] at hfound'
  subst hfound'
  have hchosen := hplanned.selected
  rw [hselected, Except.ok.injEq] at hselect hchosen
  subst hselect hchosen
  have hparameters := hplanned.accepted
  rw [hvalid, Except.ok.injEq] at hparameters
  have hsteps := renderSteps_ok hplanned.executionSteps
  rw [hsubmitted]
  unfold renderCommand at hrender
  cases himpl : implementation.executionSteps with
  | nil =>
      rw [himpl] at hrender
      exact absurd hrender (by simp)
  | cons step rest =>
      have hrender : renderTaskStepCommand step implementation.id parameters = .ok command := by
        rw [himpl] at hrender
        exact hrender
      rw [himpl] at hsteps
      cases hout : plan.executionSteps with
      | nil => exact absurd hout hplanned.nonempty
      | cons out outs =>
          rw [hout] at hsteps
          obtain ⟨⟨hfirst, _⟩, htail⟩ := List.forall₂_cons.mp hsteps
          rw [← hparameters, hrender, Except.ok.injEq] at hfirst
          rw [plannedCommands, hout, List.map_cons, hfirst, List.cons.injEq,
            List.length_cons]
          have hlen := htail.length_eq
          constructor
          · rintro ⟨_, hnil⟩
            rw [eq_comm, List.map_eq_nil_iff] at hnil
            rw [hnil, List.length_nil] at hlen
            omega
          · intro hone
            have hrest : outs = [] := List.length_eq_zero_iff.mp (by omega)
            exact ⟨rfl, by rw [hrest]; rfl⟩

/-- What a probe finds on a Linux host with these commands. -/
def linuxWith (commands : List Text) : SystemCapabilities :=
  { platformFamily := .linux, osId := "ubuntu".toList, osFamily := "debian".toList,
    packageManager := some "apt".toList, serviceManager := "systemd".toList,
    commands := commands, services := [], containers := [], interfaces := [] }

/-- The commands that a health check needs. -/
def baselineCommands : List Text :=
  ["uname".toList, "uptime".toList, "df".toList, "ps".toList, "head".toList]

/-- A Linux host on which every command ends with status zero. -/
def quietHost (commands : List Text) : Host :=
  { connect := .ok (linuxWith commands),
    executeStreaming := fun _ => .ok { exitStatus := 0, stdoutBytes := 0, stderrBytes := 0 },
    recordOutputFile := .ok () }

theorem succeeded_of_status {run : ExecutionRun}
    (h : run.record.map ExecutionRecord.status = some .succeeded) : run.Succeeded := by
  obtain ⟨record, hrecord, hstatus⟩ := Option.map_eq_some_iff.mp h
  exact ⟨record, hrecord, hstatus⟩

/-- A search has one step, so the direct path runs all of its plan. -/
theorem execution_submits_plan_search :
    ∃ plan, @planTask hyphenatedUuid Catalog.logsSearch (linuxWith ["grep".toList])
        (searchInput "error".toList "/var/log/app.log".toList) = .ok plan
      ∧ (@executeTask hyphenatedUuid [Catalog.logsSearch] "web-1".toList "logs.search".toList
          (searchInput "error".toList "/var/log/app.log".toList)
          (quietHost ["grep".toList])).submitted = plannedCommands plan := by
  let _ : UuidCrate := hyphenatedUuid
  let input : Value := searchInput "error".toList "/var/log/app.log".toList
  obtain ⟨plan, hplan⟩ := exists_ok_of_toBool
    (show (planTask Catalog.logsSearch (linuxWith ["grep".toList]) input).toBool = true by
      decide)
  obtain ⟨implementation, hselected⟩ := exists_ok_of_toBool
    (show (selectImplementation Catalog.logsSearch (linuxWith ["grep".toList])).toBool = true by
      decide)
  refine ⟨plan, hplan, ?_⟩
  refine (execution_submits_plan_iff [Catalog.logsSearch] "web-1".toList "logs.search".toList
    input (quietHost ["grep".toList]) Catalog.logsSearch (linuxWith ["grep".toList])
    implementation plan (by rfl) rfl hselected hplan
    (succeeded_of_status (by decide))).mpr ?_
  have hlength : (selectImplementation Catalog.logsSearch (linuxWith ["grep".toList])).map
      (fun i => i.executionSteps.length) = .ok 1 := by decide
  rw [hselected] at hlength
  exact Except.ok.inj hlength

/-- The health check is recorded as succeeded after the first of its five steps. -/
theorem execution_submits_first_step :
    ∃ plan, @planTask hyphenatedUuid Catalog.healthBaseline (linuxWith baselineCommands)
        (.object []) = .ok plan
      ∧ (@executeTask hyphenatedUuid [Catalog.healthBaseline] "web-1".toList
          "runbook.health.baseline".toList (.object []) (quietHost baselineCommands)).Succeeded
      ∧ (@executeTask hyphenatedUuid [Catalog.healthBaseline] "web-1".toList
          "runbook.health.baseline".toList (.object [])
          (quietHost baselineCommands)).submitted ≠ plannedCommands plan := by
  let _ : UuidCrate := hyphenatedUuid
  obtain ⟨plan, hplan⟩ := exists_ok_of_toBool
    (show (planTask Catalog.healthBaseline (linuxWith baselineCommands)
      (.object [])).toBool = true by decide +kernel)
  refine ⟨plan, hplan, succeeded_of_status (by decide +kernel), ?_⟩
  have hplanned : (planTask Catalog.healthBaseline (linuxWith baselineCommands)
      (.object [])).map (fun plan => (plannedCommands plan).length) = .ok 5 := by decide +kernel
  have hsubmitted : (executeTask [Catalog.healthBaseline] "web-1".toList
      "runbook.health.baseline".toList (.object [])
      (quietHost baselineCommands)).submitted.length = 1 := by decide +kernel
  rw [hplan] at hplanned
  have hfive : (plannedCommands plan).length = 5 := Except.ok.inj hplanned
  intro heq
  rw [heq, hfive] at hsubmitted
  exact absurd hsubmitted (by decide)

end QingzhouSSH.Services.ExecutionService
