/-
  QingzhouSSH.Repositories.OperationRepository — the rows of one operation run.

  Every function is one transaction of `OperationRepository`: it returns the new
  rows, or an error and nothing has changed.  Columns that the table checks are
  checked here as well, with the database's error.

  Main results:
    * `transition_ok`, `setResult_ok`, `transitionStep_ok` — what an accepted update does;
    * `RunUpdated.keeps` — updates keep what a run was created with.
-/
import QingzhouSSH.Domain.Operation

namespace QingzhouSSH.Repositories.OperationRepository

open QingzhouSSH.Core.Tasks (RiskLevel)
open QingzhouSSH.Domain
open String (utf8Len)

/-! ## §1. Creating rows. -/

/-- `validate_run`. -/
def validateRun (draft : NewOperationRun) : AppResult Unit :=
  if isBlankText draft.serverId || isBlankText draft.taskId || draft.taskVersion ≤ 0
      || draft.serverId.contains '\x00' || draft.taskId.contains '\x00' then
    .error (.validation "运维运行定义不完整".toList)
  else if draft.parametersSummary.any fun s => 8 * 1024 < utf8Len s || s.contains '\x00' then
    .error (.validation "运维参数摘要无效".toList)
  else .ok ()

/-- `create`: a new run is validating. -/
def create (draft : NewOperationRun) : AppResult OperationRunRecord := do
  validateRun draft
  .ok { serverId := draft.serverId, taskId := draft.taskId, taskVersion := draft.taskVersion,
        riskLevel := draft.riskLevel, status := .validating,
        parametersSummary := draft.parametersSummary, result := none, errorCategory := none,
        errorMessage := none }

/-- `validate_step`. -/
def validateStep (draft : NewOperationStep) : AppResult Unit :=
  if isBlankText draft.stepId || isBlankText draft.title || draft.stepId.contains '\x00'
      || draft.title.contains '\x00' || 200 < utf8Len draft.stepId
      || 500 < utf8Len draft.title then
    .error (.validation "运维步骤定义无效".toList)
  else if 2 ^ 63 ≤ draft.stepIndex then .error (.validation "运维步骤序号超出范围".toList)
  else .ok ()

/-- The primary key of a step inside its run. -/
def isStep (phase : OperationPhase) (index : Nat) (step : OperationStepRecord) : Bool :=
  step.phase == phase && step.stepIndex == index

/-- `create_step`. -/
def createStep (draft : NewOperationStep) (steps : List OperationStepRecord) :
    AppResult (List OperationStepRecord) := do
  validateStep draft
  if steps.any (isStep draft.phase draft.stepIndex) then
    .error (.database "UNIQUE constraint failed".toList)
  else
    .ok (steps ++ [{ phase := draft.phase, stepIndex := draft.stepIndex, stepId := draft.stepId,
                     title := draft.title, status := .pending, outputSummary := none,
                     errorMessage := none }])

/-! ## §2. Updates of the run. -/

/-- `transition`. -/
def transition (next : OperationStatus) (run : OperationRunRecord) :
    AppResult OperationRunRecord :=
  if run.status.canTransitionTo next then .ok { run with status := next }
  else
    .error (.validation
      ("运维状态不能从 ".toList ++ run.status.asStr ++ " 变为 ".toList ++ next.asStr))

/-- `start_confirmed_unrecoverable_personal_script`: the one kind of run that is not backed up
before it starts. -/
def startConfirmedUnrecoverablePersonalScript (steps : List OperationStepRecord)
    (run : OperationRunRecord) : AppResult OperationRunRecord :=
  if run.status ≠ .waitingConfirmation ∨ run.taskId ≠ "script.personal".toList
      ∨ run.riskLevel ≠ .dangerous ∨ !steps.isEmpty then
    .error (.validation "只有已确认且无恢复步骤的个人脚本可以直接开始运行".toList)
  else .ok { run with status := .running }

/-- `set_result`, for a result that is encoded already: the function allows more
than the column does. -/
def setResult (encoded : Text) (run : OperationRunRecord) : AppResult OperationRunRecord :=
  if 256 * 1024 < utf8Len encoded then
    .error (.validation "运维结构化结果超过大小上限".toList)
  else if run.status = .running ∨ run.status = .verifying then
    if 65536 < utf8Len encoded then .error (.database "CHECK constraint failed".toList)
    else .ok { run with result := some encoded }
  else .error (.validation "只能为执行中的运维任务保存结果".toList)

/-- The statuses in which the application may have been interrupted. -/
def isInterrupted : OperationStatus → Bool
  | .preflighting | .backingUp | .running | .verifying | .rollingBack => true
  | _ => false

/-! ## §3. Updates of the steps. -/

/-- `transition_step`. -/
def transitionStep (phase : OperationPhase) (index : Nat) (next : OperationStepStatus)
    (outputSummary errorMessage : Option Text) (steps : List OperationStepRecord) :
    AppResult (List OperationStepRecord) :=
  match steps.find? (isStep phase index) with
  | none => .error (.validation "运维步骤不存在".toList)
  | some step =>
      if step.status.canTransitionTo next then
        .ok (steps.map fun s =>
          if isStep phase index s then
            { s with status := next, outputSummary := outputSummary.or s.outputSummary,
                     errorMessage := errorMessage.or s.errorMessage }
          else s)
      else
        .error (.validation
          ("运维步骤不能从 ".toList ++ step.status.asStr ++ " 变为 ".toList ++ next.asStr))

/-- `mark_step_running`. -/
def markStepRunning (phase : OperationPhase) (index : Nat) (steps : List OperationStepRecord) :
    AppResult (List OperationStepRecord) :=
  transitionStep phase index .running none none steps

/-- `finish_step`. -/
def finishStep (finish : FinishOperationStep) (steps : List OperationStepRecord) :
    AppResult (List OperationStepRecord) :=
  if finish.status.isTerminal then
    transitionStep finish.phase finish.stepIndex finish.status
      (capUtf8 finish.outputSummary (8 * 1024)) (capUtf8 finish.errorMessage (8 * 1024)) steps
  else .error (.validation "运维步骤终态无效".toList)

/-- `skip_pending_steps`. -/
def skipPendingSteps (phase : OperationPhase) (fromIndex : Nat)
    (steps : List OperationStepRecord) : List OperationStepRecord :=
  steps.map fun s =>
    if s.phase = phase ∧ fromIndex ≤ s.stepIndex ∧ s.status = .pending then
      { s with status := .skipped }
    else s

/-- `recover_interrupted`, for one run: a single transaction over both tables. -/
def recoverInterrupted (run : OperationRunRecord) (steps : List OperationStepRecord) :
    OperationRunRecord × List OperationStepRecord :=
  if isInterrupted run.status then
    ({ run with status := .uncertain, errorCategory := some "interrupted".toList,
                errorMessage := some "应用退出时远程状态未确认".toList },
      steps.map fun s =>
        if s.status = .running then
          { s with status := .uncertain,
                   errorMessage := some "应用退出时步骤状态未确认".toList }
        else s)
  else (run, steps)

/-! ## §4. What an accepted update does. -/

theorem create_ok {draft : NewOperationRun} {run : OperationRunRecord}
    (h : create draft = .ok run) :
    run.serverId = draft.serverId ∧ run.taskId = draft.taskId
      ∧ run.taskVersion = draft.taskVersion
      ∧ run.parametersSummary = draft.parametersSummary := by
  cases hv : validateRun draft with
  | error e =>
      simp only [create, hv, bind, Except.bind] at h
      exact absurd h (by simp)
  | ok _ =>
      simp only [create, hv, bind, Except.bind, Except.ok.injEq] at h
      subst h
      exact ⟨rfl, rfl, rfl, rfl⟩

theorem transition_ok {next : OperationStatus} {run run' : OperationRunRecord}
    (h : transition next run = .ok run') :
    run.status.canTransitionTo next = true ∧ run' = { run with status := next } := by
  unfold transition at h
  split at h
  next hc => exact ⟨hc, (Except.ok.inj h).symm⟩
  next => exact absurd h (by simp)

theorem setResult_ok {encoded : Text} {run run' : OperationRunRecord}
    (h : setResult encoded run = .ok run') :
    (run.status = .running ∨ run.status = .verifying) ∧ utf8Len encoded ≤ 65536
      ∧ run' = { run with result := some encoded } := by
  unfold setResult at h
  split at h
  next => exact absurd h (by simp)
  next =>
    split at h
    next hs =>
      split at h
      next => exact absurd h (by simp)
      next hl => exact ⟨hs, Nat.le_of_not_lt hl, (Except.ok.inj h).symm⟩
    next => exact absurd h (by simp)

/-- A step that is marked as running can be finished. -/
theorem finishStep_of_running {phase : OperationPhase} {index : Nat}
    {steps running : List OperationStepRecord} (h : markStepRunning phase index steps = .ok running)
    {finish : FinishOperationStep} (hphase : finish.phase = phase) (hindex : finish.stepIndex = index)
    (hterminal : finish.status.isTerminal = true)
    (hfrom : OperationStepStatus.running.canTransitionTo finish.status = true) :
    ∃ finished, finishStep finish running = .ok finished := by
  unfold markStepRunning transitionStep at h
  cases hfind : steps.find? (isStep phase index) with
  | none =>
      rw [hfind] at h
      cases h
  | some step =>
      rw [hfind] at h
      dsimp only at h
      split at h
      next =>
        have hstep : isStep phase index step = true := List.find?_some hfind
        have hrunning : running.find? (isStep phase index) = some { step with
            status := .running, outputSummary := none.or step.outputSummary
            errorMessage := none.or step.errorMessage } := by
          rw [← Except.ok.inj h, List.find?_map]
          have hsame : (isStep phase index ∘ fun s : OperationStepRecord =>
              if isStep phase index s then
                { s with status := .running, outputSummary := none.or s.outputSummary
                         errorMessage := none.or s.errorMessage }
              else s) = isStep phase index := by
            funext s
            dsimp only [Function.comp]
            split <;> rfl
          rw [hsame, hfind, Option.map_some, if_pos hstep]
        unfold finishStep transitionStep
        rw [if_pos hterminal, hphase, hindex, hrunning]
        exact ⟨_, if_pos hfrom⟩
      next => cases h

/-- Any number of updates of a run. -/
inductive RunUpdated : OperationRunRecord → OperationRunRecord → Prop where
  | refl (run : OperationRunRecord) : RunUpdated run run
  | transition {run mid run' : OperationRunRecord} (next : OperationStatus) :
      RunUpdated run mid → transition next mid = .ok run' → RunUpdated run run'
  | setResult {run mid run' : OperationRunRecord} (encoded : Text) :
      RunUpdated run mid → setResult encoded mid = .ok run' → RunUpdated run run'
  | recover {run mid : OperationRunRecord} (steps : List OperationStepRecord) :
      RunUpdated run mid → RunUpdated run (recoverInterrupted mid steps).1

/-- **No update changes the server, the task or the parameter summary of a run.** -/
theorem RunUpdated.keeps {run run' : OperationRunRecord} (h : RunUpdated run run') :
    run'.serverId = run.serverId ∧ run'.taskId = run.taskId
      ∧ run'.taskVersion = run.taskVersion
      ∧ run'.parametersSummary = run.parametersSummary := by
  induction h with
  | refl => exact ⟨rfl, rfl, rfl, rfl⟩
  | transition next _ hstep ih =>
      obtain ⟨_, rfl⟩ := transition_ok hstep
      exact ih
  | setResult encoded _ hstep ih =>
      obtain ⟨_, _, rfl⟩ := setResult_ok hstep
      exact ih
  | recover steps _ ih =>
      unfold recoverInterrupted
      split
      next => exact ih
      next => exact ih

end QingzhouSSH.Repositories.OperationRepository
