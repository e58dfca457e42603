/-
  QingzhouSSH.Services.OperationRollbacks — the two ways to roll an operation back.

  An operation that fails is rolled back by itself, and a restore point can be rolled
  back by hand.  Both procedures run over the rows of the operation and the restore
  tables, and both read the status of the run off what `rollback` returns.

  Main results:
    * `runOn_rolledBack` — what a rollback does to the run, for any such reading;
    * `rollbacks_agree` — when the two leave the run in one status.
-/
import QingzhouSSH.Repositories.OperationRepository
import QingzhouSSH.Services.RestoreAttempts

namespace QingzhouSSH.Services.OperationService

open QingzhouSSH.Lib
open QingzhouSSH.Domain
open QingzhouSSH.Core.Tasks (PrivilegeMode)
open QingzhouSSH.Repositories.OperationRestoreRepository
open QingzhouSSH.Services.OperationRestoreService
open Process (runOn runOn_then runOn_error runOn_update)

variable {ι : Type}

/-! ## §1. The procedures. -/

/-- `OperationDetails`. -/
structure OperationDetails where
  run : OperationRunRecord
  steps : List OperationStepRecord
  deriving Repr, DecidableEq

/-- The rows of the run of a restore point, and the calls on the restore tables. -/
structure RecoveryState (ι : Type) extends OperationDetails where
  calls : List (Call ι)

def RecoveryState.setCalls (calls : List (Call ι)) (s : RecoveryState ι) : RecoveryState ι :=
  { s with calls := calls }

variable (ι) in
/-- Procedures over these rows, which ask what `rollback` asks. -/
abbrev RecoveryProcess (α : Type) :=
  ExceptT AppError (Process (RecoveryState ι) (@RollbackAnswer ι)) α

/-- `transition`. -/
def transition (next : OperationStatus) : RecoveryProcess ι Unit :=
  Process.update fun s =>
    (Repositories.OperationRepository.transition next s.run).map fun run => { s with run := run }

/-- `mark_step_running`. -/
def markStepRunning (phase : OperationPhase) (index : Nat) : RecoveryProcess ι Unit :=
  Process.update fun s =>
    (Repositories.OperationRepository.markStepRunning phase index s.steps).map fun steps => { s with steps := steps }

/-- `finish_step`. -/
def finishStep (finish : FinishOperationStep) : RecoveryProcess ι Unit :=
  Process.update fun s =>
    (Repositories.OperationRepository.finishStep finish s.steps).map fun steps => { s with steps := steps }

/-- `require_details`, of the run that the state is about. -/
def requireDetails : RecoveryProcess ι OperationDetails :=
  Process.read fun s => .ok s.toOperationDetails

/-- `operation_status_for_error`. -/
def operationStatusForError : AppError → OperationStatus
  | .cancelled => .cancelled
  | .remoteStateUncertain _ | .ssh _ | .io _ | .transfer _ => .uncertain
  | _ => .failed

/-- `cap_text`. -/
def capText (value : Text) (limit : Nat) : Text := takeUtf8 limit value

/-- What the automatic rollback records: of the step, of the run, and the message. -/
def automaticOutcome : AppResult (OperationRestoreDetails ι) →
    OperationStepStatus × OperationStatus × Option Text
  | .ok details =>
      match details.point.status with
      | .rolledBack => (.succeeded, .rolledBack, none)
      | .partially =>
          (.failed, .rollbackPartial, some "只恢复了部分项目，请查看恢复点详情".toList)
      | _ => (.failed, .rollbackFailed, some "自动回滚失败，恢复点仍保留".toList)
  | .error e =>
      if operationStatusForError e = .uncertain then (.uncertain, .uncertain, some e.message)
      else (.failed, .rollbackFailed, some e.message)

/-- What the rollback by hand records and reports. -/
structure ManualOutcome where
  stepStatus : OperationStepStatus
  runStatus : OperationStatus
  whatHappened : Text
  nextStep : Text
  technicalDetails : Option Text

def manualOutcome : AppResult (OperationRestoreDetails ι) → ManualOutcome
  | .ok details =>
      if details.point.status = .rolledBack then
        { stepStatus := .succeeded
          runStatus := .rolledBack
          whatHappened := "已按恢复点还原修改前状态".toList
          nextStep := "请重新检查对应服务或配置是否恢复正常".toList
          technicalDetails := none }
      else
        { stepStatus := .failed
          runStatus := .rollbackPartial
          whatHappened := "只完成了部分恢复，服务器可能仍有变化".toList
          nextStep := "请停止继续修改，并查看恢复点明细后人工处理".toList
          technicalDetails := some ("restoreStatus=".toList ++ details.point.status.asStr) }
  | .error e =>
      let uncertain := operationStatusForError e == .uncertain
      { stepStatus := if uncertain then .uncertain else .failed
        runStatus := if uncertain then .uncertain else .rollbackFailed
        whatHappened :=
          if uncertain then "回滚期间连接中断，无法确认服务器最终状态".toList
          else "恢复点回滚失败，服务器可能仍有变化".toList
        nextStep := "不要重复执行修改；请先重新连接并检查服务器状态".toList
        technicalDetails := some (capText e.message (8 * 1024)) }

/-- `OperationRecoveryResult`. -/
structure OperationRecoveryResult (ι : Type) where
  operation : OperationDetails
  whatHappened : Text
  serverMayHaveChanged : Bool
  stateConfirmed : Bool
  nextStep : Text
  restorePoint : Option (OperationRestorePoint ι)
  technicalDetails : Option Text

variable [DecidableEq ι]

/-- The restore point, with `OperationRestoreService::get`. -/
def restoreDetails (id : ι) : RecoveryProcess ι (Option (OperationRestoreDetails ι)) :=
  Process.read fun s => .ok (get id (tableAfter s.calls))

/-- `OperationRestoreService::rollback`; a failure is an answer here. -/
def rollbackPoint (id : ι) : RecoveryProcess ι (AppResult (OperationRestoreDetails ι)) :=
  ExceptT.lift ((rollback id).run.within RecoveryState.calls RecoveryState.setCalls)

/-- `finish_dangerous_failure`. -/
def finishDangerousFailure (restorePointId : ι) (failureStatus : OperationStatus) :
    RecoveryProcess ι OperationDetails := do
  if failureStatus = .uncertain then do
    transition .uncertain
    requireDetails
  else do
    transition .rollbackAvailable
    transition .rollingBack
    markStepRunning .rollback 0
    let rollback ← rollbackPoint restorePointId
    let (stepStatus, runStatus, message) := automaticOutcome rollback
    finishStep
      { phase := .rollback, stepIndex := 0, status := stepStatus
        outputSummary := if stepStatus = .succeeded then some "已核验恢复到修改前状态".toList else none
        errorMessage := message }
    transition runStatus
    requireDetails

/-- The run gets ready for a rollback by hand. -/
def makeAvailable (status : OperationStatus) : RecoveryProcess ι Unit :=
  match status with
  | .succeeded | .failed | .uncertain | .rollbackPartial | .rollbackFailed =>
      transition .rollbackAvailable
  | .rollbackAvailable => pure ()
  | _ => throw (.validation "当前运维状态不允许手动回滚".toList)

/-- `rollback_operation`. -/
def rollbackOperation (restorePointId : ι) : RecoveryProcess ι (OperationRecoveryResult ι) := do
  match ← restoreDetails restorePointId with
  | none => throw (.validation "恢复点不存在".toList)
  | some restore => do
      if restore.point.status ∉ [.available, .partially, .failed] then
        throw .restorePointAlreadyConsumed
      else do
        let operation ← requireDetails
        makeAvailable operation.run.status
        transition .rollingBack
        markStepRunning .rollback 0
        let rollback ← rollbackPoint restorePointId
        let outcome := manualOutcome rollback
        finishStep
          { phase := .rollback, stepIndex := 0, status := outcome.stepStatus
            outputSummary :=
              if outcome.stepStatus = .succeeded then some "恢复点已经应用并核验".toList else none
            errorMessage := outcome.technicalDetails }
        transition outcome.runStatus
        let operation ← requireDetails
        let restorePoint ← restoreDetails restorePointId
        pure { operation := operation
               whatHappened := outcome.whatHappened
               serverMayHaveChanged := outcome.runStatus != .rolledBack
               stateConfirmed := outcome.runStatus == .rolledBack
               nextStep := outcome.nextStep
               restorePoint := restorePoint.map fun details => details.point
               technicalDetails := outcome.technicalDetails }

/-! ## §2. What a rollback does to the run. -/

section

variable {answer : Nat → (question : RollbackQuestion ι) → RollbackAnswer question} {n : Nat}
  {s s' : RecoveryState ι} {α : Type}

omit [DecidableEq ι] in
theorem runOn_transition {next : OperationStatus} (h : s.run.status.canTransitionTo next = true) :
    runOn answer n (transition next).run s
      = (n, .ok (), { s with run := { s.run with status := next } }) := by
  refine runOn_update ?_
  unfold Repositories.OperationRepository.transition
  rw [if_pos h]
  rfl

/-- What `rollback` returns. -/
def restored (answer : Nat → (question : RollbackQuestion ι) → RollbackAnswer question) (id : ι)
    (calls : List (Call ι)) : AppResult (OperationRestoreDetails ι) :=
  (Process.run answer 0 (rollback id).run calls).1

theorem runOn_rollbackPoint (id : ι) :
    ∃ n' calls', runOn answer 0 (rollbackPoint id).run s
      = (n', .ok (restored answer id s.calls), s.setCalls calls') := by
  refine ⟨(runOn answer 0 (rollback id).run s.calls).1, (runOn answer 0 (rollback id).run s.calls).2.2, ?_⟩
  have hbind : (rollbackPoint id : RecoveryProcess ι _).run
      = ((rollback id).run.within RecoveryState.calls RecoveryState.setCalls).bind
        fun r => Process.done (Except.ok r) := rfl
  have hget : ∀ calls (s : RecoveryState ι), (RecoveryState.setCalls calls s).calls = calls :=
    fun _ _ => rfl
  have hset : ∀ calls calls' (s : RecoveryState ι),
      RecoveryState.setCalls calls (RecoveryState.setCalls calls' s) = RecoveryState.setCalls calls s :=
    fun _ _ _ => rfl
  rw [hbind, Process.runOn_bind, Process.runOn_within hget hset fun _ => rfl]
  unfold restored
  rw [Process.run_eq_runOn]
  rfl

/-- **With the run being rolled back, its status is read off what `rollback` returns.** -/
theorem runOn_rolledBack (id : ι) (hrolling : s.run.status = .rollingBack)
    {steps : List OperationStepRecord}
    (hstep : Repositories.OperationRepository.markStepRunning .rollback 0 s.steps = .ok steps)
    (finish : AppResult (OperationRestoreDetails ι) → FinishOperationStep)
    (hplace : ∀ r, (finish r).phase = .rollback ∧ (finish r).stepIndex = 0)
    (hfinish : ∀ r, (finish r).status ∈ [.succeeded, .failed, .uncertain])
    (next : AppResult (OperationRestoreDetails ι) → OperationStatus)
    (hnext : ∀ r, OperationStatus.rollingBack.canTransitionTo (next r) = true)
    (k : AppResult (OperationRestoreDetails ι) → RecoveryProcess ι α) :
    ∃ n' s', s'.run.status = next (restored answer id s.calls)
      ∧ runOn answer 0 (do
          markStepRunning .rollback 0
          let r ← rollbackPoint id
          finishStep (finish r)
          transition (next r)
          k r).run s
        = runOn answer n' (k (restored answer id s.calls)).run s' := by
  generalize hr : restored answer id s.calls = r
  have hmarked : runOn answer 0 (markStepRunning .rollback 0).run s
      = (0, .ok (), { s with steps := steps }) := by
    refine runOn_update ?_
    rw [hstep]
    rfl
  obtain ⟨n', calls', hrestored⟩ :=
    @runOn_rollbackPoint ι _ answer { s with steps := steps } id
  rw [hr] at hrestored
  obtain ⟨finished, hfinished⟩ := Repositories.OperationRepository.finishStep_of_running hstep
    (hplace r).1 (hplace r).2
    (by
      have hmem := hfinish r
      simp only [List.mem_cons, List.not_mem_nil, or_false] at hmem
      rcases hmem with h | h | h <;> rw [h] <;> rfl)
    (by
      have hmem := hfinish r
      simp only [List.mem_cons, List.not_mem_nil, or_false] at hmem
      rcases hmem with h | h | h <;> rw [h] <;> rfl)
  have hstepFinished : runOn answer n' (finishStep (finish r)).run
        (RecoveryState.setCalls calls' { s with steps := steps })
      = (n', .ok (), RecoveryState.setCalls calls' { s with steps := finished }) := by
    refine runOn_update ?_
    show (Repositories.OperationRepository.finishStep (finish r) steps).map _ = _
    rw [hfinished]
    rfl
  refine ⟨n', { RecoveryState.setCalls calls' { s with steps := finished } with
    run := { s.run with status := next r } }, rfl, ?_⟩
  refine (runOn_then hmarked).trans ?_
  refine (runOn_then hrestored).trans ?_
  refine (runOn_then hstepFinished).trans ?_
  refine runOn_then (runOn_transition ?_)
  show s.run.status.canTransitionTo (next r) = true
  rw [hrolling]
  exact hnext r

omit [DecidableEq ι] in
theorem automaticOutcome_spec (r : AppResult (OperationRestoreDetails ι)) :
    (automaticOutcome r).1 ∈ [.succeeded, .failed, .uncertain]
      ∧ OperationStatus.rollingBack.canTransitionTo (automaticOutcome r).2.1 = true := by
  cases r with
  | ok details =>
      unfold automaticOutcome
      dsimp only
      split <;> exact ⟨by simp, rfl⟩
  | error e =>
      unfold automaticOutcome
      dsimp only
      split <;> exact ⟨by simp, rfl⟩

omit [DecidableEq ι] in
theorem manualOutcome_spec (r : AppResult (OperationRestoreDetails ι)) :
    (manualOutcome r).stepStatus ∈ [.succeeded, .failed, .uncertain]
      ∧ OperationStatus.rollingBack.canTransitionTo (manualOutcome r).runStatus = true := by
  cases r with
  | ok details =>
      unfold manualOutcome
      dsimp only
      split <;> exact ⟨by simp, rfl⟩
  | error e =>
      unfold manualOutcome
      dsimp only
      cases (operationStatusForError e == .uncertain) <;> exact ⟨by simp, rfl⟩

/-- The statuses of a run from which it is rolled back by hand. -/
def rolledBackByHand : List OperationStatus :=
  [.succeeded, .failed, .uncertain, .rollbackPartial, .rollbackFailed, .rollbackAvailable]

/-- The rollback step of the run can be marked as running. -/
def StepReady (s : RecoveryState ι) : Prop :=
  ∃ steps, Repositories.OperationRepository.markStepRunning .rollback 0 s.steps = .ok steps

/-- What the automatic rollback makes of the run. -/
theorem status_finishDangerousFailure (id : ι) {failureStatus : OperationStatus}
    (hfailure : failureStatus ≠ .uncertain)
    (hrun : s.run.status.canTransitionTo .rollbackAvailable = true) (hstep : StepReady s) :
    (Process.run answer 0 (finishDangerousFailure id failureStatus).run s).2.run.status
      = (automaticOutcome (restored answer id s.calls)).2.1 := by
  obtain ⟨steps, hsteps⟩ := hstep
  obtain ⟨n', s', hstatus, htail⟩ := @runOn_rolledBack ι _ answer
    { s with run := { s.run with status := .rollingBack } } _ id rfl steps hsteps
    (fun r =>
      { phase := .rollback, stepIndex := 0, status := (automaticOutcome r).1
        outputSummary :=
          if (automaticOutcome r).1 = .succeeded then some "已核验恢复到修改前状态".toList else none
        errorMessage := (automaticOutcome r).2.2 })
    (fun _ => ⟨rfl, rfl⟩) (fun r => (automaticOutcome_spec r).1)
    (fun r => (automaticOutcome r).2.1) (fun r => (automaticOutcome_spec r).2)
    (fun _ => requireDetails)
  rw [Process.run_eq_runOn]
  unfold finishDangerousFailure
  rw [if_neg hfailure]
  have h : runOn answer 0 (do
      transition .rollbackAvailable
      transition .rollingBack
      markStepRunning .rollback 0
      let rollback ← rollbackPoint id
      let (stepStatus, runStatus, message) := automaticOutcome rollback
      finishStep
        { phase := .rollback, stepIndex := 0, status := stepStatus
          outputSummary :=
            if stepStatus = .succeeded then some "已核验恢复到修改前状态".toList else none
          errorMessage := message }
      transition runStatus
      requireDetails : RecoveryProcess ι OperationDetails).run s = _ :=
    (runOn_then (runOn_transition hrun)).trans ((runOn_then (runOn_transition rfl)).trans htail)
  rw [h]
  exact hstatus

omit [DecidableEq ι] in
theorem runOn_makeAvailable (hrun : s.run.status ∈ rolledBackByHand) :
    runOn answer n (makeAvailable s.run.status : RecoveryProcess ι Unit).run s
      = (n, .ok (), { s with run := { s.run with status := .rollbackAvailable } }) := by
  have hhand : s.run.status = .rollbackAvailable
      ∨ s.run.status ≠ .rollbackAvailable ∧ s.run.status.canTransitionTo .rollbackAvailable = true
        ∧ (makeAvailable s.run.status : RecoveryProcess ι Unit) = transition .rollbackAvailable := by
    unfold rolledBackByHand at hrun
    simp only [List.mem_cons, List.not_mem_nil, or_false] at hrun
    rcases hrun with h | h | h | h | h | h <;> rw [h]
    case inr.inr.inr.inr.inr => exact .inl rfl
    all_goals exact .inr ⟨by decide, rfl, rfl⟩
  rcases hhand with hsame | ⟨_, hcan, hmake⟩
  · have hstate : { s with run := { s.run with status := .rollbackAvailable } } = s := by
      rw [← hsame]
    rw [hstate, hsame]
    rfl
  · rw [hmake]
    exact runOn_transition hcan

/-- What the rollback by hand makes of the run. -/
theorem status_rollbackOperation {id : ι} {d : OperationRestoreDetails ι}
    (hget : get id (tableAfter s.calls) = some d)
    (hbegins : d.point.status ∈ [OperationRestorePointStatus.available, .partially, .failed])
    (hrun : s.run.status ∈ rolledBackByHand) (hstep : StepReady s) :
    (Process.run answer 0 (rollbackOperation id).run s).2.run.status
      = (manualOutcome (restored answer id s.calls)).runStatus := by
  obtain ⟨steps, hsteps⟩ := hstep
  obtain ⟨n', s', hstatus, htail⟩ := @runOn_rolledBack ι _ answer
    { s with run := { s.run with status := .rollingBack } } _ id rfl steps hsteps
    (fun r =>
      { phase := .rollback, stepIndex := 0, status := (manualOutcome r).stepStatus
        outputSummary := if (manualOutcome r).stepStatus = .succeeded then
            some "恢复点已经应用并核验".toList else none
        errorMessage := (manualOutcome r).technicalDetails })
    (fun _ => ⟨rfl, rfl⟩) (fun r => (manualOutcome_spec r).1)
    (fun r => (manualOutcome r).runStatus) (fun r => (manualOutcome_spec r).2)
    (fun r => show RecoveryProcess ι (OperationRecoveryResult ι) from do
      let operation ← requireDetails
      let restorePoint ← restoreDetails id
      pure { operation := operation
             whatHappened := (manualOutcome r).whatHappened
             serverMayHaveChanged := (manualOutcome r).runStatus != .rolledBack
             stateConfirmed := (manualOutcome r).runStatus == .rolledBack
             nextStep := (manualOutcome r).nextStep
             restorePoint := restorePoint.map fun details => details.point
             technicalDetails := (manualOutcome r).technicalDetails })
  have hfound : runOn answer 0 (restoreDetails id : RecoveryProcess ι _).run s
      = (0, .ok (some d), s) := by
    rw [← hget]
    rfl
  have hdetails : runOn answer 0 (requireDetails : RecoveryProcess ι _).run s
      = (0, .ok s.toOperationDetails, s) := rfl
  rw [Process.run_eq_runOn]
  unfold rollbackOperation
  rw [runOn_then hfound]
  dsimp only
  rw [if_neg (not_not.mpr hbegins), runOn_then hdetails, runOn_then (runOn_makeAvailable hrun),
    runOn_then (runOn_transition rfl)]
  exact (congrArg (fun ended : Nat × AppResult (OperationRecoveryResult ι) × RecoveryState ι =>
    ended.2.2.run.status) htail).trans hstatus

end

/-! ## §3. Where the two agree. -/

omit [DecidableEq ι] in
/-- The two readings differ for a point that is reported as failed. -/
theorem outcomes_agree (r : AppResult (OperationRestoreDetails ι)) :
    (automaticOutcome r).2.1 = (manualOutcome r).runStatus
      ↔ ∀ d, r = .ok d → d.point.status = .rolledBack ∨ d.point.status = .partially := by
  cases r with
  | ok details =>
      unfold automaticOutcome manualOutcome
      cases hstatus : details.point.status <;> simp [hstatus]
  | error e =>
      unfold automaticOutcome manualOutcome
      by_cases huncertain : operationStatusForError e = .uncertain <;> simp [huncertain]

/-- The connection is there and items are taken up, but none of them is restored, and
the connection is not lost. -/
def NothingRestored (answer : Nat → (question : RollbackQuestion ι) → RollbackAnswer question)
    (d : OperationRestoreDetails ι) : Prop :=
  answer 0 (.connect d.point.serverId) = .ok ()
    ∧ ∃ privilegeMode, answer 1 .probePrivilege = .ok privilegeMode
    ∧ outcomes answer d.point.taskId privilegeMode 2 d.items.reverse ≠ []
    ∧ ∀ o ∈ outcomes answer d.point.taskId privilegeMode 2 d.items.reverse,
        o = .cancelled ∨ ∃ e, o = .failed e ∧ isConnectionUncertain e = false

/-- Where the connection stays and every item can be marked, the point is reported as
failed exactly when nothing of what was taken up is restored. -/
theorem endStatus_failed_iff {os : List ItemOutcome} (hstuck : ItemOutcome.refused ∉ os)
    (hlost : (os.any fun o => o.isLost) = false) :
    (endStatus os = .rolledBack ∨ endStatus os = .partially)
      ↔ ¬ (os ≠ [] ∧ ∀ o ∈ os, o = .cancelled ∨ ∃ e, o = .failed e ∧ isConnectionUncertain e = false) := by
  have hrestored : .restored ∈ os ↔ restoredAmong os ≠ 0 := by
    rw [← restoredAmong_pos]
    omega
  have hothers : (∀ o ∈ os, o = .cancelled ∨ ∃ e, o = .failed e ∧ isConnectionUncertain e = false)
      ↔ .restored ∉ os := by
    constructor
    · intro h hmem
      rcases h _ hmem with heq | ⟨e, heq, _⟩ <;> cases heq
    · intro hnot o ho
      cases o with
      | cancelled => exact .inl rfl
      | refused => exact absurd ho hstuck
      | restored => exact absurd ho hnot
      | failed e =>
          have hkept := List.any_eq_false.mp hlost _ ho
          exact .inr ⟨e, rfl, Bool.not_eq_true _ ▸ hkept⟩
  rw [hothers, hrestored]
  unfold endStatus
  by_cases hall : (os.all fun o => o.isRestored) = true
  · rw [if_pos hall]
    simp only [true_or, true_iff, not_and, not_not]
    intro hnonempty
    obtain ⟨o, ho⟩ := List.exists_mem_of_ne_nil os hnonempty
    refine hrestored.mp ?_
    rw [← isRestored_iff.mp (List.all_eq_true.mp hall o ho)]
    exact ho
  · have hnonempty : os ≠ [] := by
      rintro rfl
      exact hall rfl
    rw [if_neg hall]
    by_cases hnone : restoredAmong os = 0
    · rw [if_pos hnone]
      simp [hnonempty, hnone]
    · rw [if_neg hnone]
      simp [hnone]

theorem restored_failed_iff {answer : Nat → (question : RollbackQuestion ι) → RollbackAnswer question}
    {id : ι} {calls : List (Call ι)} {d : OperationRestoreDetails ι}
    (hget : get id (tableAfter calls) = some d)
    (hbegins : d.point.status ∈ [OperationRestorePointStatus.available, .partially, .failed]) :
    (∀ d', restored answer id calls = .ok d' →
        d'.point.status = .rolledBack ∨ d'.point.status = .partially)
      ↔ ¬ NothingRestored answer d := by
  unfold restored NothingRestored
  rw [Process.run_eq_runOn]
  by_cases hconnected : answer 0 (.connect d.point.serverId) = .ok ()
      ∧ ∃ privilegeMode, answer 1 .probePrivilege = .ok privilegeMode
  · obtain ⟨hconnect, privilegeMode, hprobe⟩ := hconnected
    obtain ⟨n', result, calls', d', hrun, _, hends⟩ := rollback_spec hget hbegins hconnect hprobe
    rw [hrun]
    have hmode : ∀ mode, answer 1 .probePrivilege = .ok mode → mode = privilegeMode := by
      intro mode hmode
      exact Except.ok.inj (hmode.symm.trans hprobe)
    have hthere : (answer 0 (.connect d.point.serverId) = .ok ()
          ∧ ∃ mode, answer 1 .probePrivilege = .ok mode
            ∧ outcomes answer d.point.taskId mode 2 d.items.reverse ≠ []
            ∧ ∀ o ∈ outcomes answer d.point.taskId mode 2 d.items.reverse,
              o = .cancelled ∨ ∃ e, o = .failed e ∧ isConnectionUncertain e = false)
        ↔ outcomes answer d.point.taskId privilegeMode 2 d.items.reverse ≠ []
          ∧ ∀ o ∈ outcomes answer d.point.taskId privilegeMode 2 d.items.reverse,
            o = .cancelled ∨ ∃ e, o = .failed e ∧ isConnectionUncertain e = false := by
      constructor
      · rintro ⟨_, mode, hmode', h⟩
        rwa [hmode mode hmode'] at h
      · intro h
        exact ⟨hconnect, privilegeMode, hprobe, h⟩
    rw [hthere]
    simp only [Nat.zero_add] at hends
    generalize outcomes answer d.point.taskId privilegeMode 2 d.items.reverse = os at *
    by_cases hstuck : ItemOutcome.refused ∈ os
    · obtain ⟨_, e, rfl⟩ := hends.stuck hstuck
      refine ⟨fun _ h => ?_, fun _ d' h => by cases h⟩
      rcases h.2 _ hstuck with heq | ⟨e, heq, _⟩ <;> cases heq
    cases hlost : os.any fun o => o.isLost with
    | true =>
        obtain ⟨message, rfl⟩ := hends.fails hstuck hlost
        refine ⟨fun _ h => ?_, fun _ d' h => by cases h⟩
        obtain ⟨o, ho, hone⟩ := List.any_eq_true.mp hlost
        rcases h.2 o ho with rfl | ⟨e, rfl, he⟩
        · cases hone
        · exact absurd hone (by rw [ItemOutcome.isLost, he]; decide)
    | false =>
        rw [hends.returns hstuck hlost, ← endStatus_failed_iff hstuck hlost, ← hends.ended hstuck]
        exact ⟨fun h => h d' rfl, fun h d'' heq => Except.ok.inj heq ▸ h⟩
  · obtain ⟨e, he⟩ := runOn_unconnected (n := 0) hget hbegins fun hconnect mode hprobe =>
      hconnected ⟨hconnect, mode, hprobe⟩
    rw [he]
    refine ⟨fun _ h => hconnected ⟨h.1, ?_⟩, fun _ d' h => by cases h⟩
    obtain ⟨_, mode, hprobe, _⟩ := h
    exact ⟨mode, hprobe⟩

/-- **The two rollbacks leave the run in one status, unless the connection is there and
stays, and nothing of what is taken up is restored.** -/
theorem rollbacks_agree {answer : Nat → (question : RollbackQuestion ι) → RollbackAnswer question}
    {id : ι} {d : OperationRestoreDetails ι} {automatic manual : RecoveryState ι}
    (hsame : manual.calls = automatic.calls) (hget : get id (tableAfter manual.calls) = some d)
    (hbegins : d.point.status ∈ [OperationRestorePointStatus.available, .partially, .failed])
    {failureStatus : OperationStatus} (hfailure : failureStatus ≠ .uncertain)
    (hfailed : automatic.run.status.canTransitionTo .rollbackAvailable = true)
    (hhand : manual.run.status ∈ rolledBackByHand)
    (hready : StepReady automatic) (hready' : StepReady manual) :
    (Process.run answer 0 (finishDangerousFailure id failureStatus).run automatic).2.run.status
        = (Process.run answer 0 (rollbackOperation id).run manual).2.run.status
      ↔ ¬ NothingRestored answer d := by
  rw [status_finishDangerousFailure id hfailure hfailed hready,
    status_rollbackOperation hget hbegins hhand hready', ← hsame, outcomes_agree,
    restored_failed_iff hget hbegins]

/-- A run of a dangerous task, with its rollback step. -/
def hostnameRun (status : OperationStatus) : RecoveryState Nat where
  run :=
    { serverId := "web-1".toList, taskId := "system.hostname_change".toList, taskVersion := 1
      riskLevel := .dangerous, status := status, parametersSummary := none, result := none
      errorCategory := none, errorMessage := none }
  steps := [{ phase := .rollback, stepIndex := 0, stepId := "rollback".toList
              title := "恢复".toList, status := .pending, outputSummary := none
              errorMessage := none }]
  calls := twoFiles

theorem hostnameRun_ready (status : OperationStatus) : StepReady (hostnameRun status) := ⟨_, rfl⟩

/-- The statuses that the two rollbacks leave. -/
def leftStatuses (answer : Nat → (q : RollbackQuestion Nat) → RollbackAnswer q) :
    OperationStatus × OperationStatus :=
  ((Process.run answer 0 (finishDangerousFailure 2 .failed).run (hostnameRun .running)).2.run.status,
    (Process.run answer 0 (rollbackOperation 2).run (hostnameRun .succeeded)).2.run.status)

theorem rollbacks_agree_restored :
    (leftStatuses obligingHost).1 = (leftStatuses obligingHost).2 := by
  have hget : get 2 (tableAfter twoFiles) = some twoFilesPoint :=
    (Option.some_get twoFiles_found).symm
  refine (@rollbacks_agree Nat _ obligingHost 2 twoFilesPoint (hostnameRun .running)
    (hostnameRun .succeeded) rfl hget (by decide) .failed (by decide) rfl (by decide)
    (hostnameRun_ready _) (hostnameRun_ready _)).mpr ?_
  rintro ⟨_, privilegeMode, hprobe, _, hnone⟩
  obtain rfl : PrivilegeMode.root = privilegeMode := Except.ok.inj hprobe
  have hrestored : .restored ∈ outcomes obligingHost twoFilesPoint.point.taskId .root 2
      twoFilesPoint.items.reverse := restoredAmong_pos.mp (by decide)
  rcases hnone _ hrestored with heq | ⟨e, heq, _⟩ <;> cases heq

/-- Every file misses its asset. -/
def withoutFiles : Nat → (q : RollbackQuestion Nat) → RollbackAnswer q
  | _, .connect _ => .ok ()
  | _, .probePrivilege => .ok .root
  | _, .isCancelled => false
  | _, .rollbackItem _ _ _ => .error (.integrity "恢复项缺少 SHA-256".toList)

/-- The same failed rollback is reported as failed, and as partial. -/
theorem failed_reported_partial :
    leftStatuses withoutFiles = (.rollbackFailed, .rollbackPartial)
      ∧ (leftStatuses withoutFiles).1 ≠ (leftStatuses withoutFiles).2 := by
  have hleft : leftStatuses withoutFiles = (.rollbackFailed, .rollbackPartial) := by decide
  rw [hleft]
  exact ⟨rfl, by decide⟩

end QingzhouSSH.Services.OperationService
