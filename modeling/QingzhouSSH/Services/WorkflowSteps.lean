/-
  QingzhouSSH.Services.WorkflowSteps — the steps of a driver beside its records.

  Events and the tracked child come and go while a node is executed; the rows of the run,
  its deeds and its token stay as they are.

  Main results:
    * `executeNode_aside` — the body of a node leaves the records alone;
    * `executeNode_came` — what it comes to.
-/
import QingzhouSSH.Repositories.ExecutionRepository
import QingzhouSSH.Services.WorkflowService

namespace QingzhouSSH.Services.WorkflowService

open String (utf8Len)
open QingzhouSSH.Lib
open QingzhouSSH.Lib.Process
open QingzhouSSH.Domain
open QingzhouSSH.Core.Workflows
open QingzhouSSH.Repositories.ExecutionRepository
open QingzhouSSH.Repositories.WorkflowRepository

/-! ## §1. Steps beside the records. -/

/-- At most the events and the child have changed. -/
structure Aside (s s' : RunState) : Prop where
  run : s'.tables.run = s.tables.run
  nodeRuns : s'.tables.nodeRuns = s.tables.nodeRuns
  deeds : s'.deeds = s.deeds
  active : s'.active.map ActiveWorkflowRun.cancelled = s.active.map ActiveWorkflowRun.cancelled

theorem Aside.refl (s : RunState) : Aside s s := ⟨rfl, rfl, rfl, rfl⟩

theorem appendEvent_aside {eventType : Text} {payload : Value} {tables tables' : RunTables}
    {n : Nat} (h : appendEvent eventType payload tables = .ok (n, tables')) :
    tables'.run = tables.run ∧ tables'.nodeRuns = tables.nodeRuns := by
  unfold appendEvent at h
  split at h
  · cases h
  · split at h
    · cases h
    · cases h
      exact ⟨rfl, rfl⟩

theorem emit_aside (payload : WorkflowEventPayload) : Guarantees Aside (emit payload).run := by
  unfold emit
  refine guarantees_andThen trivial fun eventType => ?_
  refine guarantees_andThen (guarantees_atomic fun s => ?_) fun sequence => ?_
  · cases happend : appendEvent eventType (defaultRedactor.redactJson payload.toValue) s.tables with
    | ok appended =>
        obtain ⟨hrun, hrows⟩ := appendEvent_aside happend
        exact ⟨hrun, hrows, rfl, rfl⟩
    | error e => exact Aside.refl s
  · cases WorkflowEventPayload.ofValue (defaultRedactor.redactJson payload.toValue) with
    | none => trivial
    | some payload => exact fun _ => trivial

/-- The child of a run comes and goes. -/
theorem setChild_aside (executionId : Uuid) :
    Guarantees Aside (Process.update (setChildNow executionId) : RunProcess Unit).run := by
  refine guarantees_update Aside.refl fun s s' hok => ?_
  unfold setChildNow at hok
  cases hactive : s.active with
  | none =>
      rw [hactive] at hok
      cases hok
  | some entry =>
      rw [hactive] at hok
      dsimp only at hok
      split at hok
      · cases hok
      · cases hok
        exact ⟨rfl, rfl, rfl, by rw [hactive]; rfl⟩

theorem clearChild_aside (child : Option Uuid) : (clearChild child).Guarantees Aside := by
  cases child with
  | none => trivial
  | some executionId =>
      refine guarantees_update Aside.refl fun s s' hok => ?_
      unfold clearChildNow at hok
      cases hactive : s.active with
      | none =>
          rw [hactive] at hok
          cases hok
      | some entry =>
          rw [hactive] at hok
          dsimp only at hok
          split at hok
          · cases hok
          · cases hok
            exact ⟨rfl, rfl, rfl, by rw [hactive]; rfl⟩

theorem trackEvents_aside (events : List ChildEvent) (child : Option Uuid) :
    (trackEvents events child).Guarantees Aside := by
  induction events generalizing child with
  | nil => trivial
  | cons event rest ih =>
      cases event with
      | started executionId =>
          refine guarantees_bind (setChild_aside executionId) fun r => ?_
          cases r with
          | ok _ => exact ih (some executionId)
          | error _ => exact ih child
      | ended => exact guarantees_bind (clearChild_aside child) fun _ => ih none

theorem runAdapter_aside (runId nodeId : Uuid) (attempt : Attempt)
    (config : WorkflowNodeConfig Uuid) :
    (runAdapter runId nodeId attempt config).Guarantees Aside := by
  unfold runAdapter
  refine guarantees_bind (fun _ => trivial) fun events => ?_
  refine guarantees_bind (trackEvents_aside events none) fun child => ?_
  refine guarantees_bind (fun _ => trivial) fun result => ?_
  refine guarantees_bind (clearChild_aside child) fun cleared => ?_
  cases cleared <;> trivial

/-- **The body of a node leaves the records alone.** -/
theorem executeNode_aside (runId nodeId : Uuid) (attempt : Attempt) (contexts : Contexts)
    (config : WorkflowNodeConfig Uuid) :
    (executeNode runId nodeId attempt contexts config).Guarantees Aside := by
  cases config with
  | start => trivial
  | stop message => trivial
  | condition source predicate => trivial
  | task taskId taskVersion parameters => exact runAdapter_aside _ _ _ _
  | custom mode content timeoutSeconds => exact runAdapter_aside _ _ _ _
  | download remotePath suggestedName overwrite => exact runAdapter_aside _ _ _ _
  | logSearch => exact runAdapter_aside _ _ _ _
  | upload localPath remotePath overwrite createRestorePoint =>
      cases createRestorePoint with
      | false => exact runAdapter_aside _ _ _ _
      | true =>
          refine guarantees_bind (fun _ => trivial) fun captured => ?_
          cases captured with
          | error e => trivial
          | ok point =>
              refine guarantees_bind (emit_aside _) fun r => ?_
              cases r with
              | ok _ => exact runAdapter_aside _ _ _ _
              | error e => trivial

theorem emitCondition_aside (context : RunContext) (nodeId : Uuid) (result : Option Bool) :
    Guarantees Aside (emitCondition context nodeId result).run := by
  cases result with
  | none => trivial
  | some result => exact emit_aside _

/-! ## §2. What a node comes to. -/

/-- The outcome of a node that no adapter executes. -/
def ownOutcome (contexts : Contexts) : WorkflowNodeConfig Uuid → Option StepOutcome
  | .start =>
      some (.succeeded "工作流已开始".toList (some (objectValue [("started", .bool true)])))
  | .stop message => some (.succeeded message (some (objectValue [("stopped", .bool true)])))
  | .condition source predicate => some (conditionOutcome contexts source predicate)
  | _ => none

theorem ownOutcome_none_iff {contexts contexts' : Contexts} {config : WorkflowNodeConfig Uuid} :
    ownOutcome contexts config = none ↔ ownOutcome contexts' config = none := by
  cases config <;> simp [ownOutcome]

/-- The summary is short enough to be stored as it is. -/
def Summarised (outcome : StepOutcome) : Prop :=
  capUtf8 outcome.outputSummary (8 * 1024) = outcome.outputSummary

/-- An execution keeps no more than 8 KiB of its output as its summary. -/
def Capped : (question : RunQuestion) → RunAnswer question → Prop
  | .execute _ _ _ _, answer =>
      ∀ outcome, answer = .ok outcome → ∀ summary ∈ outcome.outputSummary,
        utf8Len summary ≤ 8 * 1024
  | _, _ => True

/-- `map_execution_details`: what an adapter returns of an execution that has ended. -/
def mapExecutionDetails (id : Uuid) (record : ExecutionRecord) (result : Option Value) :
    AppResult NodeOutcome :=
  let outcome (status : FinalStatus) : NodeOutcome :=
    { executionId := id, status := status, exitCode := record.exitCode, result := result,
      outputSummary := record.outputSummary, errorCategory := record.errorCategory,
      errorMessage := record.errorMessage, retryable := record.retryable }
  match record.status with
  | .succeeded => .ok (outcome .succeeded)
  | .failed => .ok (outcome .failed)
  | .cancelled => .ok (outcome .cancelled)
  | .uncertain => .ok (outcome .uncertain)
  | .queued | .running => .error (.remoteStateUncertain "M2 子执行返回时仍未进入终态".toList)

/-- **What an adapter returns of a record is capped**, for records are. -/
theorem mapExecutionDetails_capped (runId nodeId : Uuid) (attempt : Attempt)
    (config : WorkflowNodeConfig Uuid) (id : Uuid) {record : ExecutionRecord}
    (h : record.Summarised) (result : Option Value) :
    Capped (.execute runId nodeId attempt config) (mapExecutionDetails id record result) := by
  intro outcome houtcome summary hsummary
  unfold mapExecutionDetails at houtcome
  split at houtcome
  all_goals cases houtcome
  all_goals exact h summary hsummary

/-- The outcome of a node is its own, or that of an adapter. -/
structure Came (contexts : Contexts) (config : WorkflowNodeConfig Uuid) (outcome : StepOutcome) :
    Prop where
  own : ∀ given, ownOutcome contexts config = some given → outcome = given
  adapter : ownOutcome contexts config = none → outcome.conditionResult = none
  status : outcome.status ∈ [.succeeded, .failed, .cancelled, .uncertain]
  summarised : Summarised outcome

theorem summarised_of_le {outcome : StepOutcome}
    (h : ∀ summary ∈ outcome.outputSummary, utf8Len summary ≤ 8 * 1024) : Summarised outcome :=
  capUtf8_of_le h

variable {contexts : Contexts} {config : WorkflowNodeConfig Uuid}

/-- An adapter's failure. -/
theorem came_failed {e : AppError} (h : ownOutcome contexts config = none) :
    Came contexts config (.failed e) where
  own given hgiven := by
    rw [h] at hgiven
    cases hgiven
  adapter _ := rfl
  status := by simp [StepOutcome.failed]
  summarised := rfl

theorem came_own {outcome : StepOutcome} (h : ownOutcome contexts config = some outcome)
    (hstatus : outcome.status ∈ [.succeeded, .failed, .cancelled, .uncertain])
    (hsummarised : Summarised outcome) : Came contexts config outcome where
  own given hgiven := by
    rw [h] at hgiven
    exact Option.some.inj hgiven
  adapter hnone := by
    rw [h] at hnone
    cases hnone
  status := hstatus
  summarised := hsummarised

theorem came_condition {source : Uuid} {predicate : WorkflowCondition} :
    Came contexts (.condition source predicate) (conditionOutcome contexts source predicate) := by
  refine came_own rfl ?_ ?_
  · unfold conditionOutcome
    cases contexts source with
    | none => simp [StepOutcome.failed]
    | some found =>
        dsimp only
        cases evaluateCondition predicate found <;> simp [StepOutcome.failed, StepOutcome.succeeded]
  · unfold conditionOutcome
    cases contexts source with
    | none => rfl
    | some found =>
        dsimp only
        cases evaluateCondition predicate found with
        | error e => rfl
        | ok result =>
            refine summarised_of_le fun summary hsummary => ?_
            cases Option.some.inj hsummary
            cases result <;> decide

variable {A : (question : RunQuestion) → RunAnswer question → Prop}
variable {runId nodeId : Uuid} {attempt : Attempt}

theorem runAdapter_came (hcapped : ∀ question answer, A question answer → Capped question answer)
    (hconfig : ownOutcome contexts config = none) (asked : WorkflowNodeConfig Uuid) :
    (runAdapter runId nodeId attempt asked).YieldsIn A (Came contexts config) := by
  unfold runAdapter
  refine yieldsIn_bind (yieldsIn_any _) fun events _ => ?_
  refine yieldsIn_bind (yieldsIn_any _) fun child _ => ?_
  have hexecute : (execute runId nodeId attempt asked).YieldsIn A fun result =>
      ∀ outcome, result = .ok outcome → ∀ summary ∈ outcome.outputSummary,
        utf8Len summary ≤ 8 * 1024 :=
    fun result hadmitted => hcapped (.execute runId nodeId attempt asked) result hadmitted
  refine yieldsIn_bind hexecute fun result hresult => ?_
  refine yieldsIn_bind (yieldsIn_any _) fun cleared _ => ?_
  cases cleared with
  | error e => exact came_failed hconfig
  | ok _ =>
      cases result with
      | error e => exact came_failed hconfig
      | ok outcome =>
          refine ⟨fun given hgiven => ?_, fun _ => rfl, ?_, summarised_of_le (hresult outcome rfl)⟩
          · rw [hconfig] at hgiven
            cases hgiven
          · show outcome.status.status ∈ _
            cases outcome.status <;> simp [FinalStatus.status]

/-- **What the body of a node comes to**, if its message at a stop is short. -/
theorem executeNode_came
    (hcapped : ∀ question answer, A question answer → Capped question answer)
    (hstop : ∀ message, config = .stop message → utf8Len message ≤ 8 * 1024) :
    (executeNode runId nodeId attempt contexts config).YieldsIn A (Came contexts config) := by
  cases config with
  | start =>
      refine came_own rfl (by simp [StepOutcome.succeeded]) (summarised_of_le fun summary hsummary => ?_)
      cases Option.some.inj hsummary
      decide
  | stop message =>
      refine came_own rfl (by simp [StepOutcome.succeeded]) (summarised_of_le fun summary hsummary => ?_)
      cases Option.some.inj hsummary
      exact hstop message rfl
  | condition source predicate => exact came_condition
  | task taskId taskVersion parameters => exact runAdapter_came hcapped rfl _
  | custom mode content timeoutSeconds => exact runAdapter_came hcapped rfl _
  | download remotePath suggestedName overwrite => exact runAdapter_came hcapped rfl _
  | logSearch => exact runAdapter_came hcapped rfl _
  | upload localPath remotePath overwrite createRestorePoint =>
      cases createRestorePoint with
      | false => exact runAdapter_came hcapped rfl _
      | true =>
          refine yieldsIn_bind (yieldsIn_any _) fun captured _ => ?_
          cases captured with
          | error e => exact came_failed rfl
          | ok point =>
              refine yieldsIn_bind (yieldsIn_any _) fun r _ => ?_
              cases r with
              | ok _ => exact runAdapter_came hcapped rfl _
              | error e => exact came_failed rfl

end QingzhouSSH.Services.WorkflowService
