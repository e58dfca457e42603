/-
  QingzhouSSH.Services.WorkflowService — driving a workflow run.

  `run` and `retryFailedNode` are procedures over the tables of one run and its entry
  in the registry.  What the connections, the node adapters and the interface answer is
  not their own doing, and `cancel` may be called between any two of their steps.
-/
import QingzhouSSH.Core.Workflows.Condition
import QingzhouSSH.Domain.WorkflowEvents
import QingzhouSSH.Lib.Process
import QingzhouSSH.Repositories.WorkflowRepository

namespace QingzhouSSH.Services.WorkflowService

open QingzhouSSH.Lib
open QingzhouSSH.Domain
open QingzhouSSH.Core.Tasks
open QingzhouSSH.Core.Workflows
open QingzhouSSH.Repositories.WorkflowRepository

/-! ## §1. The state. -/

/-- `ActiveWorkflowRun`: its token and the execution that it may have to cancel. -/
structure ActiveWorkflowRun where
  cancelled : Bool
  childExecutionId : Option Uuid

/-- What happens that no row shows: the driver polls its token, and the body of a node
begins and ends; a call of `cancel` sets the token, and returns before the run has been
finished. -/
inductive Deed where
  | polled (nodeId : Uuid) (cancelled : Bool)
  | began (nodeId : Uuid)
  | ended (nodeId : Uuid) (status : WorkflowNodeStatus)
  | tokenSet
  | cancelReturned
  deriving DecidableEq

/-- The tables of a run and its entry in the registry; the deeds, latest first, only
record what has happened. -/
structure RunState where
  tables : RunTables
  active : Option ActiveWorkflowRun
  deeds : List Deed

def note (deed : Deed) (s : RunState) : RunState := { s with deeds := deed :: s.deeds }

/-! ## §2. The registry. -/

/-- `WorkflowRunRegistry::register`. -/
def register (s : RunState) : AppResult RunState :=
  match s.active with
  | some _ => .error (.validation "工作流运行已经注册".toList)
  | none => .ok { s with active := some { cancelled := false, childExecutionId := none } }

/-- `set_child_now`. -/
def setChildNow (executionId : Uuid) (s : RunState) : AppResult RunState :=
  match s.active with
  | none => .error (.validation "工作流运行不存在或已经结束".toList)
  | some entry =>
      if entry.childExecutionId.isSome then
        .error (.validation "工作流已有正在运行的子执行".toList)
      else .ok { s with active := some { entry with childExecutionId := some executionId } }

/-- `clear_child_now`. -/
def clearChildNow (executionId : Uuid) (s : RunState) : AppResult RunState :=
  match s.active with
  | none => .error (.validation "工作流运行不存在或已经结束".toList)
  | some entry =>
      if entry.childExecutionId != some executionId then
        .error (.validation "工作流子执行标识不匹配".toList)
      else .ok { s with active := some { entry with childExecutionId := none } }

/-- `WorkflowRunRegistry::cancel`: the token is set, and the child is returned. -/
def cancelNow (s : RunState) : AppResult (Option Uuid) × RunState :=
  match s.active with
  | none => (.error (.validation "工作流运行不存在或已经结束".toList), s)
  | some entry =>
      (.ok entry.childExecutionId, { s with active := some { entry with cancelled := true } })

/-- `remove`. -/
def remove (s : RunState) : RunState := { s with active := none }

/-- The token of the driver, which polls it only while the run is registered. -/
def isCancelled (s : RunState) : Bool := s.active.any ActiveWorkflowRun.cancelled

/-! ## §3. Outcomes and questions. -/

structure StepOutcome where
  status : WorkflowNodeStatus
  executionId : Option Uuid
  exitCode : Option Int
  result : Option Value
  outputSummary : Option Text
  errorCategory : Option Text
  errorMessage : Option Text
  retryable : Bool
  conditionResult : Option Bool

/-- `StepOutcome::succeeded`. -/
def StepOutcome.succeeded (outputSummary : Text) (result : Option Value) : StepOutcome :=
  { status := .succeeded, executionId := none, exitCode := some 0, result := result,
    outputSummary := some outputSummary, errorCategory := none, errorMessage := none,
    retryable := false, conditionResult := none }

/-- `StepOutcome::failed`. -/
def StepOutcome.failed (error : AppError) : StepOutcome :=
  { status := .failed, executionId := none, exitCode := none, result := none,
    outputSummary := none, errorCategory := some error.code, errorMessage := some error.message,
    retryable := error.retryable, conditionResult := none }

/-- `cancelled_outcome`. -/
def cancelledOutcome : StepOutcome :=
  { status := .cancelled, executionId := none, exitCode := none, result := none,
    outputSummary := none, errorCategory := some "cancelled".toList,
    errorMessage := some AppError.cancelled.message, retryable := false, conditionResult := none }

/-- The statuses that `map_execution_details` gives. -/
inductive FinalStatus where
  | succeeded
  | failed
  | cancelled
  | uncertain
  deriving DecidableEq

def FinalStatus.status : FinalStatus → WorkflowNodeStatus
  | .succeeded => .succeeded
  | .failed => .failed
  | .cancelled => .cancelled
  | .uncertain => .uncertain

/-- `NodeOutcome`, as far as the driver reads it. -/
structure NodeOutcome where
  executionId : Uuid
  status : FinalStatus
  exitCode : Option Int
  result : Option Value
  outputSummary : Option Text
  errorCategory : Option Text
  errorMessage : Option Text
  retryable : Bool

/-- `StepOutcome::from`. -/
def StepOutcome.ofNode (outcome : NodeOutcome) : StepOutcome :=
  { status := outcome.status.status, executionId := some outcome.executionId,
    exitCode := outcome.exitCode, result := outcome.result,
    outputSummary := outcome.outputSummary, errorCategory := outcome.errorCategory,
    errorMessage := outcome.errorMessage, retryable := outcome.retryable,
    conditionResult := none }

/-- The outcome of a node from what its adapter returned. -/
def StepOutcome.ofAdapter : AppResult NodeOutcome → StepOutcome
  | .ok outcome => .ofNode outcome
  | .error e => .failed e

/-- The events of an execution that `ChildTrackingSink` looks at. -/
inductive ChildEvent where
  | started (executionId : Uuid)
  | ended

/-- What the driver asks the world outside the tables and the registry. -/
inductive RunQuestion where
  | requireTrustedServer (serverId : Text)
  | connect (serverId : Text)
  | drawId
  | deliver (sequence : Nat) (payload : WorkflowEventPayload)
  | childEvents (runId nodeId : Uuid) (attempt : Attempt)
  | execute (runId nodeId : Uuid) (attempt : Attempt) (config : WorkflowNodeConfig Uuid)
  | capture (runId nodeId : Uuid) (attempt : Attempt) (remotePath : Text)
  | duration
  | cancelExecution (executionId : Uuid)

def RunAnswer : RunQuestion → Type
  | .requireTrustedServer _ | .connect _ | .deliver _ _ | .cancelExecution _ => AppResult Unit
  | .drawId => Uuid
  | .childEvents _ _ _ => List ChildEvent
  | .execute _ _ _ _ => AppResult NodeOutcome
  | .capture _ _ _ _ => AppResult (Uuid × WorkflowRestorePointStatus)
  | .duration => Fin (2 ^ 64)

/-- Procedures that cannot fail. -/
abbrev PlainProcess (α : Type) := Process RunState RunAnswer α

abbrev RunProcess (α : Type) := ExceptT AppError PlainProcess α

/-- A result that needs no step. -/
def ofResult {α : Type} (result : AppResult α) : RunProcess α := ExceptT.mk (pure result)

/-- A transaction of the repository. -/
def transact (f : RunTables → AppResult RunTables) : RunProcess Unit :=
  Process.update fun s => (f s.tables).map fun tables => { s with tables := tables }

/-- A transaction that starts an attempt. -/
def transactAttempt (f : RunTables → AppResult Attempt × RunTables) : RunProcess Attempt :=
  Process.atomic fun s => ((f s.tables).1, { s with tables := (f s.tables).2 })

/-! ## §4. Events. -/

def appendEventNow (eventType : Text) (payload : Value) : RunProcess Nat :=
  Process.atomic fun s =>
    match appendEvent eventType payload s.tables with
    | .ok (sequence, tables) => (.ok sequence, { s with tables := tables })
    | .error e => (.error e, s)

/-- `events.send`. -/
def deliver (sequence : Nat) (payload : WorkflowEventPayload) : RunProcess Unit :=
  Process.query (RunQuestion.deliver sequence payload)

/-- The type of an event. -/
def eventType (value : Value) : AppResult Text :=
  match value.asObject.bind fun fields => textField fields "type" with
  | some eventType => .ok eventType
  | none => .error (.serialization "工作流事件缺少类型".toList)

/-- `emit`. -/
def emit (payload : WorkflowEventPayload) : RunProcess Unit := do
  let redacted := defaultRedactor.redactJson payload.toValue
  let eventType ← ofResult (eventType redacted)
  let sequence ← appendEventNow eventType redacted
  match WorkflowEventPayload.ofValue redacted with
  | none => throw (.serialization "脱敏后的工作流事件无效".toList)
  | some payload => deliver sequence payload

/-! ## §5. The body of a node. -/

/-- The end of a child execution, if one is tracked. -/
def clearChild : Option Uuid → PlainProcess (AppResult Unit)
  | none => pure (.ok ())
  | some executionId => Process.update (clearChildNow executionId)

/-- `ChildTrackingSink::send` for each event: the child that is tracked at the end. -/
def trackEvents : List ChildEvent → Option Uuid → PlainProcess (Option Uuid)
  | [], child => pure child
  | .started executionId :: rest, child => do
      match ← (Process.update (setChildNow executionId) : RunProcess Unit).run with
      | .ok _ => trackEvents rest (some executionId)
      | .error _ => trackEvents rest child
  | .ended :: rest, child => do
      let _ ← clearChild child
      trackEvents rest none

def childEvents (runId nodeId : Uuid) (attempt : Attempt) : PlainProcess (List ChildEvent) :=
  Process.query (RunQuestion.childEvents runId nodeId attempt)

def execute (runId nodeId : Uuid) (attempt : Attempt) (config : WorkflowNodeConfig Uuid) :
    PlainProcess (AppResult NodeOutcome) :=
  Process.query (RunQuestion.execute runId nodeId attempt config)

def capture (runId nodeId : Uuid) (attempt : Attempt) (remotePath : Text) :
    PlainProcess (AppResult (Uuid × WorkflowRestorePointStatus)) :=
  Process.query (RunQuestion.capture runId nodeId attempt remotePath)

/-- A node that one of the adapters executes. -/
def runAdapter (runId nodeId : Uuid) (attempt : Attempt) (config : WorkflowNodeConfig Uuid) :
    PlainProcess StepOutcome := do
  let events ← childEvents runId nodeId attempt
  let child ← trackEvents events none
  let result ← execute runId nodeId attempt config
  match ← clearChild child with
  | .error e => pure (.failed e)
  | .ok _ => pure (.ofAdapter result)

/-- The results of the nodes that have succeeded. -/
abbrev Contexts := Uuid → Option ConditionContext

/-- The outcome of a condition node. -/
def conditionOutcome (contexts : Contexts) (sourceNodeId : Uuid) (predicate : WorkflowCondition) :
    StepOutcome :=
  match contexts sourceNodeId with
  | none => .failed (.validation "条件来源节点尚无结果".toList)
  | some source =>
      match evaluateCondition predicate source with
      | .error e => .failed e
      | .ok result =>
          { StepOutcome.succeeded (if result then "条件为真".toList else "条件为假".toList)
              (some (objectValue [("value", .bool result)])) with
            conditionResult := some result }

/-- `execute_node`. -/
def executeNode (runId nodeId : Uuid) (attempt : Attempt) (contexts : Contexts) :
    WorkflowNodeConfig Uuid → PlainProcess StepOutcome
  | .start =>
      pure (.succeeded "工作流已开始".toList (some (objectValue [("started", .bool true)])))
  | .stop message => pure (.succeeded message (some (objectValue [("stopped", .bool true)])))
  | .condition sourceNodeId predicate => pure (conditionOutcome contexts sourceNodeId predicate)
  | .upload localPath remotePath overwrite createRestorePoint =>
      let upload := .upload localPath remotePath overwrite false
      if createRestorePoint then do
        match ← capture runId nodeId attempt remotePath with
        | .error e => pure (.failed e)
        | .ok (restorePointId, status) => do
            match ← (emit (.restorePointChanged runId nodeId restorePointId status.asStr)).run with
            | .error e => pure (.failed e)
            | .ok _ => runAdapter runId nodeId attempt upload
      else runAdapter runId nodeId attempt upload
  | config => runAdapter runId nodeId attempt config

/-! ## §6. The loop. -/

/-- What is the same for every turn of the loop. -/
structure RunContext where
  definition : WorkflowDefinition
  runId : Uuid

/-- `next_node`. -/
def nextNode (edges : List (WorkflowEdge Uuid)) (current : Uuid) (conditionResult : Option Bool) :
    AppResult (Option Uuid) :=
  let branch := match conditionResult with
    | none => WorkflowEdgeBranch.success
    | some true => .true
    | some false => .false
  let found := edges.filter fun edge => edge.source == current && edge.branch == branch
  if 1 < found.length then .error (.validation "工作流下一节点不唯一".toList)
  else .ok (found.head?.map WorkflowEdge.target)

structure WorkflowRunDetails where
  run : WorkflowRunRecord
  nodeRuns : List WorkflowNodeRun
  events : List (Text × Value)

/-- `require_run`. -/
def requireRun : RunProcess WorkflowRunDetails :=
  Process.read fun s =>
    match s.tables.run with
    | some run => .ok { run := run, nodeRuns := s.tables.nodeRuns, events := s.tables.events }
    | none => .error (.database "RowNotFound".toList)

def duration : RunProcess (Fin (2 ^ 64)) := ExceptT.lift (Process.query RunQuestion.duration)

/-- `finish_run`. -/
def finishRunWith (context : RunContext) (finish : FinishWorkflowRun) : RunProcess Unit := do
  transact (finishRun finish)
  emit (.runStatusChanged context.runId finish.status finish.errorMessage)
  let durationMs ← duration
  emit (.finished context.runId finish.status durationMs)

/-- `record_skipped`. -/
def recordSkipped (context : RunContext) (visited : List Uuid) :
    List (WorkflowNode Uuid) → RunProcess Unit
  | [] => pure ()
  | node :: rest =>
      if visited.contains node.id then recordSkipped context visited rest
      else do
        let attempt ← transactAttempt (recordSkippedNode node.id)
        emit (.nodeStatusChanged context.runId node.id attempt .skipped none
          (some "未选择该分支".toList))
        recordSkipped context visited rest

/-- The run status for the status of the node it ends at. -/
def endStatus : WorkflowNodeStatus → WorkflowRunStatus
  | .failed => .paused
  | .cancelled => .cancelled
  | .uncertain => .uncertain
  | _ => .paused

/-- `cancel.is_cancelled()` before a node. -/
def poll (nodeId : Uuid) : RunProcess Bool :=
  Process.atomic fun s => (.ok (isCancelled s), note (.polled nodeId (isCancelled s)) s)

def bodyOf (context : RunContext) (node : WorkflowNode Uuid) (attempt : Attempt)
    (contexts : Contexts) : PlainProcess StepOutcome := do
  Process.atomic fun s => ((), note (.began node.id) s)
  let outcome ← executeNode context.runId node.id attempt contexts node.config
  Process.atomic fun s => (outcome, note (.ended node.id outcome.status) s)

def linkExecution (nodeId : Uuid) (attempt : Attempt) : Option Uuid → RunProcess Unit
  | some executionId => transact (linkNodeExecution nodeId attempt executionId)
  | none => pure ()

def emitCondition (context : RunContext) (nodeId : Uuid) : Option Bool → RunProcess Unit
  | some result => emit (.conditionEvaluated context.runId nodeId result)
  | none => pure ()

/-- The row that a node is finished with. -/
def finishOf (nodeId : Uuid) (attempt : Attempt) (outcome : StepOutcome) : FinishWorkflowNode :=
  { nodeId := nodeId, attempt := attempt.val, status := outcome.status,
    exitCode := outcome.exitCode, result := outcome.result,
    outputSummary := outcome.outputSummary, errorMessage := outcome.errorMessage,
    retryable := outcome.retryable }

/-- What a node leaves for conditions. -/
def contextOf (outcome : StepOutcome) : ConditionContext :=
  { exitCode := outcome.exitCode, result := outcome.result,
    outputSummary := outcome.outputSummary }

def insertContext (contexts : Contexts) (nodeId : Uuid) (outcome : StepOutcome) : Contexts :=
  fun id => if id = nodeId then some (contextOf outcome) else contexts id

/-- What one turn of the loop leads to. -/
inductive Turn where
  | ended (details : WorkflowRunDetails)
  | goOn (next : Uuid) (contexts : Contexts) (visited : List Uuid)

/-- The end of a turn, when the outcome of the node has been recorded. -/
def conclude (context : RunContext) (release : RunProcess Unit) (current : Uuid)
    (contexts : Contexts) (visited : List Uuid) (outcome : StepOutcome) : RunProcess Turn :=
  if outcome.status ≠ .succeeded then do
    finishRunWith context
      { status := endStatus outcome.status, errorCategory := outcome.errorCategory,
        errorMessage := outcome.errorMessage, retryable := outcome.retryable }
    release
    let details ← requireRun
    pure (.ended details)
  else do
    emitCondition context current outcome.conditionResult
    match ← ofResult (nextNode context.definition.edges current outcome.conditionResult) with
    | some next => pure (.goOn next (insertContext contexts current outcome) visited)
    | none => do
        recordSkipped context visited context.definition.nodes
        finishRunWith context
          { status := .succeeded, errorCategory := none, errorMessage := none, retryable := false }
        release
        let details ← requireRun
        pure (.ended details)

/-- One turn of the loops of `run` and `continue_retry`.  Only the loop of `run` has
something to `release` before it returns. -/
def turn (context : RunContext) (release : RunProcess Unit) (current : Uuid)
    (contexts : Contexts) (visited : List Uuid) : RunProcess Turn := do
  transact (setCurrentNode current)
  match context.definition.nodes.find? fun node => node.id == current with
  | none => throw (.validation "工作流节点不存在".toList)
  | some node => do
      let attempt ← transactAttempt (startNodeAttempt current)
      emit (.nodeStarted context.runId current attempt)
      let outcome ←
        if ← poll current then pure cancelledOutcome
        else ExceptT.lift (bodyOf context node attempt contexts)
      linkExecution current attempt outcome.executionId
      transact (finishNode (finishOf current attempt outcome))
      emit (.nodeStatusChanged context.runId current attempt outcome.status outcome.executionId
        outcome.errorMessage)
      conclude context release current contexts (current :: visited) outcome

/-- The loop; `none` if the fuel runs out. -/
def turns (context : RunContext) (release : RunProcess Unit) :
    Nat → Uuid → Contexts → List Uuid → RunProcess (Option WorkflowRunDetails)
  | 0, _, _, _ => pure none
  | fuel + 1, current, contexts, visited => do
      match ← turn context release current contexts visited with
      | .ended details => pure (some details)
      | .goOn next contexts visited => turns context release fuel next contexts visited

/-! ## §7. The drivers. -/

structure StartWorkflowRunRequest where
  serverId : Text
  dangerousConfirmed : Bool

/-- `requires_dangerous_confirmation`. -/
def requiresDangerousConfirmation (catalog : List TaskDefinition)
    (definition : WorkflowDefinition) : Bool :=
  definition.nodes.any fun node =>
    match node.config with
    | .custom _ _ _ => true
    | .upload _ _ overwrite _ => overwrite
    | .task taskId _ _ =>
        (catalog.find? fun task => task.id == taskId).any fun task =>
          task.riskLevel == .dangerous
    | _ => false

/-- `has_remote_nodes`. -/
def hasRemoteNodes (definition : WorkflowDefinition) : Bool :=
  definition.nodes.any fun node =>
    match node.config with
    | .task _ _ _ | .custom _ _ _ | .upload _ _ _ _ | .download _ _ _
    | .logSearch _ _ _ _ _ _ _ => true
    | .start | .condition _ _ | .stop _ => false

section Drivers

variable [UuidCrate] (catalog : List TaskDefinition) (pathIsAbsolute : Text → Bool)

/-- `require_trusted_server`. -/
def requireTrustedServer (serverId : Text) : RunProcess Unit :=
  Process.query (RunQuestion.requireTrustedServer serverId)

/-- `connect`, and `select_implementation` for every task. -/
def connect (serverId : Text) : RunProcess Unit := Process.query (RunQuestion.connect serverId)

/-- `preflight`, with the version that is stored. -/
def preflight (stored : Option WorkflowDefinition) (request : StartWorkflowRunRequest) :
    RunProcess WorkflowDefinition :=
  if isBlankText request.serverId then throw (.validation "必须选择服务器".toList)
  else
    match stored with
    | none => throw (.validation "工作流或指定版本不存在".toList)
    | some definition => do
        ofResult (requireValidWorkflow catalog pathIsAbsolute definition.draft)
        requireTrustedServer request.serverId
        if requiresDangerousConfirmation catalog definition && !request.dangerousConfirmed then
          throw (.validation "工作流包含危险步骤，必须二次确认".toList)
        else if hasRemoteNodes definition then do
          connect request.serverId
          pure definition
        else pure definition

/-- The identifier that `create_run` draws. -/
def drawId : RunProcess Uuid := ExceptT.lift (Process.query RunQuestion.drawId)

/-- `registry.remove`. -/
def removeRun : RunProcess Unit := Process.atomic fun s => (.ok (), remove s)

/-- `run`. -/
def run (stored : Option WorkflowDefinition) (request : StartWorkflowRunRequest) :
    RunProcess (Option WorkflowRunDetails) := do
  let definition ← preflight catalog pathIsAbsolute stored request
  match definition.nodes.find? isStart with
  | none => throw (.validation "工作流缺少开始节点".toList)
  | some start => do
      let runId ← drawId
      transact (createRun runId definition.id definition.version request.serverId)
      Process.update register
      transact (markRunRunning start.id)
      emit (.runStarted runId definition.id request.serverId)
      turns { definition := definition, runId := runId } removeRun definition.nodes.length
        start.id (fun _ => none) []

/-- `latest_node_runs`. -/
def latestNodeRun (nodeRuns : List WorkflowNodeRun) (nodeId : Uuid) : Option WorkflowNodeRun :=
  (nodeRuns.filter fun row => row.nodeId == nodeId).foldl
    (fun latest row =>
      match latest with
      | some current => if current.attempt < row.attempt then some row else some current
      | none => some row)
    none

/-- The contexts that a retry starts with. -/
def recordedContexts (nodeRuns : List WorkflowNodeRun) : Contexts := fun id =>
  (latestNodeRun nodeRuns id).bind fun row =>
    if row.status = .succeeded then
      some { exitCode := row.exitCode, result := row.result, outputSummary := row.outputSummary }
    else none

/-- The nodes that a retry does not record as skipped. -/
def recordedNodes (nodeRuns : List WorkflowNodeRun) : List Uuid :=
  (nodeRuns.map WorkflowNodeRun.nodeId).filter fun id =>
    (latestNodeRun nodeRuns id).any fun row => row.status == .succeeded || row.status == .skipped

/-- The checks of `retry_failed_node`: the node to go on with. -/
def retryableNode (details : WorkflowRunDetails) : AppResult Uuid :=
  if details.run.status != .paused || !details.run.retryable then
    .error (.validation "只有可重试的暂停工作流才能重试".toList)
  else
    match details.run.currentNodeId with
    | none => .error (.validation "暂停工作流缺少失败节点".toList)
    | some current =>
        match latestNodeRun details.nodeRuns current with
        | none => .error (.validation "暂停工作流缺少失败节点记录".toList)
        | some failed =>
            if failed.status != .failed || !failed.retryable then
              .error (.validation "当前失败节点不可重试".toList)
            else .ok current

/-- What a retry does while the run is registered. -/
def continueRetry (context : RunContext) (details : WorkflowRunDetails) (current : Uuid) :
    RunProcess (Option WorkflowRunDetails) :=
  turns context (pure ()) context.definition.nodes.length current
    (recordedContexts details.nodeRuns) (recordedNodes details.nodeRuns)

/-- `retry_failed_node`. -/
def retryFailedNode (stored : Option WorkflowDefinition) (dangerousConfirmed : Bool) :
    RunProcess (Option WorkflowRunDetails) := do
  let details ← requireRun
  let current ← ofResult (retryableNode details)
  let definition ← preflight catalog pathIsAbsolute stored
    { serverId := details.run.serverId, dangerousConfirmed := dangerousConfirmed }
  transact resumePausedRun
  Process.update register
  emit (.runStatusChanged details.run.id .running (some "正在重试失败节点".toList))
  let result ← ExceptT.lift
    (continueRetry { definition := definition, runId := details.run.id } details current).run
  removeRun
  ofResult result

end Drivers

/-! ## §8. Cancelling. -/

/-- The call of `cancel` in the registry. -/
def setToken (s : RunState) : RunState :=
  match s.active with
  | none => s
  | some _ => note .tokenSet (cancelNow s).2

def cancelExecution (executionId : Uuid) : RunProcess Unit :=
  Process.query (RunQuestion.cancelExecution executionId)

/-- The run has been created and not been finished. -/
def unfinished (s : RunState) : Bool :=
  s.tables.run.any fun run => run.status == .queued || run.status == .running

/-- A call of `cancel` returns. -/
def noteReturn (s : RunState) : RunState :=
  if unfinished s then note .cancelReturned s else s

/-- `WorkflowService::cancel`. -/
def cancel : RunProcess Unit := do
  match ← (Process.atomic fun s => ((cancelNow s).1, setToken s) : RunProcess (Option Uuid)) with
  | some executionId => cancelExecution executionId
  | none => pure ()
  Process.atomic fun s => (.ok (), noteReturn s)

end QingzhouSSH.Services.WorkflowService
