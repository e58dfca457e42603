/-
  QingzhouSSH.Core.Workflows.Validation — accepting a workflow.

  `validateWorkflow` collects diagnostics about the graph and about each node; a
  draft is accepted when there are none.

  Main results:
    * `taskNode_accepted` — what acceptance says about a task node.
-/
import QingzhouSSH.Core.Tasks.Parameters
import QingzhouSSH.Domain.Workflow

namespace QingzhouSSH.Core.Workflows

open String (utf8Len)
open QingzhouSSH.Lib
open QingzhouSSH.Domain
open QingzhouSSH.Core.Tasks

/-! ## §1. Diagnostics. -/

inductive WorkflowDiagnosticCode where
  | graphLimit
  | duplicateNode
  | startCount
  | startEdges
  | stopEdges
  | missingNode
  | selfEdge
  | duplicateEdge
  | invalidBranch
  | conditionBranches
  | cycle
  | unreachableNode
  | noTerminalPath
  | invalidParameters
  deriving Repr, DecidableEq

structure WorkflowDiagnostic (ι : Type) where
  code : WorkflowDiagnosticCode
  nodeId : Option ι
  message : Text

structure WorkflowValidationReport (ι : Type) where
  valid : Bool
  startNodeId : Option ι
  diagnostics : List (WorkflowDiagnostic ι)

/-- One diagnostic where `bad` holds. -/
def diagnose {ι : Type} (bad : Bool) (code : WorkflowDiagnosticCode) (nodeId : Option ι)
    (message : String) : List (WorkflowDiagnostic ι) :=
  if bad then [{ code := code, nodeId := nodeId, message := message.toList }] else []

/-! ## §2. Nodes. -/

/-- `task_version_is_compatible`: version 1 of the oldest tasks is still accepted. -/
def taskVersionIsCompatible (definition : TaskDefinition) (requestedVersion : Int) : Bool :=
  definition.version == requestedVersion
    || (definition.version == 2 && requestedVersion == 1
      && ["system.overview".toList, "system.disk_usage".toList, "system.process_query".toList,
          "service.status".toList, "service.start".toList, "service.stop".toList,
          "service.restart".toList, "logs.search".toList].contains definition.id)

/-- `validate_result_path`. -/
def validateResultPath (path : Text) : AppResult Unit :=
  if path.isEmpty || 512 < utf8Len path
      || (path.splitOn '.').any fun segment =>
          segment.isEmpty || 64 < utf8Len segment
            || !segment.all fun c => isAsciiAlphanumeric c || c == '_' || c == '-' then
    .error (.validation "条件结果字段路径无效".toList)
  else .ok ()

/-- `validate_condition`. -/
def validateCondition : WorkflowCondition → AppResult Unit
  | .exitCode _ _ => .ok ()
  | .resultField path _ value => do
      validateResultPath path
      match value with
      | .string _ | .int _ | .float _ | .bool _ => .ok ()
      | _ => .error (.validation "条件比较值只能是字符串、数字或布尔值".toList)
  | .outputContains text _ =>
      if text.isEmpty || 512 < utf8Len text || text.contains '\x00' then
        .error (.validation "输出条件文本必须为 1 到 512 字节".toList)
      else .ok ()

/-- `validate_remote_path`. -/
def validateRemotePath (path : Text) : AppResult Unit :=
  let windowsDriveAbsolute := match path with
    | drive :: ':' :: '/' :: _ => isAsciiAlphanumeric drive && !isAsciiDigit drive
    | _ => false
  if path.isEmpty || path.contains '\x00' || path.contains '\\'
      || !(['/'].isPrefixOf path || windowsDriveAbsolute) then
    .error (.validation "远程路径必须是无 NUL、使用正斜杠的 SFTP 绝对路径".toList)
  else if (path.splitOn '/').contains ['.', '.'] then
    .error (.validation "远程路径不能包含上级目录".toList)
  else .ok ()

/-- The check of `download_destination`; `pathIsAbsolute` is the platform's. -/
def validateDownloadName (pathIsAbsolute : Text → Bool) (suggestedName : Text) : AppResult Unit :=
  if suggestedName.isEmpty || suggestedName.contains '\x00' || suggestedName == ['.']
      || suggestedName == ['.', '.'] || suggestedName.contains '/' || suggestedName.contains '\\'
      || pathIsAbsolute suggestedName then
    .error (.validation "下载文件名无效".toList)
  else .ok ()

/-- `valid_time`. -/
def validTime (value : Text) : Bool :=
  !value.isEmpty && utf8Len value ≤ 64
    && value.all fun c =>
      isAsciiDigit c || ['-', ':', '.', '+', 'T', 'Z', ' '].contains c

/-- `LogSearchRequest::validate` of a content search. -/
def validateLogSearch (path keyword : Text) (contextLines limit : Nat)
    (startTime endTime : Option Text) : AppResult Unit :=
  if !path.isEmpty && (!(['/'].isPrefixOf path) || path.contains '\x00'
      || (path.splitOn '/').contains ['.', '.'] || ['/'].isSuffixOf path) then
    .error (.validation "指定日志路径必须是远程文件的绝对路径".toList)
  else if keyword.isEmpty || keyword.contains '\x00' || 512 < utf8Len keyword then
    .error (.validation "日志关键词无效或超过 512 字节".toList)
  else if 20 < contextLines then
    .error (.validation "日志上下文不能超过 20 行".toList)
  else if limit < 1 || 10000 < limit then
    .error (.validation "日志结果上限必须在 1 到 10000 之间".toList)
  else if (startTime.any fun t => !validTime t) || (endTime.any fun t => !validTime t) then
    .error (.validation "日志时间范围格式无效".toList)
  else
    match startTime, endTime with
    | some start, some stop =>
        if stop < start then .error (.validation "日志开始时间不能晚于结束时间".toList)
        else .ok ()
    | _, _ => .ok ()

/-- The match of `validate_node` on the configuration. -/
def validateConfig [UuidCrate] {ι : Type} (catalog : List TaskDefinition)
    (pathIsAbsolute : Text → Bool) : WorkflowNodeConfig ι → AppResult Unit
  | .start => .ok ()
  | .task taskId taskVersion parameters =>
      match catalog.find? fun definition =>
          definition.id == taskId && taskVersionIsCompatible definition taskVersion with
      | none => .error (.validation "工作流任务 ID 或版本不存在".toList)
      | some definition => do
          let _ ← validateParameters definition (.object parameters.entries)
          .ok ()
  | .custom _ content timeoutSeconds =>
      if isBlankText content || content.contains '\x00' || 1024 * 1024 < utf8Len content
          || timeoutSeconds < 1 || 3600 < timeoutSeconds then
        .error (.validation "高级命令或脚本参数无效".toList)
      else .ok ()
  | .upload localPath remotePath overwrite createRestorePoint =>
      if !pathIsAbsolute localPath || localPath.contains '\x00' then
        .error (.validation "上传源必须是绝对本地路径".toList)
      else if createRestorePoint && !overwrite then
        .error (.validation "只有覆盖上传才能创建恢复点".toList)
      else validateRemotePath remotePath
  | .download remotePath suggestedName _ => do
      validateRemotePath remotePath
      validateDownloadName pathIsAbsolute suggestedName
  | .logSearch path keyword _ contextLines limit startTime endTime =>
      validateLogSearch path keyword contextLines limit startTime endTime
  | .condition _ predicate => validateCondition predicate
  | .stop message =>
      if message.isEmpty || 4096 < utf8Len message || message.contains '\x00' then
        .error (.validation "停止提示必须为 1 到 4096 字节".toList)
      else .ok ()

/-- `validate_node`. -/
def validateNode [UuidCrate] {ι : Type} (catalog : List TaskDefinition)
    (pathIsAbsolute : Text → Bool) (node : WorkflowNode ι) : AppResult Unit :=
  if isBlankText node.name || 200 < node.name.length || !node.position.x.isFinite
      || !node.position.y.isFinite then
    .error (.validation "节点名称或位置无效".toList)
  else validateConfig catalog pathIsAbsolute node.config

/-! ## §3. The graph. -/

section Graph

variable {ι : Type} [DecidableEq ι]

/-- The edges that leave a node, in order. -/
def outgoing (edges : List (WorkflowEdge ι)) (id : ι) : List (WorkflowEdge ι) :=
  edges.filter fun edge => edge.source == id

def incoming (edges : List (WorkflowEdge ι)) (id : ι) : List (WorkflowEdge ι) :=
  edges.filter fun edge => edge.target == id

/-- Take the edges of a removed node off the degrees; the targets left without
incoming edges are ready. -/
def dropEdges : List (WorkflowEdge ι) → (ι → Nat) → List ι → (ι → Nat) × List ι
  | [], degree, queue => (degree, queue)
  | edge :: rest, degree, queue =>
      let remaining := degree edge.target - 1
      let degree' := fun id => if id = edge.target then remaining else degree id
      dropEdges rest degree' (if remaining = 0 then queue ++ [edge.target] else queue)

/-- The loop of `has_cycle`, which counts the nodes it removes.  A node enters the
queue once, when its degree becomes zero, so one unit of fuel for a node is enough. -/
def removeReady (edges : List (WorkflowEdge ι)) : Nat → (ι → Nat) → List ι → Nat
  | 0, _, _ => 0
  | _, _, [] => 0
  | fuel + 1, degree, id :: queue =>
      let (degree', queue') := dropEdges (outgoing edges id) degree queue
      1 + removeReady edges fuel degree' queue'

/-- `has_cycle`. -/
def hasCycle (ids : List ι) (edges : List (WorkflowEdge ι)) : Bool :=
  let degree := fun id => (incoming edges id).length
  let ready := ids.dedup.filter fun id => degree id == 0
  removeReady edges ids.dedup.length degree ready != ids.length

/-- The loop of `reachable_from`.  Every entry of the queue is the start or the end
of an edge whose source has just been found, so the edges bound the fuel. -/
def visitAll (edges : List (WorkflowEdge ι)) : Nat → List ι → List ι → List ι
  | 0, _, found => found
  | _, [], found => found
  | fuel + 1, id :: queue, found =>
      if id ∈ found then visitAll edges fuel queue found
      else visitAll edges fuel (queue ++ (outgoing edges id).map WorkflowEdge.target) (id :: found)

/-- `reachable_from`. -/
def reachableFrom (start : ι) (edges : List (WorkflowEdge ι)) : List ι :=
  visitAll edges (edges.length + 1) [start] []

/-- The edges between existing nodes. -/
def knownEdges (ids : List ι) (edges : List (WorkflowEdge ι)) : List (WorkflowEdge ι) :=
  edges.filter fun edge => ids.contains edge.source && ids.contains edge.target

/-- The loop over the edges. -/
def edgeDiagnostics (ids : List ι) :
    List (WorkflowEdge ι) → List (WorkflowEdge ι) → List (WorkflowDiagnostic ι)
  | _, [] => []
  | seen, edge :: rest =>
      if ids.contains edge.source && ids.contains edge.target then
        diagnose (edge.source == edge.target) .selfEdge (some edge.source) "节点不能连接到自身"
          ++ diagnose (seen.contains edge) .duplicateEdge (some edge.source) "存在重复连接"
          ++ edgeDiagnostics ids (edge :: seen) rest
      else
        diagnose true .missingNode (some edge.source) "连接引用了不存在的节点"
          ++ edgeDiagnostics ids seen rest

/-- The degrees that a node's kind asks for. -/
def degreeDiagnostics (ids : List ι) (edges : List (WorkflowEdge ι)) (node : WorkflowNode ι) :
    List (WorkflowDiagnostic ι) :=
  let out := outgoing edges node.id
  let branches := out.map WorkflowEdge.branch
  match node.config with
  | .start =>
      diagnose ((incoming edges node.id).length != 0 || branches != [.success]) .startEdges
        (some node.id) "开始节点必须无入边且只有一条成功出边"
  | .stop _ => diagnose (!out.isEmpty) .stopEdges (some node.id) "停止节点不能有出边"
  | .condition sourceNodeId _ =>
      let distinctTargets := match out with
        | [first, second] => first.target != second.target
        | _ => false
      diagnose (out.length != 2 || branches.count .true != 1 || branches.count .false != 1
          || !distinctTargets) .conditionBranches (some node.id)
          "条件节点必须有目标不同的真、假分支"
        ++ diagnose (!ids.contains sourceNodeId || sourceNodeId == node.id) .invalidParameters
          (some node.id) "条件来源节点无效"
  | _ =>
      diagnose (1 < out.length || branches.head?.any fun branch => branch != .success)
        .invalidBranch (some node.id) "普通节点最多只能有一条成功出边"

/-- A node that may end a run. -/
def isTerminal (edges : List (WorkflowEdge ι)) (node : WorkflowNode ι) : Bool :=
  (outgoing edges node.id).isEmpty
    && match node.config with
      | .start | .condition _ _ => false
      | _ => true

/-- The checks from the only start node. -/
def pathDiagnostics (nodes : List (WorkflowNode ι)) (edges : List (WorkflowEdge ι)) (start : ι) :
    List (WorkflowDiagnostic ι) :=
  let reachable := reachableFrom start edges
  nodes.flatMap (fun node =>
      diagnose (!reachable.contains node.id) .unreachableNode (some node.id)
        "节点无法从开始节点到达")
    ++ diagnose (!nodes.any fun node => reachable.contains node.id && isTerminal edges node)
      .noTerminalPath none "工作流没有可到达的终止路径"

/-! ## §4. The report. -/

/-- The loop over the nodes. -/
def nodeDiagnostics [UuidCrate] (catalog : List TaskDefinition) (pathIsAbsolute : Text → Bool) :
    List ι → List (WorkflowNode ι) → List (WorkflowDiagnostic ι)
  | _, [] => []
  | seen, node :: rest =>
      diagnose (seen.contains node.id) .duplicateNode (some node.id) "节点标识重复"
        ++ (match validateNode catalog pathIsAbsolute node with
          | .ok _ => []
          | .error e =>
              [{ code := .invalidParameters, nodeId := some node.id, message := e.message }])
        ++ nodeDiagnostics catalog pathIsAbsolute (node.id :: seen) rest

def isStart (node : WorkflowNode ι) : Bool :=
  match node.config with
  | .start => true
  | _ => false

/-- The only start node, if there is one. -/
def startNodeId (draft : WorkflowDraft ι) : Option ι :=
  match draft.nodes.filter isStart with
  | [node] => some node.id
  | _ => none

/-- The diagnostics of `validate_workflow`, in order. -/
def diagnostics [UuidCrate] (catalog : List TaskDefinition) (pathIsAbsolute : Text → Bool)
    (draft : WorkflowDraft ι) : List (WorkflowDiagnostic ι) :=
  let ids := draft.nodes.map WorkflowNode.id
  let edges := knownEdges ids draft.edges
  diagnose (100 < draft.nodes.length || 200 < draft.edges.length) .graphLimit none
      "工作流最多允许 100 个节点和 200 条边"
    ++ nodeDiagnostics catalog pathIsAbsolute [] draft.nodes
    ++ diagnose (startNodeId draft).isNone .startCount none "工作流必须且只能包含一个开始节点"
    ++ edgeDiagnostics ids [] draft.edges
    ++ draft.nodes.flatMap (degreeDiagnostics ids edges)
    ++ diagnose (hasCycle ids edges) .cycle none "工作流不允许循环"
    ++ (match startNodeId draft with
      | some start => pathDiagnostics draft.nodes edges start
      | none => [])

/-- `validate_workflow`. -/
def validateWorkflow [UuidCrate] (catalog : List TaskDefinition) (pathIsAbsolute : Text → Bool)
    (draft : WorkflowDraft ι) : WorkflowValidationReport ι :=
  let found := diagnostics catalog pathIsAbsolute draft
  { valid := found.isEmpty, startNodeId := startNodeId draft, diagnostics := found }

/-- `require_valid_workflow`. -/
def requireValidWorkflow [UuidCrate] (catalog : List TaskDefinition)
    (pathIsAbsolute : Text → Bool) (draft : WorkflowDraft ι) : AppResult Unit :=
  let report := validateWorkflow catalog pathIsAbsolute draft
  if report.valid then .ok ()
  else
    match report.diagnostics.head? with
    | some diagnostic => .error (.validation diagnostic.message)
    | none => .error (.validation "工作流校验失败".toList)

/-! ## §5. Accepted nodes. -/

theorem validateNode_of_nodeDiagnostics [UuidCrate] {catalog : List TaskDefinition}
    {pathIsAbsolute : Text → Bool} {seen : List ι} {nodes : List (WorkflowNode ι)}
    (h : nodeDiagnostics catalog pathIsAbsolute seen nodes = []) {node : WorkflowNode ι}
    (hnode : node ∈ nodes) : validateNode catalog pathIsAbsolute node = .ok () := by
  induction nodes generalizing seen with
  | nil => exact absurd hnode List.not_mem_nil
  | cons first rest ih =>
      rw [nodeDiagnostics, List.append_eq_nil_iff, List.append_eq_nil_iff] at h
      obtain ⟨⟨_, hfirst⟩, hrest⟩ := h
      rcases List.mem_cons.mp hnode with rfl | hnode
      · cases hvalid : validateNode catalog pathIsAbsolute node with
        | ok _ => rfl
        | error e =>
            rw [hvalid] at hfirst
            exact absurd hfirst (by simp)
      · exact ih hrest hnode

/-- Every node of an accepted draft passes its own check. -/
theorem validateNode_of_valid [UuidCrate] {catalog : List TaskDefinition}
    {pathIsAbsolute : Text → Bool} {draft : WorkflowDraft ι}
    (h : (validateWorkflow catalog pathIsAbsolute draft).valid = true) {node : WorkflowNode ι}
    (hnode : node ∈ draft.nodes) : validateNode catalog pathIsAbsolute node = .ok () := by
  have hnone : diagnostics catalog pathIsAbsolute draft = [] := List.isEmpty_iff.mp h
  unfold diagnostics at hnone
  simp only [List.append_eq_nil_iff] at hnone
  exact validateNode_of_nodeDiagnostics hnone.1.1.1.1.1.2 hnode

/-- **A task node of an accepted draft names a task of the catalogue in a
compatible version, whose parameters it gives.** -/
theorem taskNode_accepted [UuidCrate] {catalog : List TaskDefinition}
    {pathIsAbsolute : Text → Bool} {draft : WorkflowDraft ι}
    (h : (validateWorkflow catalog pathIsAbsolute draft).valid = true) {node : WorkflowNode ι}
    (hnode : node ∈ draft.nodes) {taskId : Text} {taskVersion : Int}
    {parameters : OrdMap Text Value} (hconfig : node.config = .task taskId taskVersion parameters) :
    ∃ definition ∈ catalog, definition.id = taskId
      ∧ taskVersionIsCompatible definition taskVersion = true
      ∧ ∃ values, validateParameters definition (.object parameters.entries) = .ok values := by
  have hvalid := validateNode_of_valid h hnode
  unfold validateNode at hvalid
  split at hvalid
  next => exact absurd hvalid (by simp)
  next =>
    rw [hconfig, validateConfig] at hvalid
    split at hvalid
    next => exact absurd hvalid (by simp)
    next definition hfound =>
      obtain ⟨values, hvalues, _⟩ := bind_eq_ok.mp hvalid
      have hmatch := List.find?_some hfound
      simp only [Bool.and_eq_true, beq_iff_eq] at hmatch
      exact ⟨definition, List.mem_of_find?_eq_some hfound, hmatch.1, hmatch.2, values, hvalues⟩

end Graph

end QingzhouSSH.Core.Workflows
