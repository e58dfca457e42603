/-
  QingzhouSSH.Core.Tasks.Planner — the plan of a task on a host.

  The capabilities of a host as the planner reads them, the selection of an
  implementation, the plan with all its steps rendered, and the fixed way a command
  is run with privileges.

  Main results:
    * `planTask_ok` — a plan renders every step of the selected implementation;
    * `elevateFixedCommand_ok` — the commands that may be run with privileges.
-/
import QingzhouSSH.Core.Tasks.Render

namespace QingzhouSSH.Core.Tasks

open QingzhouSSH.Lib

/-! ## §1. Capabilities. -/

inductive RemoteOsFamily where
  | linux
  | bsd
  | windows
  | unknown
  deriving Repr, DecidableEq

def RemoteOsFamily.asStr : RemoteOsFamily → Text
  | .linux => "linux".toList
  | .bsd => "bsd".toList
  | .windows => "windows".toList
  | .unknown => "unknown".toList

/-- `SystemCapabilities`: the fields that planning reads. -/
structure SystemCapabilities where
  platformFamily : RemoteOsFamily
  osId : Text
  osFamily : Text
  packageManager : Option Text
  serviceManager : Text
  commands : List Text
  services : List Text
  containers : List Text
  interfaces : List Text
  deriving Repr, DecidableEq

namespace SystemCapabilities

def hasCommand (capabilities : SystemCapabilities) (command : Text) : Bool :=
  (capabilities.commands.any fun available => eqIgnoreAsciiCase available command)
    || (command == "systemctl".toList && capabilities.serviceManager == "systemd".toList)
    || (command == "service".toList && capabilities.serviceManager == "service".toList)

def hasService (capabilities : SystemCapabilities) (service : Text) : Bool :=
  capabilities.services.any fun available => eqIgnoreAsciiCase available service

def hasContainer (capabilities : SystemCapabilities) (container : Text) : Bool :=
  capabilities.containers.contains container

def hasInterface (capabilities : SystemCapabilities) (name : Text) : Bool :=
  capabilities.interfaces.contains name

/-- The host is of one of these families; no family named means any. -/
def supportsFamily (capabilities : SystemCapabilities) (families : List Text) : Bool :=
  families.isEmpty || families.any fun family =>
    family == capabilities.osFamily || family == capabilities.platformFamily.asStr

def supportsManager (capabilities : SystemCapabilities) (managers : List Text) : Bool :=
  managers.isEmpty || managers.contains capabilities.serviceManager

end SystemCapabilities

/-- `matches_capabilities`. -/
def matchesCapabilities (predicate : CompatibilityPredicate) (capabilities : SystemCapabilities) :
    Bool :=
  capabilities.supportsFamily predicate.osFamilies
    && capabilities.supportsManager predicate.serviceManagers
    && predicate.requiredCommands.all capabilities.hasCommand

/-- `select_implementation`: the first one that fits. -/
def selectImplementation (definition : TaskDefinition) (capabilities : SystemCapabilities) :
    AppResult TaskImplementation :=
  match definition.implementations.find? fun implementation =>
      matchesCapabilities implementation.compatibility capabilities with
  | some implementation => .ok implementation
  | none => .error (.compatibility
      ("任务 ".toList ++ definition.id ++ " 不支持系统 ".toList ++ capabilities.osId
        ++ " (".toList ++ capabilities.osFamily ++ ") 或缺少必要命令".toList))

/-! ## §2. Plans. -/

structure RenderedTaskStep where
  id : Text
  title : Text
  command : Text
  timeoutSeconds : Nat
  outputLimitBytes : Nat
  deriving Repr, DecidableEq

structure PlannedTask where
  definitionId : Text
  definitionVersion : Int
  implementationId : Text
  riskLevel : RiskLevel
  privilege : PrivilegeRequirement
  parameters : ValidatedParameters
  preflightSteps : List RenderedTaskStep
  previewSteps : List RenderedTaskStep
  backupPlan : Option BackupPlan
  executionSteps : List RenderedTaskStep
  verifySteps : List RenderedTaskStep
  rollbackPlan : Option RollbackPlan
  resultParser : ResultParserKind

/-- Whether the value of a discovered kind names something that the probe found;
`none` for every other kind. -/
def discovered (capabilities : SystemCapabilities) (kind : ParameterKind) (value : Value) :
    Option Bool :=
  match kind with
  | .serviceName => some (value.asStr.any capabilities.hasService)
  | .containerName => some (value.asStr.any capabilities.hasContainer)
  | .interfaceName => some (value.asStr.any capabilities.hasInterface)
  | .serviceMultiSelect _ =>
      some (value.asArray.any fun items =>
        items.all fun item => item.asStr.any capabilities.hasService)
  | _ => none

/-- `validate_discovered_targets`. -/
def validateDiscoveredTargets (capabilities : SystemCapabilities)
    (parameters : ValidatedParameters) : List ParameterDefinition → AppResult Unit
  | [] => .ok ()
  | parameter :: rest =>
      match (parameters.get? parameter.name).bind fun p =>
          discovered capabilities parameter.kind p.value with
      | some false =>
          .error (.compatibility
            ("目标 ".toList ++ parameter.label ++ " 未在服务器能力探测结果中发现".toList))
      | _ => validateDiscoveredTargets capabilities parameters rest

def renderStep (implementationId : Text) (parameters : ValidatedParameters) (step : TaskStep) :
    AppResult RenderedTaskStep := do
  let command ← renderTaskStepCommand step implementationId parameters
  .ok { id := step.id, title := step.title, command := command,
        timeoutSeconds := step.timeoutSeconds, outputLimitBytes := step.outputLimitBytes }

/-- `render_steps`. -/
def renderSteps (implementationId : Text) (parameters : ValidatedParameters) :
    List TaskStep → AppResult (List RenderedTaskStep)
  | [] => .ok []
  | step :: rest => do
      let rendered ← renderStep implementationId parameters step
      let others ← renderSteps implementationId parameters rest
      .ok (rendered :: others)

/-- `plan_task`. -/
def planTask [UuidCrate] (definition : TaskDefinition) (capabilities : SystemCapabilities)
    (input : Value) : AppResult PlannedTask := do
  let parameters ← validateParameters definition input
  validateDiscoveredTargets capabilities parameters definition.parameters
  let implementation ← selectImplementation definition capabilities
  let preflightSteps ← renderSteps implementation.id parameters implementation.preflightSteps
  let previewSteps ← renderSteps implementation.id parameters implementation.previewSteps
  let executionSteps ← renderSteps implementation.id parameters implementation.executionSteps
  let verifySteps ← renderSteps implementation.id parameters implementation.verifySteps
  if executionSteps.isEmpty then
    .error (.validation
      ("任务实现 ".toList ++ implementation.id ++ " 没有可执行步骤".toList))
  else
    .ok { definitionId := definition.id, definitionVersion := definition.version,
          implementationId := implementation.id, riskLevel := definition.riskLevel,
          privilege := definition.privilege, parameters := parameters,
          preflightSteps := preflightSteps, previewSteps := previewSteps,
          backupPlan := implementation.backupPlan, executionSteps := executionSteps,
          verifySteps := verifySteps, rollbackPlan := implementation.rollbackPlan,
          resultParser := implementation.resultParser }

/-- Every step is rendered, in order. -/
theorem renderSteps_ok {implementationId : Text} {parameters : ValidatedParameters}
    {steps : List TaskStep} {rendered : List RenderedTaskStep}
    (h : renderSteps implementationId parameters steps = .ok rendered) :
    List.Forall₂ (fun step out => renderTaskStepCommand step implementationId parameters
        = .ok out.command ∧ out.id = step.id ∧ out.title = step.title) steps rendered := by
  induction steps generalizing rendered with
  | nil =>
      rw [← Except.ok.inj h]
      exact .nil
  | cons step steps ih =>
      obtain ⟨first, hfirst, h⟩ := bind_eq_ok.mp h
      obtain ⟨others, hothers, h⟩ := bind_eq_ok.mp h
      obtain ⟨command, hcommand, hfirst⟩ := bind_eq_ok.mp hfirst
      rw [← Except.ok.inj h]
      refine .cons ?_ (ih hothers)
      rw [← Except.ok.inj hfirst]
      exact ⟨hcommand, rfl, rfl⟩

/-- What a plan is made of. -/
structure Planned [UuidCrate] (definition : TaskDefinition) (capabilities : SystemCapabilities)
    (input : Value) (plan : PlannedTask) (implementation : TaskImplementation) : Prop where
  accepted : validateParameters definition input = .ok plan.parameters
  selected : selectImplementation definition capabilities = .ok implementation
  identifier : plan.implementationId = implementation.id
  executionSteps : renderSteps implementation.id plan.parameters implementation.executionSteps
    = .ok plan.executionSteps
  verifySteps : renderSteps implementation.id plan.parameters implementation.verifySteps
    = .ok plan.verifySteps
  nonempty : plan.executionSteps ≠ []
  backupPlan : plan.backupPlan = implementation.backupPlan
  rollbackPlan : plan.rollbackPlan = implementation.rollbackPlan

/-- **A plan has accepted parameters and renders the selected implementation.** -/
theorem planTask_ok [UuidCrate] {definition : TaskDefinition}
    {capabilities : SystemCapabilities} {input : Value} {plan : PlannedTask}
    (h : planTask definition capabilities input = .ok plan) :
    ∃ implementation, Planned definition capabilities input plan implementation := by
  obtain ⟨parameters, haccepted, h⟩ := bind_eq_ok.mp h
  obtain ⟨_, _, h⟩ := bind_eq_ok.mp h
  obtain ⟨implementation, hselected, h⟩ := bind_eq_ok.mp h
  obtain ⟨_, _, h⟩ := bind_eq_ok.mp h
  obtain ⟨_, _, h⟩ := bind_eq_ok.mp h
  obtain ⟨executionSteps, hexecute, h⟩ := bind_eq_ok.mp h
  obtain ⟨verifySteps, hverify, h⟩ := bind_eq_ok.mp h
  split at h
  next => exact absurd h (by simp)
  next hne =>
    refine ⟨implementation, ?_⟩
    rw [← Except.ok.inj h]
    refine ⟨haccepted, hselected, rfl, hexecute, hverify, ?_, rfl, rfl⟩
    intro hnil
    exact hne (List.isEmpty_iff.mpr hnil)

/-! ## §3. Privileges. -/

/-- What `elevate_fixed_command` refuses to find in a command. -/
def forbiddenElevation : List Text :=
  ["sudo -S".toList, "SUDO_ASKPASS".toList, "--stdin".toList]

/-- `elevate_fixed_command`. -/
def elevateFixedCommand (command : Text) (mode : PrivilegeMode) : AppResult Text :=
  if command.isEmpty || command.contains '\x00' then
    .error (.validation "内置提权命令不能为空或包含无效字符".toList)
  else if forbiddenElevation.any fun forbidden => Text.contains command forbidden then
    .error (.security "内置命令包含被禁止的交互式提权方式".toList)
  else
    match mode with
    | .root => .ok command
    | .passwordlessSudo => .ok ("sudo -n -- sh -c ".toList ++ shellQuote command)

/-- `elevate_steps`. -/
def elevateSteps (steps : List RenderedTaskStep) (mode : PrivilegeMode) :
    AppResult (List RenderedTaskStep) :=
  steps.mapM fun step => do
    let command ← elevateFixedCommand step.command mode
    .ok { step with command := command }

/-- A command that may be run with privileges. -/
def Elevatable (command : Text) : Prop :=
  command ≠ [] ∧ '\x00' ∉ command ∧ ∀ forbidden ∈ forbiddenElevation, ¬ forbidden <:+: command

instance (command : Text) : Decidable (Elevatable command) := by
  unfold Elevatable
  infer_instance

/-- **Elevation depends on the command alone, not on the mode.** -/
theorem elevateFixedCommand_ok (command : Text) (mode : PrivilegeMode) :
    (elevateFixedCommand command mode).isOk = true ↔ Elevatable command := by
  unfold elevateFixedCommand Elevatable
  split
  next h =>
    simp only [Bool.or_eq_true, List.isEmpty_iff, List.contains_eq_mem, decide_eq_true_eq] at h
    refine iff_of_false (by simp [Except.isOk, Except.toBool]) ?_
    rintro ⟨hne, hnul, _⟩
    rcases h with h | h
    · exact hne h
    · exact hnul h
  next h =>
    simp only [Bool.or_eq_true, List.isEmpty_iff, List.contains_eq_mem, decide_eq_true_eq,
      not_or] at h
    split
    next hf =>
      refine iff_of_false (by simp [Except.isOk, Except.toBool]) ?_
      rintro ⟨_, _, hall⟩
      obtain ⟨f, hmem, hcontains⟩ := List.any_eq_true.mp hf
      exact hall f hmem (Text.contains_eq_true.mp hcontains)
    next hf =>
      refine iff_of_true ?_ ⟨h.1, h.2, ?_⟩
      · cases mode <;> rfl
      · intro f hmem hinfix
        exact hf (List.any_eq_true.mpr ⟨f, hmem, Text.contains_eq_true.mpr hinfix⟩)

end QingzhouSSH.Core.Tasks
