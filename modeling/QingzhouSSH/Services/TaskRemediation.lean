/-
  QingzhouSSH.Services.TaskRemediation — installing what a task misses.

  A preview binds a server, a task and a list of packages to a token that is used
  once.  The confirmation evaluates the host again and hands a fixed command to the
  execution service.

  Main results:
    * `confirm_never_recorded` — no confirmation gets an execution record;
    * `preview_confirmed_once` — over any calls, a token is used once, in time, for the binding
      it was issued for;
    * `offered_installs` — what is offered can be installed with privileges.
-/
import QingzhouSSH.Core.Tasks.Availability
import QingzhouSSH.Core.Tasks.Catalog
import QingzhouSSH.Lib.History
import QingzhouSSH.Services.ExecutionService

namespace QingzhouSSH.Services.TaskRemediation

open QingzhouSSH.Core.Tasks
open QingzhouSSH.Lib
open QingzhouSSH.Repositories.ExecutionRepository
open QingzhouSSH.Services.ExecutionService

/-! ## §1. Bindings. -/

structure RemediationBinding where
  serverId : Text
  taskId : Text
  implementationId : Text
  missingCommands : List Text
  packages : List Text
  packageManager : Text
  privilegeMode : PrivilegeMode
  deriving DecidableEq

/-- `find_task`. -/
def findTask (catalog : List TaskDefinition) (taskId : Text) : AppResult TaskDefinition :=
  match catalog.find? fun definition => definition.id == taskId with
  | some definition => .ok definition
  | none => .error (.validation "要补齐组件的工具不存在".toList)

/-- `binding_for`. -/
def bindingFor (catalog : List TaskDefinition) (serverId taskId : Text)
    (capabilities : SystemCapabilities) (privilegeMode : PrivilegeMode) :
    AppResult RemediationBinding := do
  let definition ← findTask catalog taskId
  let evaluation := evaluateTaskAvailability definition capabilities
  if evaluation.state ≠ .remediable then .error (.validation evaluation.summary)
  else
    match remediationFor capabilities.packageManager evaluation.missingCommands with
    | none => .error (.security "缺失组件不在固定补齐白名单中".toList)
    | some remediation =>
        match evaluation.implementationId with
        | none => .error (.compatibility "工具没有可补齐的实现".toList)
        | some implementationId =>
            .ok { serverId := serverId, taskId := taskId, implementationId := implementationId,
                  missingCommands := remediation.missingCommands,
                  packages := remediation.packages,
                  packageManager := remediation.packageManager, privilegeMode := privilegeMode }

/-- `command_for_binding`. -/
def commandForBinding (binding : RemediationBinding) : AppResult Text := do
  let manager ← PackageManagerKind.tryFrom binding.packageManager
  let packages ← binding.packages.mapM PackageId.tryFrom
  fixedInstallCommand manager packages

/-- `ensure_same_binding`: everything but the privileges. -/
def ensureSameBinding (expected current : RemediationBinding) : AppResult Unit :=
  if { expected with privilegeMode := current.privilegeMode } = current then .ok ()
  else .error (.security "服务器能力或组件清单在确认前发生变化，请重新预览".toList)

/-! ## §2. The registry of previews. -/

/-- The identifiers of previews and tokens are fresh numbers. -/
structure StoredRemediationPreview where
  previewId : Nat
  confirmationToken : Nat
  expiresAt : Int
  binding : RemediationBinding

abbrev RemediationPreviewRegistry := List StoredRemediationPreview

def previewTtlMillis : Int := 5 * 60 * 1000

/-- `i64::saturating_add`. -/
def saturatingAdd (a b : Int) : Int := max (-2 ^ 63) (min (2 ^ 63 - 1) (a + b))

/-- `issue`. -/
def issue (registry : RemediationPreviewRegistry) (binding : RemediationBinding)
    (previewId confirmationToken : Nat) (now : Int) : AppResult RemediationPreviewRegistry := do
  let _ ← commandForBinding binding
  .ok ({ previewId := previewId, confirmationToken := confirmationToken,
         expiresAt := saturatingAdd now previewTtlMillis, binding := binding }
    :: registry.filter fun stored => stored.previewId != previewId)

/-- `consume`: an expired preview is removed, and so is the one that is used. -/
def consume (registry : RemediationPreviewRegistry) (previewId confirmationToken : Nat)
    (now : Int) : RemediationPreviewRegistry × AppResult RemediationBinding :=
  match registry.find? fun stored => stored.previewId == previewId with
  | none => (registry, .error (.validation "组件补齐预览不存在或已经使用".toList))
  | some stored =>
      let others := registry.filter fun stored => stored.previewId != previewId
      if stored.expiresAt < now then
        (others, .error (.validation "组件补齐确认已经过期，请重新预览".toList))
      else if stored.confirmationToken ≠ confirmationToken then
        (registry, .error (.security "组件补齐确认令牌无效".toList))
      else (others, .ok stored.binding)

/-- A token that is accepted is that of a preview with this binding, which is in time and goes. -/
theorem consume_ok {registry : RemediationPreviewRegistry} {previewId confirmationToken : Nat}
    {now : Int} {binding : RemediationBinding}
    (h : (consume registry previewId confirmationToken now).2 = .ok binding) :
    (∃ stored ∈ registry, stored.previewId = previewId
        ∧ stored.confirmationToken = confirmationToken ∧ stored.binding = binding
        ∧ now ≤ stored.expiresAt)
      ∧ ∀ left ∈ (consume registry previewId confirmationToken now).1,
        left.previewId ≠ previewId := by
  unfold consume at *
  split at h
  next => cases h
  next stored hfound =>
    dsimp only at *
    split at h
    next => cases h
    next hlive =>
      split at h
      next => cases h
      next htoken =>
        have hid := List.find?_some hfound
        rw [if_neg hlive, if_neg htoken]
        refine ⟨⟨stored, List.mem_of_find?_eq_some hfound, by simpa using hid,
          not_not.mp htoken, Except.ok.inj h, by omega⟩, fun left hleft => ?_⟩
        simpa using (List.mem_filter.mp hleft).2

/-- A confirmation adds nothing. -/
theorem consume_subset (registry : RemediationPreviewRegistry) (previewId token : Nat)
    (now : Int) : (consume registry previewId token now).1 ⊆ registry := by
  unfold consume
  split
  next => exact List.Subset.refl _
  next =>
    dsimp only
    split_ifs
    · exact List.filter_subset_self _
    · exact List.Subset.refl _
    · exact List.filter_subset_self _

/-! ## §3. Confirming. -/

/-- `confirm`, up to the record under which the command would run.  `probe` is what
the host answers on connecting. -/
def confirm (catalog : List TaskDefinition) (registry : RemediationPreviewRegistry)
    (serverId : Text) (previewId confirmationToken : Nat) (now : Int)
    (probe : AppResult (SystemCapabilities × PrivilegeMode)) :
    RemediationPreviewRegistry × AppResult (Text × ExecutionRecord) :=
  let (registry', consumed) := consume registry previewId confirmationToken now
  (registry', do
    let expected ← consumed
    if expected.serverId ≠ serverId then
      .error (.security "确认令牌不属于当前服务器".toList)
    else do
      let (capabilities, privilegeMode) ← probe
      let current ← bindingFor catalog serverId expected.taskId capabilities privilegeMode
      ensureSameBinding expected current
      let installCommand ← commandForBinding current
      let command ← elevateFixedCommand installCommand current.privilegeMode
      let record ← acceptFixedMaintenance serverId current.packageManager current.packages
      .ok (command, record))

/-- **No confirmation of a preview, in any state of the registry and of the host,
gets an execution record.** -/
theorem confirm_never_recorded (catalog : List TaskDefinition)
    (registry : RemediationPreviewRegistry) (serverId : Text) (previewId confirmationToken : Nat)
    (now : Int) (probe : AppResult (SystemCapabilities × PrivilegeMode)) :
    ¬ ∃ accepted, (confirm catalog registry serverId previewId confirmationToken now probe).2
      = .ok accepted := by
  rintro ⟨accepted, h⟩
  unfold confirm at h
  obtain ⟨expected, _, h⟩ := bind_eq_ok.mp h
  split at h
  next => exact absurd h (by simp)
  next =>
    obtain ⟨_, _, h⟩ := bind_eq_ok.mp h
    obtain ⟨current, _, h⟩ := bind_eq_ok.mp h
    obtain ⟨_, _, h⟩ := bind_eq_ok.mp h
    obtain ⟨_, _, h⟩ := bind_eq_ok.mp h
    obtain ⟨_, _, h⟩ := bind_eq_ok.mp h
    obtain ⟨record, hrecord, _⟩ := bind_eq_ok.mp h
    exact acceptFixedMaintenance_error _ _ _ ⟨record, hrecord⟩

/-! ## §4. The registry over time. -/

/-- A preview, up to the binding it is about, or a confirmation. -/
inductive RegistryCall where
  | issue (binding : RemediationBinding) (previewId confirmationToken : Nat) (now : Int)
  | consume (previewId confirmationToken : Nat) (now : Int)

def RegistryCall.perform : RegistryCall → RemediationPreviewRegistry → RemediationPreviewRegistry
  | .issue binding previewId confirmationToken now, registry =>
      (TaskRemediation.issue registry binding previewId confirmationToken now).toOption.getD registry
  | .consume previewId confirmationToken now, registry =>
      (TaskRemediation.consume registry previewId confirmationToken now).1

/-- What a call adds is what it issues, with a command. -/
theorem mem_perform {call : RegistryCall} {registry : RemediationPreviewRegistry}
    {stored : StoredRemediationPreview} (h : stored ∈ call.perform registry) :
    stored ∈ registry ∨ ∃ now,
      call = .issue stored.binding stored.previewId stored.confirmationToken now
        ∧ stored.expiresAt = saturatingAdd now previewTtlMillis
        ∧ ∃ command, commandForBinding stored.binding = .ok command := by
  cases call with
  | consume previewId token now => exact .inl (consume_subset registry previewId token now h)
  | issue binding previewId token now =>
      dsimp only [RegistryCall.perform, issue] at h
      cases hcommand : commandForBinding binding with
      | error e =>
          rw [hcommand] at h
          exact .inl h
      | ok command =>
          rw [hcommand] at h
          rcases List.mem_cons.mp h with rfl | h
          · exact .inr ⟨now, rfl, rfl, command, hcommand⟩
          · exact .inl (List.mem_filter.mp h).1

/-- Every preview in the registry was there before, or has been issued since. -/
theorem mem_replay {initial : RemediationPreviewRegistry} {calls : List RegistryCall}
    {stored : StoredRemediationPreview}
    (h : stored ∈ History.replay RegistryCall.perform initial calls) :
    stored ∈ initial ∨ ∃ now,
      RegistryCall.issue stored.binding stored.previewId stored.confirmationToken now ∈ calls
        ∧ stored.expiresAt = saturatingAdd now previewTtlMillis
        ∧ ∃ command, commandForBinding stored.binding = .ok command := by
  induction calls with
  | nil => exact .inl h
  | cons call calls ih =>
      rcases mem_perform h with h | ⟨now, rfl, hnew⟩
      · rcases ih h with h | ⟨now, hissued, hnew⟩
        · exact .inl h
        · exact .inr ⟨now, List.mem_cons_of_mem call hissued, hnew⟩
      · exact .inr ⟨now, List.mem_cons_self, hnew⟩

/-- **However previews and confirmations follow each other, a confirmation is accepted for what
was previewed under its token, in time, and once.** -/
theorem preview_confirmed_once {calls : List RegistryCall} {previewId confirmationToken : Nat}
    {now : Int} {binding : RemediationBinding}
    (h : (consume (History.replay RegistryCall.perform [] calls) previewId confirmationToken now).2
      = .ok binding) :
    (∃ issued, RegistryCall.issue binding previewId confirmationToken issued ∈ calls
        ∧ now ≤ saturatingAdd issued previewTtlMillis)
      ∧ (∃ command, commandForBinding binding = .ok command
        ∧ ∀ mode, (elevateFixedCommand command mode).isOk = true)
      ∧ ∀ later : List RegistryCall, (∀ b token at_, .issue b previewId token at_ ∉ later) →
        ∀ token at_ other, (consume (History.replay RegistryCall.perform
          (consume (History.replay RegistryCall.perform [] calls) previewId confirmationToken
            now).1 later) previewId token at_).2 ≠ .ok other := by
  obtain ⟨⟨stored, hstored, rfl, rfl, rfl, hlive⟩, hgone⟩ := consume_ok h
  rcases mem_replay hstored with hnone | ⟨issued, hissued, hexpires, command, hcommand⟩
  · cases hnone
  obtain ⟨kind, -, hinstall⟩ := bind_eq_ok.mp hcommand
  obtain ⟨packages, -, hinstall⟩ := bind_eq_ok.mp hinstall
  refine ⟨⟨issued, hissued, hexpires ▸ hlive⟩, ⟨command, hcommand, fun mode =>
    (elevateFixedCommand_ok command mode).mpr (elevatable_fixedInstallCommand hinstall)⟩, ?_⟩
  intro later hlater token at_ other hother
  -- what is confirmed again was left, or has been issued since
  obtain ⟨⟨again, hagain, hid, -⟩, -⟩ := consume_ok hother
  rcases mem_replay hagain with hleft | ⟨now', hissued', -⟩
  · exact hgone again hleft hid
  · exact hlater _ _ _ (hid ▸ hissued')

/-- The package of a probe of ports. -/
def ncBinding : RemediationBinding :=
  { serverId := "web-1".toList, taskId := "network.udp".toList, implementationId := "nc".toList,
    missingCommands := ["nc".toList], packages := ["netcat-openbsd".toList],
    packageManager := "apt".toList, privilegeMode := .root }

/-- A preview that is confirmed at its last moment cannot be confirmed again. -/
theorem nc_confirmed_once :
    (consume (consume (History.replay RegistryCall.perform [] [.issue ncBinding 1 7 0])
      1 7 300000).1 1 7 300000).2 ≠ .ok ncBinding :=
  (@preview_confirmed_once [.issue ncBinding 1 7 0] 1 7 300000 ncBinding (by decide +kernel)).2.2
    [] (fun _ _ _ => List.not_mem_nil) 7 300000 ncBinding

/-! ## §5. What is offered. -/

/-- The names of allowed packages are read as those packages. -/
theorem mapM_tryFrom {kind : PackageManagerKind} {names : List Text}
    (h : ∀ name ∈ names, name ∈ allowedNames kind) :
    ∃ packages, names.mapM PackageId.tryFrom = .ok packages ∧ packages.length = names.length
      ∧ ∀ package ∈ packages, packageAllowed kind package = true := by
  have hread : ∀ name ∈ allowedNames kind, ∃ package, PackageId.tryFrom name = .ok package
      ∧ packageAllowed kind package = true := by
    intro name hname
    cases kind <;> simp only [allowedNames, List.mem_cons, List.not_mem_nil, or_false] at hname <;>
      rcases hname with rfl | rfl | rfl | rfl | rfl <;> exact ⟨_, rfl, rfl⟩
  induction names with
  | nil => exact ⟨[], rfl, rfl, fun _ h => absurd h List.not_mem_nil⟩
  | cons name names ih =>
      obtain ⟨hname, hnames⟩ := List.forall_mem_cons.mp h
      obtain ⟨package, hpackage, hallowed⟩ := hread name hname
      obtain ⟨packages, hpackages, hlength, hall⟩ := ih hnames
      refine ⟨package :: packages, ?_, congrArg (· + 1) hlength,
        List.forall_mem_cons.mpr ⟨hallowed, hall⟩⟩
      rw [List.mapM_cons, hpackage, hpackages]
      rfl

/-- **What is offered can be installed**: the command exists, and may be run with privileges. -/
theorem offered_installs {catalog : List TaskDefinition} {serverId taskId : Text}
    {capabilities : SystemCapabilities} {privilegeMode : PrivilegeMode}
    {binding : RemediationBinding}
    (h : bindingFor catalog serverId taskId capabilities privilegeMode = .ok binding) :
    ∃ command, commandForBinding binding = .ok command
      ∧ ∀ mode, (elevateFixedCommand command mode).isOk = true := by
  have hbinding : ∃ manager commands remediation,
      remediationFor manager commands = some remediation
        ∧ binding.packageManager = remediation.packageManager
        ∧ binding.packages = remediation.packages := by
    unfold bindingFor at h
    obtain ⟨definition, -, h⟩ := bind_eq_ok.mp h
    dsimp only at h
    split at h
    next => cases h
    split at h
    next => cases h
    next remediation hremediation =>
      split at h
      next => cases h
      next => exact ⟨_, _, remediation, hremediation, by rw [← Except.ok.inj h],
        by rw [← Except.ok.inj h]⟩
  obtain ⟨manager, commands, remediation, hremediation, hmanager, hpackages⟩ := hbinding
  -- the manager of the first package is that of all
  obtain ⟨hsome, hnames⟩ := remediationFor_packages hremediation
  obtain ⟨name, hname⟩ := List.exists_mem_of_ne_nil _ hsome
  obtain ⟨kind, hkind, -⟩ := hnames name hname
  obtain ⟨packages, hread, hlength, hallowed⟩ := @mapM_tryFrom kind remediation.packages
    fun name hname => by
      obtain ⟨kind', hkind', hallowed⟩ := hnames name hname
      rw [hkind] at hkind'
      exact Except.ok.inj hkind' ▸ hallowed
  have hne : packages.isEmpty = false := by
    cases packages with
    | nil => exact absurd (List.eq_nil_of_length_eq_zero hlength.symm) hsome
    | cons package packages => rfl
  have hinstall : ∃ command, fixedInstallCommand kind packages = .ok command := by
    unfold fixedInstallCommand
    rw [if_neg (by simp [hne]), if_neg (by simpa using hallowed)]
    cases kind <;> exact ⟨_, rfl⟩
  obtain ⟨command, hcommand⟩ := hinstall
  refine ⟨command, ?_, fun mode => (elevateFixedCommand_ok command mode).mpr
    (elevatable_fixedInstallCommand hcommand)⟩
  unfold commandForBinding
  rw [hmanager, hpackages, hkind]
  show (remediation.packages.mapM PackageId.tryFrom >>= fixedInstallCommand kind) = _
  rw [hread]
  exact hcommand

/-- Without `nc`, it can be installed. -/
theorem nc_installs : ∃ command, commandForBinding ncBinding = .ok command
    ∧ ∀ mode, (elevateFixedCommand command mode).isOk = true :=
  offered_installs (show bindingFor [Catalog.readOnlyTask "network.udp".toList .network [] []
      [Catalog.readOnlyImplementation "nc".toList ["nc".toList] [] .text]] "web-1".toList
    "network.udp".toList (linuxWith []) .root = .ok ncBinding by decide +kernel)

end QingzhouSSH.Services.TaskRemediation
