/-
  QingzhouSSH.Core.Tasks.Availability — whether a host can run a task.

  The implementation that misses least is judged: ready, remediable by installing
  packages of a fixed list, or unsupported.

  Main results:
    * `evaluateTaskAvailability_ready_iff` — ready means that an implementation is
      selected;
    * `availability_agrees_with_selection` — and it is the one that is named;
    * `remediationFor_packages` — a remediation installs packages of the fixed list;
    * `elevatable_fixedInstallCommand` — an install command may be run with privileges.
-/
import Mathlib.Data.List.Destutter
import Mathlib.Data.List.Sort
import Mathlib.Data.List.Sublists
import QingzhouSSH.Core.Tasks.Planner

namespace QingzhouSSH.Core.Tasks

open QingzhouSSH.Lib

/-! ## §1. Packages. -/

inductive PackageManagerKind where
  | apt
  | dnf
  | yum
  deriving Repr, DecidableEq

def PackageManagerKind.tryFrom (value : Text) : AppResult PackageManagerKind :=
  if value = "apt".toList then .ok .apt
  else if value = "dnf".toList then .ok .dnf
  else if value = "yum".toList then .ok .yum
  else .error (.security "包管理器不在内置白名单中".toList)

inductive PackageId where
  | netcatOpenbsd
  | nmapNcat
  | tcpdump
  | lsof
  | sysstat
  | dnsutils
  | bindUtils
  deriving Repr, DecidableEq

def PackageId.asStr : PackageId → Text
  | .netcatOpenbsd => "netcat-openbsd".toList
  | .nmapNcat => "nmap-ncat".toList
  | .tcpdump => "tcpdump".toList
  | .lsof => "lsof".toList
  | .sysstat => "sysstat".toList
  | .dnsutils => "dnsutils".toList
  | .bindUtils => "bind-utils".toList

def packageIds : List PackageId :=
  [.netcatOpenbsd, .nmapNcat, .tcpdump, .lsof, .sysstat, .dnsutils, .bindUtils]

def PackageId.tryFrom (value : Text) : AppResult PackageId :=
  match packageIds.find? fun package => package.asStr == value with
  | some package => .ok package
  | none => .error (.security "软件包不在内置白名单中".toList)

def packageAllowed : PackageManagerKind → PackageId → Bool
  | .apt, package =>
      [PackageId.netcatOpenbsd, .tcpdump, .lsof, .sysstat, .dnsutils].contains package
  | _, package => [PackageId.nmapNcat, .tcpdump, .lsof, .sysstat, .bindUtils].contains package

/-- `sort` and `dedup` of texts. -/
def sortedDistinct (texts : List Text) : List Text :=
  (texts.mergeSort fun s t => decide (s ≤ t)).destutter (· ≠ ·)

/-- `fixed_install_command`. -/
def fixedInstallCommand (packageManager : PackageManagerKind) (packages : List PackageId) :
    AppResult Text :=
  if packages.isEmpty then .error (.validation "没有需要安装的软件包".toList)
  else if packages.any fun package => !packageAllowed packageManager package then
    .error (.security "软件包与服务器包管理器不匹配".toList)
  else
    let names := List.intercalate [' '] (sortedDistinct (packages.map PackageId.asStr))
    match packageManager with
    | .apt => .ok ("apt-get install -y --no-install-recommends ".toList ++ names)
    | .dnf => .ok ("dnf install -y ".toList ++ names)
    | .yum => .ok ("yum install -y ".toList ++ names)

/-- `package_for`. -/
def packageFor (packageManager command : Text) : Option Text :=
  if packageManager = "apt".toList then
    if command = "nc".toList ∨ command = "ncat".toList then some "netcat-openbsd".toList
    else if command = "dig".toList then some "dnsutils".toList
    else common command
  else if packageManager = "dnf".toList ∨ packageManager = "yum".toList then
    if command = "nc".toList ∨ command = "ncat".toList then some "nmap-ncat".toList
    else if command = "dig".toList then some "bind-utils".toList
    else common command
  else none
where
  common (command : Text) : Option Text :=
    if command = "tcpdump".toList then some "tcpdump".toList
    else if command = "lsof".toList then some "lsof".toList
    else if command = "iostat".toList then some "sysstat".toList
    else none

structure TaskRemediationSummary where
  packageManager : Text
  missingCommands : List Text
  packages : List Text
  deriving Repr, DecidableEq

/-- The packages of all commands, unless one has none. -/
def packagesFor (packageManager : Text) : List Text → Option (List Text)
  | [] => some []
  | command :: rest =>
      match packageFor packageManager command, packagesFor packageManager rest with
      | some package, some packages => some (package :: packages)
      | _, _ => none

/-- `remediation_for`. -/
def remediationFor (packageManager : Option Text) (missingCommands : List Text) :
    Option TaskRemediationSummary :=
  if missingCommands.isEmpty then none
  else
    match packageManager with
    | none => none
    | some manager =>
        (packagesFor manager missingCommands).map fun packages =>
          { packageManager := manager, missingCommands := sortedDistinct missingCommands,
            packages := sortedDistinct packages }

/-! ## §2. Availability. -/

inductive TaskAvailabilityState where
  | ready
  | remediable
  | permissionBlocked
  | unsupported
  deriving Repr, DecidableEq

structure TaskAvailabilityEvaluation where
  state : TaskAvailabilityState
  implementationId : Option Text
  summary : Text
  missingCommands : List Text
  blockingCapabilities : List Text
  deriving Repr, DecidableEq

structure ImplementationFit where
  implementation : TaskImplementation
  missingCommands : List Text
  blockingCapabilities : List Text

def ImplementationFit.score (fit : ImplementationFit) : Nat :=
  fit.missingCommands.length + fit.blockingCapabilities.length

/-- `evaluate_implementation`. -/
def evaluateImplementation (implementation : TaskImplementation)
    (capabilities : SystemCapabilities) : ImplementationFit :=
  let predicate := implementation.compatibility
  let family := if capabilities.supportsFamily predicate.osFamilies then []
    else ["系统类型 ".toList ++ capabilities.osFamily ++ " 不在该实现支持范围内".toList]
  let manager := if capabilities.supportsManager predicate.serviceManagers then []
    else ["服务管理器 ".toList ++ capabilities.serviceManager ++ " 不受该实现支持".toList]
  { implementation := implementation,
    missingCommands := sortedDistinct
      (predicate.requiredCommands.filter fun command => !capabilities.hasCommand command),
    blockingCapabilities := family ++ manager }

/-- `min_by_key` on the score: the first of the smallest. -/
def bestFit : List ImplementationFit → Option ImplementationFit
  | [] => none
  | fit :: rest =>
      match bestFit rest with
      | none => some fit
      | some other => if other.score < fit.score then some other else some fit

/-- `unavailable_summary`. -/
def unavailableSummary (missingCommands blockers : List Text) : Text :=
  let parts :=
    (if missingCommands.isEmpty then []
      else ["服务器缺少组件：".toList ++ List.intercalate ['、'] missingCommands])
    ++ (if blockers.isEmpty then [] else [List.intercalate ['；'] blockers])
  if parts.isEmpty then "当前服务器暂不支持该工具".toList else List.intercalate ['；'] parts

/-- `evaluate_task_availability`. -/
def evaluateTaskAvailability (definition : TaskDefinition) (capabilities : SystemCapabilities) :
    TaskAvailabilityEvaluation :=
  match bestFit (definition.implementations.map (evaluateImplementation · capabilities)) with
  | none =>
      { state := .unsupported, implementationId := none,
        summary := "该工具尚未提供可执行实现".toList, missingCommands := [],
        blockingCapabilities := ["没有可用实现".toList] }
  | some best =>
      if best.score = 0 then
        { state := .ready, implementationId := some best.implementation.id,
          summary := "当前服务器可以直接运行".toList, missingCommands := [],
          blockingCapabilities := [] }
      else
        let remediation := if best.blockingCapabilities.isEmpty then
            remediationFor capabilities.packageManager best.missingCommands
          else none
        { state := if remediation.isSome then .remediable else .unsupported,
          implementationId := some best.implementation.id,
          summary := match remediation with
            | some r => "缺少组件 ".toList ++ List.intercalate ['、'] r.missingCommands
                ++ "，确认后可通过 ".toList ++ r.packageManager ++ " 安装 ".toList
                ++ List.intercalate ['、'] r.packages
            | none => unavailableSummary best.missingCommands best.blockingCapabilities,
          missingCommands := best.missingCommands,
          blockingCapabilities := best.blockingCapabilities }

/-! ## §3. What an evaluation says. -/

theorem mem_sortedDistinct {t : Text} {texts : List Text} :
    t ∈ sortedDistinct texts → t ∈ texts := by
  intro h
  exact List.mem_mergeSort.mp ((List.destutter_sublist _ _).subset h)

/-- Of neighbours that are equal, one is kept. -/
theorem mem_destutter' {t a : Text} {texts : List Text} (h : t ∈ a :: texts) :
    t ∈ texts.destutter' (· ≠ ·) a := by
  induction texts generalizing a with
  | nil => simpa using h
  | cons b texts ih =>
      rw [List.destutter'_cons]
      by_cases hab : a ≠ b
      · rw [if_pos hab]
        rcases List.mem_cons.mp h with rfl | h
        · exact List.mem_cons_self
        · exact List.mem_cons_of_mem a (ih h)
      · rw [if_neg hab]
        have heq : a = b := not_ne_iff.mp hab
        subst heq
        rcases List.mem_cons.mp h with rfl | h
        · exact ih List.mem_cons_self
        · exact ih h

/-- `sort` and `dedup` keep every text. -/
theorem mem_sortedDistinct_of_mem {t : Text} {texts : List Text} (h : t ∈ texts) :
    t ∈ sortedDistinct texts := by
  have hsorted : t ∈ texts.mergeSort fun s t => decide (s ≤ t) := List.mem_mergeSort.mpr h
  unfold sortedDistinct
  cases hcase : texts.mergeSort fun s t => decide (s ≤ t) with
  | nil =>
      rw [hcase] at hsorted
      exact absurd hsorted List.not_mem_nil
  | cons a rest =>
      rw [hcase] at hsorted
      exact mem_destutter' hsorted

theorem sortedDistinct_eq_nil {texts : List Text} : sortedDistinct texts = [] ↔ texts = [] := by
  rw [sortedDistinct, List.destutter_eq_nil, ← List.length_eq_zero_iff, List.length_mergeSort,
    List.length_eq_zero_iff]

/-- What `sort` and `dedup` leave ascends. -/
theorem sortedDistinct_ascend (texts : List Text) :
    (sortedDistinct texts).Pairwise (· < ·) := by
  let sorted := texts.mergeSort fun s t => decide (s ≤ t)
  have hle : (sortedDistinct texts).Pairwise (· ≤ ·) :=
    (List.pairwise_mergeSort' (· ≤ ·) texts).sublist (List.destutter_sublist _ sorted)
  have hne : (sortedDistinct texts).IsChain (· ≠ ·) := List.isChain_destutter _ sorted
  rw [← List.isChain_iff_pairwise, List.isChain_iff_getElem] at *
  exact fun i hi => lt_of_le_of_ne (hle i hi) (hne i hi)

/-- The names that a package manager may install, in order. -/
def allowedNames : PackageManagerKind → List Text
  | .apt => ["dnsutils".toList, "lsof".toList, "netcat-openbsd".toList, "sysstat".toList,
      "tcpdump".toList]
  | _ => ["bind-utils".toList, "lsof".toList, "nmap-ncat".toList, "sysstat".toList,
      "tcpdump".toList]

theorem packageFor_allowed {manager command name : Text}
    (h : packageFor manager command = some name) :
    ∃ kind, PackageManagerKind.tryFrom manager = .ok kind ∧ name ∈ allowedNames kind := by
  unfold packageFor packageFor.common at h
  unfold PackageManagerKind.tryFrom
  have hnames : ∀ kind, ∀ name' ∈ allowedNames kind, name' = name → name ∈ allowedNames kind :=
    fun kind name' hname' heq => heq ▸ hname'
  by_cases hapt : manager = "apt".toList
  · rw [if_pos hapt] at h ⊢
    refine ⟨.apt, rfl, ?_⟩
    repeat' split at h
    all_goals first | exact hnames .apt _ (by decide) (Option.some.inj h) | cases h
  rw [if_neg hapt] at h ⊢
  by_cases hdnf : manager = "dnf".toList
  · rw [if_pos (.inl hdnf)] at h
    rw [if_pos hdnf]
    refine ⟨.dnf, rfl, ?_⟩
    repeat' split at h
    all_goals first | exact hnames .dnf _ (by decide) (Option.some.inj h) | cases h
  rw [if_neg hdnf]
  by_cases hyum : manager = "yum".toList
  · rw [if_pos (.inr hyum)] at h
    rw [if_pos hyum]
    refine ⟨.yum, rfl, ?_⟩
    repeat' split at h
    all_goals first | exact hnames .yum _ (by decide) (Option.some.inj h) | cases h
  · rw [if_neg (not_or.mpr ⟨hdnf, hyum⟩)] at h
    cases h

theorem packagesFor_some {manager : Text} {commands packages : List Text}
    (h : packagesFor manager commands = some packages) :
    packages.length = commands.length
      ∧ ∀ name ∈ packages, ∃ command, packageFor manager command = some name := by
  induction commands generalizing packages with
  | nil =>
      obtain rfl := Option.some.inj h
      exact ⟨rfl, fun name hname => absurd hname List.not_mem_nil⟩
  | cons command rest ih =>
      rw [packagesFor] at h
      split at h
      next package others hpackage hothers =>
        obtain rfl := Option.some.inj h
        obtain ⟨hlength, hnames⟩ := ih hothers
        refine ⟨by rw [List.length_cons, List.length_cons, hlength], ?_⟩
        intro name hname
        rcases List.mem_cons.mp hname with rfl | hname
        · exact ⟨command, hpackage⟩
        · exact hnames name hname
      next => exact absurd h (by simp)

/-- **A remediation names packages that its package manager may install, and at
least one.** -/
theorem remediationFor_packages {manager : Option Text} {commands : List Text}
    {remediation : TaskRemediationSummary} (h : remediationFor manager commands = some remediation) :
    remediation.packages ≠ [] ∧ ∀ name ∈ remediation.packages,
      ∃ kind, PackageManagerKind.tryFrom remediation.packageManager = .ok kind
        ∧ name ∈ allowedNames kind := by
  unfold remediationFor at h
  split at h
  next => exact absurd h (by simp)
  next hne =>
    cases manager with
    | none => exact absurd h (by simp)
    | some m =>
        obtain ⟨packages, hpackages, rfl⟩ := Option.map_eq_some_iff.mp h
        obtain ⟨hlength, hnames⟩ := packagesFor_some hpackages
        refine ⟨?_, fun name hname => ?_⟩
        · intro hnil
          rw [sortedDistinct_eq_nil.mp hnil, List.length_nil] at hlength
          exact hne (List.isEmpty_iff.mpr (List.length_eq_zero_iff.mp hlength.symm))
        · obtain ⟨command, hcommand⟩ := hnames name (mem_sortedDistinct hname)
          exact packageFor_allowed hcommand

theorem mem_allowedNames {kind : PackageManagerKind} {package : PackageId}
    (h : packageAllowed kind package = true) : package.asStr ∈ allowedNames kind := by
  revert h
  cases kind <;> cases package <;> decide

/-- Every choice of allowed packages. -/
theorem elevatable_installs (kind : PackageManagerKind) : ∀ names ∈ (allowedNames kind).sublists,
    ∀ head ∈ ["apt-get install -y --no-install-recommends ".toList, "dnf install -y ".toList,
      "yum install -y ".toList], Elevatable (head ++ List.intercalate [' '] names) := by
  cases kind <;> decide +kernel

/-- **An install command is never refused on the way to root.** -/
theorem elevatable_fixedInstallCommand {kind : PackageManagerKind} {packages : List PackageId}
    {command : Text} (h : fixedInstallCommand kind packages = .ok command) :
    Elevatable command := by
  unfold fixedInstallCommand at h
  split at h
  next => exact absurd h (by simp)
  split at h
  next => exact absurd h (by simp)
  next hallowed =>
    -- the names ascend and are all allowed, so they are one of the enumerated choices
    have hsorted := sortedDistinct_ascend (packages.map PackageId.asStr)
    have hsubset : sortedDistinct (packages.map PackageId.asStr) ⊆ allowedNames kind := by
      intro name hname
      obtain ⟨package, hpackage, rfl⟩ := List.mem_map.mp (mem_sortedDistinct hname)
      refine mem_allowedNames ?_
      by_contra hbad
      exact hallowed (List.any_eq_true.mpr ⟨package, hpackage, by simp [hbad]⟩)
    have hchoice : (sortedDistinct (packages.map PackageId.asStr)).Sublist (allowedNames kind) := by
      refine List.sublist_of_subperm_of_pairwise (r := (· < ·)) ?_ hsorted ?_
      · exact List.subperm_of_subset (hsorted.imp ne_of_lt) hsubset
      · cases kind <;> decide
    have hall := elevatable_installs kind _ (List.mem_sublists.mpr hchoice)
    cases kind with
    | apt =>
        rw [← Except.ok.inj h]
        exact hall _ (by simp)
    | dnf =>
        rw [← Except.ok.inj h]
        exact hall _ (by simp)
    | yum =>
        rw [← Except.ok.inj h]
        exact hall _ (by simp)

/-- An implementation that misses nothing is one that matches. -/
theorem score_eq_zero_iff (implementation : TaskImplementation)
    (capabilities : SystemCapabilities) :
    (evaluateImplementation implementation capabilities).score = 0
      ↔ matchesCapabilities implementation.compatibility capabilities = true := by
  unfold ImplementationFit.score evaluateImplementation matchesCapabilities
  rw [Nat.add_eq_zero_iff, List.length_eq_zero_iff, List.length_eq_zero_iff,
    sortedDistinct_eq_nil, List.append_eq_nil_iff, List.filter_eq_nil_iff]
  simp only [Bool.and_eq_true, List.all_eq_true, Bool.not_eq_true', Bool.not_eq_false,
    ite_eq_left_iff, List.cons_ne_self, imp_false, Bool.not_eq_true]
  tauto

theorem bestFit_mem {fits : List ImplementationFit} {best : ImplementationFit}
    (h : bestFit fits = some best) : best ∈ fits ∧ ∀ fit ∈ fits, best.score ≤ fit.score := by
  induction fits generalizing best with
  | nil => exact absurd h (by simp [bestFit])
  | cons fit rest ih =>
      rw [bestFit] at h
      cases hrest : bestFit rest with
      | none =>
          rw [hrest] at h
          obtain rfl := Option.some.inj h
          -- only an empty list has no best element
          cases rest with
          | nil => simp
          | cons other rest =>
              rw [bestFit] at hrest
              split at hrest
              next => exact absurd hrest (by simp)
              next => split at hrest <;> exact absurd hrest (by simp)
      | some other =>
          obtain ⟨hmem, hleast⟩ := ih hrest
          rw [hrest] at h
          simp only at h
          split at h
          next hlt =>
            obtain rfl := Option.some.inj h
            refine ⟨List.mem_cons_of_mem _ hmem, ?_⟩
            intro f hf
            rcases List.mem_cons.mp hf with rfl | hf
            · omega
            · exact hleast f hf
          next hge =>
            obtain rfl := Option.some.inj h
            refine ⟨List.mem_cons_self, ?_⟩
            intro f hf
            rcases List.mem_cons.mp hf with rfl | hf
            · omega
            · have := hleast f hf
              omega

/-- **A task is ready exactly on the hosts for which an implementation is selected.** -/
theorem evaluateTaskAvailability_ready_iff (definition : TaskDefinition)
    (capabilities : SystemCapabilities) :
    (evaluateTaskAvailability definition capabilities).state = .ready
      ↔ ∃ implementation, selectImplementation definition capabilities = .ok implementation := by
  have hselected : (∃ implementation,
      selectImplementation definition capabilities = .ok implementation)
      ↔ ∃ i ∈ definition.implementations,
        matchesCapabilities i.compatibility capabilities = true := by
    unfold selectImplementation
    split
    next i hfound =>
      exact iff_of_true ⟨i, rfl⟩ ⟨i, List.mem_of_find?_eq_some hfound, by
        simpa using List.find?_some hfound⟩
    next hnone =>
      refine iff_of_false (by simp) ?_
      rintro ⟨i, hi, hmatch⟩
      exact List.find?_eq_none.mp hnone i hi hmatch
  rw [hselected]
  unfold evaluateTaskAvailability
  cases hbest : bestFit (definition.implementations.map (evaluateImplementation · capabilities)) with
  | none =>
      refine iff_of_false (by simp) ?_
      rintro ⟨i, hi, _⟩
      cases himpl : definition.implementations with
      | nil => rw [himpl] at hi; exact absurd hi List.not_mem_nil
      | cons j rest =>
          rw [himpl, List.map_cons, bestFit] at hbest
          split at hbest
          next => exact absurd hbest (by simp)
          next => split at hbest <;> exact absurd hbest (by simp)
  | some best =>
      obtain ⟨hmem, hleast⟩ := bestFit_mem hbest
      obtain ⟨i, hi, rfl⟩ := List.mem_map.mp hmem
      by_cases hzero : (evaluateImplementation i capabilities).score = 0
      · refine iff_of_true (by simp only [if_pos hzero]) ⟨i, hi, ?_⟩
        exact (score_eq_zero_iff i capabilities).mp hzero
      · refine iff_of_false ?_ ?_
        · dsimp only
          rw [if_neg hzero]
          have hstate : ∀ b : Bool,
              (if b = true then TaskAvailabilityState.remediable else .unsupported) ≠ .ready := by
            decide
          exact hstate _
        · rintro ⟨j, hj, hmatch⟩
          have hj0 := (score_eq_zero_iff j capabilities).mpr hmatch
          have := hleast _ (List.mem_map.mpr ⟨j, hj, rfl⟩)
          omega

/-! ## §4. Availability and selection. -/

/-- Of the fits that miss nothing, the first is the best. -/
theorem bestFit_of_find {fits : List ImplementationFit} {first : ImplementationFit}
    (h : fits.find? (fun fit => fit.score == 0) = some first) : bestFit fits = some first := by
  induction fits with
  | nil => simp at h
  | cons fit rest ih =>
      rw [bestFit]
      by_cases hzero : fit.score = 0
      · -- nothing is below zero: a later fit does not take its place
        rw [List.find?_cons_of_pos (by simpa using hzero)] at h
        obtain rfl := Option.some.inj h
        cases bestFit rest with
        | none => rfl
        | some other => simp [hzero]
      · rw [List.find?_cons_of_neg (by simpa using hzero)] at h
        have hfirst : first.score = 0 := by simpa using List.find?_some h
        rw [ih h]
        have hlt : first.score < fit.score := by omega
        simp [hlt]

/-- The fit of the selected implementation is the first that misses nothing. -/
theorem bestFit_of_select {definition : TaskDefinition} {capabilities : SystemCapabilities}
    {selected : TaskImplementation}
    (h : selectImplementation definition capabilities = .ok selected) :
    bestFit (definition.implementations.map (evaluateImplementation · capabilities))
        = some (evaluateImplementation selected capabilities)
      ∧ (evaluateImplementation selected capabilities).score = 0 := by
  have hpredicate : (fun implementation =>
      (evaluateImplementation implementation capabilities).score == 0)
      = fun implementation => matchesCapabilities implementation.compatibility capabilities := by
    funext implementation
    apply Bool.eq_iff_iff.mpr
    rw [beq_iff_eq]
    exact score_eq_zero_iff implementation capabilities
  have hfound : definition.implementations.find? (fun implementation =>
      (evaluateImplementation implementation capabilities).score == 0) = some selected := by
    rw [hpredicate]
    unfold selectImplementation at h
    split at h
    next implementation hfind =>
      rw [hfind, Except.ok.inj h]
    next => simp at h
  constructor
  · apply bestFit_of_find
    rw [List.find?_map]
    show Option.map _ (definition.implementations.find? fun implementation =>
      (evaluateImplementation implementation capabilities).score == 0) = _
    rw [hfound]
    rfl
  · simpa using List.find?_some hfound

/-- **A task is ready exactly when selection finds an implementation, and then it is that
implementation that is judged and named.** -/
theorem availability_agrees_with_selection (definition : TaskDefinition)
    (capabilities : SystemCapabilities) :
    match selectImplementation definition capabilities with
    | .ok selected =>
        (evaluateTaskAvailability definition capabilities).state = .ready
          ∧ (evaluateTaskAvailability definition capabilities).implementationId = some selected.id
          ∧ bestFit (definition.implementations.map (evaluateImplementation · capabilities))
            = some (evaluateImplementation selected capabilities)
    | .error _ => (evaluateTaskAvailability definition capabilities).state ≠ .ready := by
  cases hselect : selectImplementation definition capabilities with
  | ok selected =>
      obtain ⟨hbest, hzero⟩ := bestFit_of_select hselect
      show _ ∧ _ ∧ _
      unfold evaluateTaskAvailability
      rw [hbest]
      dsimp only
      rw [if_pos hzero]
      exact ⟨rfl, rfl, rfl⟩
  | error refusal =>
      show _ ≠ _
      intro hready
      obtain ⟨selected, hok⟩ :=
        (evaluateTaskAvailability_ready_iff definition capabilities).mp hready
      rw [hselect] at hok
      cases hok

end QingzhouSSH.Core.Tasks
