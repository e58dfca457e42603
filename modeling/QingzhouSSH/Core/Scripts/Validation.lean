/-
  QingzhouSSH.Core.Scripts.Validation — what a script may be.

  The title, the category and the tags, the parameters with their defaults, and the body,
  which is scanned for commands that deserve a warning.

  Main result: `defaults_scalar` — an accepted default is neither an array nor an object.
-/
import QingzhouSSH.Core.Tasks.OperationResult
import QingzhouSSH.Domain.Script

namespace QingzhouSSH.Core.Scripts

open String (utf8Len)
open QingzhouSSH.Core.Logs (lines)
open QingzhouSSH.Core.Tasks
open QingzhouSSH.Domain
open QingzhouSSH.Lib.Text (contains)

/-! ## §1. Metadata. -/

def maxScriptBodyBytes : Nat := 1024 * 1024

def maxScriptParameters : Nat := 32

/-- `validate_text`. -/
def validateText (value : Text) (min max : Nat) (name : String) : AppResult Unit :=
  if value.length < min || max < value.length || value.contains '\x00' || trim value != value then
    .error (.validation (name.toList ++ "长度或格式无效".toList))
  else .ok ()

/-- The loop over the tags, with those before. -/
def validateTags : List Text → List Text → AppResult Unit
  | _, [] => .ok ()
  | unique, tag :: tags => do
      validateText tag 1 24 "脚本标签"
      if unique.contains tag then .error (.validation "脚本标签不能重复".toList)
      else validateTags (tag :: unique) tags

/-- `validate_script_metadata`. -/
def validateScriptMetadata (title category : Text) (tags : List Text) : AppResult Unit := do
  validateText title 1 80 "脚本标题"
  validateText category 1 40 "脚本分类"
  if 20 < tags.length then .error (.validation "脚本标签不能超过 20 个".toList)
  else validateTags [] tags

/-- `validate_script_body`. -/
def validateScriptBody (body : Text) : AppResult Unit :=
  if body.isEmpty || maxScriptBodyBytes < utf8Len body || body.contains '\x00' then
    .error (.validation "脚本正文必须为 1 字节到 1 MiB 且不能包含 NUL 字符".toList)
  else .ok ()

/-- `validate_script_timeout`. -/
def validateScriptTimeout (timeoutSeconds : Nat) : AppResult Unit :=
  if 1 ≤ timeoutSeconds ∧ timeoutSeconds ≤ 3600 then .ok ()
  else .error (.validation "脚本超时时间必须在 1 到 3600 秒之间".toList)

/-! ## §2. Parameters. -/

def isAsciiUppercase (c : Char) : Bool := 'A' ≤ c && c ≤ 'Z'

/-- `script_parameter_env_name`. -/
def scriptParameterEnvName (name : Text) : AppResult Text :=
  if name.isEmpty || 32 < utf8Len name || "QZ_".toList.isPrefixOf name
      || !(name.head?.any isAsciiUppercase)
      || !name.all fun c => isAsciiUppercase c || isAsciiDigit c || c == '_' then
    .error (.validation "脚本参数名称无效".toList)
  else .ok ("QZ_PARAM_".toList ++ name)

/-- `is_cjk`. -/
def isCjk (c : Char) : Bool := ('\u3400' ≤ c && c ≤ '\u4dbf') || ('\u4e00' ≤ c && c ≤ '\u9fff')

/-- `validate_chinese_label`. -/
def validateChineseLabel (label : Text) : AppResult Unit := do
  validateText label 1 40 "脚本参数名称"
  if label.any isCjk then .ok () else .error (.validation "脚本参数必须提供中文名称".toList)

/-- `validate_parameter_kind`. -/
def validateParameterKind (kind : ParameterKind) : AppResult Unit :=
  let accepted := match kind with
    | .string minLength maxLength _ => decide (minLength ≤ maxLength) && maxLength ≤ 4096
    | .integer min max => decide (min ≤ max)
    | .boolean | .host | .port | .serviceName | .containerName | .absolutePath => true
    | .enum options =>
        !options.isEmpty && options.length ≤ 100
          && options.all fun option =>
            !option.isEmpty && utf8Len option ≤ 256 && !option.contains '\x00'
    | _ => false
  if accepted then .ok () else .error (.validation "个人脚本不支持该参数类型".toList)

/-- `parameter_validation_task`. -/
def parameterValidationTask (parameters : List ParameterDefinition) : TaskDefinition where
  id := "script.personal.validation".toList
  version := 1
  category := .system
  title := "脚本参数校验".toList
  riskLevel := .dangerous
  privilege := .currentUser
  scope := .singleServer
  parameters := parameters
  implementations := []

/-- `validate_parameter_default`. -/
def validateParameterDefault [UuidCrate] (parameter : ScriptParameter) (default : Value) :
    AppResult Unit := do
  let definition := { parameter.toParameterDefinition with required := true, defaultValue := none }
  let _ ← validateParameters (parameterValidationTask [definition])
    (.object [(parameter.name, default)])
  .ok ()

/-- The checks of one parameter. -/
def validateScriptParameter [UuidCrate] (names : List Text) (parameter : ScriptParameter) :
    AppResult Unit := do
  let _ ← scriptParameterEnvName parameter.name
  if names.contains parameter.name then .error (.validation "脚本参数名称不能重复".toList)
  else do
    validateChineseLabel parameter.label
    if 500 < parameter.description.length || parameter.description.contains '\x00' then
      .error (.validation "脚本参数说明超过长度限制".toList)
    else do
      validateParameterKind parameter.kind
      match parameter.defaultValue with
      | none => .ok ()
      | some default => validateParameterDefault parameter default

/-- The loop over the parameters, with the names before. -/
def validateEachParameter [UuidCrate] : List Text → List ScriptParameter → AppResult Unit
  | _, [] => .ok ()
  | names, parameter :: parameters => do
      validateScriptParameter names parameter
      validateEachParameter (parameter.name :: names) parameters

/-- `validate_script_parameters`. -/
def validateScriptParameters [UuidCrate] (parameters : List ScriptParameter) : AppResult Unit :=
  if maxScriptParameters < parameters.length then
    .error (.validation "脚本参数不能超过 32 个".toList)
  else validateEachParameter [] parameters

/-- `validate_script_parameter_values`. -/
def validateScriptParameterValues [UuidCrate] (parameters : List ScriptParameter)
    (input : Value) : AppResult ValidatedParameters := do
  validateScriptParameters parameters
  validateParameters
    (parameterValidationTask (parameters.map ScriptParameter.toParameterDefinition)) input

/-! ## §3. The body. -/

structure ScriptScanWarning where
  code : Text
  message : Text
  lineNumber : Nat
  deriving Repr, DecidableEq

structure ScriptScanSummary where
  lineCount : Nat
  characterCount : Nat
  bodySha256 : Text
  warningCount : Nat
  warnings : List ScriptScanWarning
  deriving Repr, DecidableEq

/-- A line, in lower case, holds one of the texts of each group. -/
def holds (lower : Text) (groups : List (List String)) : Bool :=
  groups.all fun group => group.any fun part => contains lower part.toList

/-- What a warning is about. -/
structure ScanRule where
  shell : Option ScriptShell
  matched : Text → Bool
  code : String
  message : String

/-- The warnings in the order in which they are looked for. -/
def scanRules : List ScanRule :=
  [ ⟨none, fun lower => holds lower [["rm -rf", "rm -fr"]], "recursive_delete",
      "检测到递归强制删除，请确认目标路径和影响范围"⟩,
    ⟨some .powerShell, fun lower => holds lower [["remove-item"], ["-recurse"], ["-force"]],
      "recursive_delete", "检测到 PowerShell 递归强制删除，请确认目标路径和影响范围"⟩,
    ⟨some .powerShell, fun lower => holds lower [["format-volume", "clear-disk"]], "disk_write",
      "检测到 PowerShell 磁盘格式化或清理操作"⟩,
    ⟨some .powerShell,
      fun lower => holds lower [["set-netipaddress", "new-netipaddress", "new-netroute"]],
      "network_change", "检测到 Windows 网络配置操作，可能导致连接中断"⟩,
    ⟨some .powerShell,
      fun lower => holds lower [["new-netfirewallrule", "set-netfirewallprofile"]],
      "firewall_change", "检测到 Windows 防火墙配置操作"⟩,
    ⟨some .powerShell, fun lower => holds lower [["invoke-expression", "iex "]],
      "dynamic_execution", "检测到动态 PowerShell 代码执行，难以静态审查"⟩,
    ⟨none, fun lower => holds lower [["dd "], ["of=/dev/"]] || holds lower [["mkfs", "> /dev/"]],
      "disk_write", "检测到可能直接写入磁盘设备的命令"⟩,
    ⟨none, fun lower => holds lower [["passwd", "chpasswd", "useradd"]], "account_change",
      "检测到用户或密码相关操作"⟩,
    ⟨none, fun lower => holds lower [["ip address", "ip addr", "ip route", "nmcli", "netplan"]],
      "network_change", "检测到网络配置相关操作，可能导致连接中断"⟩,
    ⟨none, fun lower => holds lower [["firewall-cmd", "iptables", "nft "]], "firewall_change",
      "检测到防火墙规则相关操作"⟩,
    ⟨none, fun lower => holds lower [["systemctl stop", "systemctl disable"]], "service_stop",
      "检测到停止或禁用服务的操作"⟩,
    ⟨none, fun lower => holds lower [["curl ", "wget "], ["| sh", "| bash"]], "download_execute",
      "检测到下载后直接交给 Shell 执行的操作"⟩,
    ⟨none, fun lower => holds lower [["eval "]]
        || "eval\t".toList.isPrefixOf (lower.dropWhile isWhitespace), "dynamic_eval",
      "检测到动态 eval 执行，运行内容可能难以预判"⟩ ]

/-- `push_warning`: the first line of each code. -/
def pushWarning (shell : ScriptShell) (lineNumber : Nat) (lower : Text)
    (warnings : List ScriptScanWarning) (rule : ScanRule) : List ScriptScanWarning :=
  if rule.shell.all (· == shell) && rule.matched lower
      && !warnings.any fun warning => warning.code == rule.code.toList then
    warnings ++ [⟨rule.code.toList, rule.message.toList, lineNumber⟩]
  else warnings

def scanWarnings (shell : ScriptShell) (body : Text) : List ScriptScanWarning :=
  (lines body).zipIdx.foldl (fun warnings line =>
    scanRules.foldl (pushWarning shell (line.2 + 1) (line.1.map toAsciiLower)) warnings) []

/-- What the crates do: the derived reader of parameters, and the digest of a text. -/
structure Crates where
  parametersOf : Value → Option (List ScriptParameter)
  sha256 : Text → Text

/-- `scan_script_body_for`, with the digest of the body. -/
def scanScriptBodyFor (sha256 : Text → Text) (shell : ScriptShell) (body : Text) :
    AppResult ScriptScanSummary := do
  validateScriptBody body
  let warnings := (scanWarnings shell body).take 64
  .ok { lineCount := (lines body).length, characterCount := body.length,
        bodySha256 := sha256 body, warningCount := warnings.length, warnings := warnings }

/-! ## §4. JSON texts. -/

/-- An integer field; its type keeps it in range. -/
def jsonInt (n : Int) : Value :=
  if h : -(2 ^ 63) ≤ n ∧ n < 2 ^ 64 then .int ⟨n, h⟩ else .null

def textsValue (texts : List Text) : Value := .array (texts.map Value.string)

def ScriptScanWarning.toValue (warning : ScriptScanWarning) : Value :=
  .object [("code".toList, .string warning.code),
    ("lineNumber".toList, jsonInt warning.lineNumber),
    ("message".toList, .string warning.message)]

def ScriptScanSummary.toValue (scan : ScriptScanSummary) : Value :=
  .object [("bodySha256".toList, .string scan.bodySha256),
    ("characterCount".toList, jsonInt scan.characterCount),
    ("lineCount".toList, jsonInt scan.lineCount),
    ("warningCount".toList, jsonInt scan.warningCount),
    ("warnings".toList, .array (scan.warnings.map ScriptScanWarning.toValue))]

def compatibilityValue (compatibility : ScriptCompatibility) : Value :=
  .object [("osFamilies".toList, textsValue compatibility.osFamilies),
    ("requiredCommands".toList, textsValue compatibility.requiredCommands)]

/-! ## §5. What is accepted. -/

/-- A value that holds no other values. -/
def IsScalar : Value → Prop
  | .array _ => False
  | .object _ => False
  | _ => True

/-- A parameter of a script is given by one text, number or truth value. -/
theorem validateValue_scalar [UuidCrate] (parameter : ParameterDefinition) {value : Value}
    {shellValue : Text} (hkind : validateParameterKind parameter.kind = .ok ())
    (h : validateValue parameter value = .ok shellValue) : IsScalar value := by
  have hchecked : ∀ {check}, checkedString parameter check value = .ok shellValue →
      IsScalar value := by
    intro check hvalue
    obtain ⟨s, rfl, -, -⟩ := checkedString_ok hvalue
    trivial
  unfold validateValue at h
  cases hof : parameter.kind with
  | integer min max =>
      rw [hof] at h
      dsimp only at h
      split at h
      next => cases h
      next n hn =>
        obtain ⟨k, rfl, -⟩ := asI64_eq_some hn
        trivial
  | boolean =>
      rw [hof] at h
      dsimp only at h
      split at h
      next => cases h
      next b hb =>
        rw [asBool_eq_some hb]
        trivial
  | port =>
      rw [hof] at h
      dsimp only at h
      split at h
      next => cases h
      next n hn =>
        obtain ⟨k, rfl, -⟩ := asU64_eq_some hn
        trivial
  | string minLength maxLength multiline => exact hchecked (hof ▸ h)
  | enum options => exact hchecked (hof ▸ h)
  | absolutePath => exact hchecked (hof ▸ h)
  | serviceName => exact hchecked (hof ▸ h)
  | host => exact hchecked (hof ▸ h)
  | containerName => exact hchecked (hof ▸ h)
  | _ =>
      rw [hof] at hkind
      cases hkind

/-- **A default that is accepted is a text, a number or a truth value.** -/
theorem default_scalar [UuidCrate] {names : List Text} {parameter : ScriptParameter}
    (h : validateScriptParameter names parameter = .ok ()) :
    ∀ default ∈ parameter.defaultValue, IsScalar default := by
  intro default hdefault
  unfold validateScriptParameter at h
  obtain ⟨_, -, h⟩ := bind_eq_ok.mp h
  split at h
  next => cases h
  obtain ⟨_, -, h⟩ := bind_eq_ok.mp h
  split at h
  next => cases h
  obtain ⟨_, hkind, h⟩ := bind_eq_ok.mp h
  rw [Option.mem_def.mp hdefault] at h
  obtain ⟨values, hvalues, -⟩ := bind_eq_ok.mp h
  obtain ⟨object, hobject, hdeclared, -⟩ := validateParameters_ok hvalues
  obtain rfl := Value.object.inj hobject
  have hfound : Value.getField [(parameter.name, default)] parameter.name = some default := by
    simp [Value.getField]
  obtain ⟨next, -, ⟨hmissing, -⟩ | ⟨value, shellValue, hgiven, hvalue, -⟩⟩ :=
    validateDeclared_cons hdeclared
  · dsimp only at hmissing
    rw [hfound] at hmissing
    cases hmissing
  · dsimp only at hgiven
    rw [hfound] at hgiven
    obtain rfl := Option.some.inj hgiven
    refine validateValue_scalar _ ?_ hvalue
    exact hkind

/-- The parameters that are accepted are accepted one by one. -/
theorem validateEachParameter_mem [UuidCrate] {names : List Text}
    {parameters : List ScriptParameter} (h : validateEachParameter names parameters = .ok ()) :
    ∀ parameter ∈ parameters, ∃ before, validateScriptParameter before parameter = .ok () := by
  induction parameters generalizing names with
  | nil => exact fun _ hmem => absurd hmem List.not_mem_nil
  | cons parameter parameters ih =>
      obtain ⟨_, hfirst, hrest⟩ := bind_eq_ok.mp h
      exact List.forall_mem_cons.mpr ⟨⟨names, hfirst⟩, ih hrest⟩

/-- **The defaults of accepted parameters hold no other values.** -/
theorem defaults_scalar [UuidCrate] {parameters : List ScriptParameter}
    (h : validateScriptParameters parameters = .ok ()) :
    ∀ parameter ∈ parameters, ∀ default ∈ parameter.defaultValue, IsScalar default := by
  intro parameter hmem
  unfold validateScriptParameters at h
  split at h
  next => cases h
  obtain ⟨before, haccepted⟩ := validateEachParameter_mem h parameter hmem
  exact default_scalar haccepted

end QingzhouSSH.Core.Scripts
