/-
  QingzhouSSH.Core.Scripts.Environment — how a script is started on a host.

  A POSIX script is a here-document of `sh` or `bash`, with its parameters in `env`; a
  PowerShell script is one encoded command that sets them first.

  Main result: `uniqueHeredocDelimiter_ok` — the body cannot end its own here-document.
-/
import QingzhouSSH.Core.Scripts.Validation
import QingzhouSSH.Core.Tasks.Planner

namespace QingzhouSSH.Domain

open QingzhouSSH.Core.Tasks (SystemCapabilities)

/-- `display_name`. -/
def ScriptShell.displayName : ScriptShell → Text
  | .posixSh => "POSIX sh".toList
  | .bash => "Bash".toList
  | .powerShell => "PowerShell".toList

/-- `executable`. -/
def ScriptShell.executable (capabilities : SystemCapabilities) (shell : ScriptShell) :
    AppResult Text :=
  let missing := .error (.compatibility ("目标服务器未探测到 ".toList ++ shell.displayName))
  match shell with
  | .posixSh => if capabilities.hasCommand "sh".toList then .ok "sh".toList else missing
  | .bash => if capabilities.hasCommand "bash".toList then .ok "bash".toList else missing
  | .powerShell =>
      if capabilities.hasCommand "pwsh".toList then .ok "pwsh".toList
      else if capabilities.hasCommand "powershell".toList then .ok "powershell".toList
      else missing

end QingzhouSSH.Domain

namespace QingzhouSSH.Core.Scripts

open QingzhouSSH.Core.Tasks (ValidatedParameter ValidatedParameters)
open QingzhouSSH.Domain
open QingzhouSSH.Lib

/-! ## §1. Encodings. -/

/-- The UTF-16 code units of a character. -/
def utf16Units (c : Char) : List Nat :=
  if c.toNat < 0x10000 then [c.toNat]
  else [0xD800 + (c.toNat - 0x10000) / 0x400, 0xDC00 + (c.toNat - 0x10000) % 0x400]

/-- `encode_utf16` and `to_le_bytes`. -/
def utf16LeBytes (s : Text) : List Nat :=
  s.flatMap fun c => (utf16Units c).flatMap fun unit => [unit % 0x100, unit / 0x100]

def base64Alphabet : Text :=
  "ABCDEFGHIJKLMNOPQRSTUVWXYZabcdefghijklmnopqrstuvwxyz0123456789+/".toList

def base64Digit (n : Nat) : Char := base64Alphabet.getD (n % 64) 'A'

/-- `STANDARD.encode`: three bytes are four digits, and the last ones are padded. -/
def base64Encode : List Nat → Text
  | [] => []
  | [a] => [base64Digit (a / 4), base64Digit (a % 4 * 16), '=', '=']
  | [a, b] =>
      [base64Digit (a / 4), base64Digit (a % 4 * 16 + b / 16), base64Digit (b % 16 * 4), '=']
  | a :: b :: c :: rest =>
      base64Digit (a / 4) :: base64Digit (a % 4 * 16 + b / 16)
        :: base64Digit (b % 16 * 4 + c / 64) :: base64Digit (c % 64) :: base64Encode rest

/-! ## §2. Launchers. -/

/-- `unique_heredoc_delimiter`, from the identifiers that `Uuid::new_v4` makes. -/
def uniqueHeredocDelimiter (candidates : List Uuid) (body : Text) : AppResult Text :=
  let delimiters := (candidates.take 16).map fun candidate =>
    "QZ_SCRIPT_".toList ++ candidate.text.filter fun c => c != '-'
  match delimiters.find? fun delimiter => !Text.contains body delimiter with
  | some delimiter => .ok delimiter
  | none => .error (.integrity "无法为脚本创建安全的输入边界，请重新尝试".toList)

/-- The assignments in front of a POSIX script. -/
def environmentOf : List (Text × ValidatedParameter) → AppResult Text
  | [] => .ok []
  | (name, parameter) :: rest => do
      let assigned ← scriptParameterEnvName name
      let others ← environmentOf rest
      .ok (' ' :: assigned ++ '=' :: parameter.shellValue ++ others)

/-- `render_posix_launcher`. -/
def renderPosixLauncher (candidates : List Uuid) (executable body : Text)
    (parameters : ValidatedParameters) : AppResult Text := do
  let delimiter ← uniqueHeredocDelimiter candidates body
  let environment ← environmentOf parameters.entries
  .ok ("env".toList ++ environment ++ ' ' :: executable ++ " -s <<'".toList ++ delimiter
    ++ "'\n".toList ++ body ++ '\n' :: delimiter)

/-- `powershell_value`. -/
def powershellValue : Value → Text
  | .string value => value
  | .null => []
  | other => other.toJson

/-- The assignments in front of a PowerShell script. -/
def powershellEnvironment : List (Text × ValidatedParameter) → AppResult Text
  | [] => .ok []
  | (name, parameter) :: rest => do
      let assigned ← scriptParameterEnvName name
      let others ← powershellEnvironment rest
      .ok ("$env:".toList ++ assigned ++ " = '".toList
        ++ (powershellValue parameter.value).flatMap (fun c => if c = '\'' then ['\'', '\''] else [c])
        ++ "'\n".toList ++ others)

/-- `render_powershell_launcher`. -/
def renderPowershellLauncher (executable body : Text) (parameters : ValidatedParameters) :
    AppResult Text := do
  let environment ← powershellEnvironment parameters.entries
  let script := "$ErrorActionPreference = 'Stop'\n".toList ++ environment ++ body
  .ok (executable ++ " -NoLogo -NoProfile -NonInteractive -EncodedCommand ".toList
    ++ base64Encode (utf16LeBytes script))

/-- `render_script_launcher`. -/
def renderScriptLauncher (candidates : List Uuid) (shell : ScriptShell) (executable body : Text)
    (parameters : ValidatedParameters) : AppResult Text := do
  validateScriptBody body
  if (shell = .posixSh ∧ executable = "sh".toList) ∨ (shell = .bash ∧ executable = "bash".toList) then
    renderPosixLauncher candidates executable body parameters
  else if shell = .powerShell ∧ executable ∈ ["powershell".toList, "pwsh".toList] then
    renderPowershellLauncher executable body parameters
  else .error (.validation "脚本 Shell 启动器不匹配".toList)

/-- **The body cannot end its own here-document.** -/
theorem uniqueHeredocDelimiter_ok {candidates : List Uuid} {body delimiter : Text}
    (h : uniqueHeredocDelimiter candidates body = .ok delimiter) : ¬ delimiter <:+: body := by
  unfold uniqueHeredocDelimiter at h
  dsimp only at h
  split at h
  next found hfound =>
    obtain rfl := Except.ok.inj h
    have habsent := List.find?_some hfound
    simpa using habsent
  next => cases h

end QingzhouSSH.Core.Scripts
