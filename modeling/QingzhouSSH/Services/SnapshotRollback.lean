/-
  QingzhouSSH.Services.SnapshotRollback — the command that brings a snapshot back.

  A snapshot is text that was read from a host: lines of fields.  A builder takes the
  fields of its task, checks them and formats a command and its verification.  The
  pieces that a `format!` puts together are spans, so that what comes from the snapshot
  stays apart from what the program writes; a quoted span is a `shell_quote`.
-/
import QingzhouSSH.Core.Logs.Parser
import QingzhouSSH.Core.Scripts.Environment
import QingzhouSSH.Domain.Utf8Decoding
import QingzhouSSH.Lib.ShellSpans

namespace QingzhouSSH.Services.SnapshotRollback

open QingzhouSSH.Lib
open QingzhouSSH.Lib.Net (IpAddr parseIpAddr parseUnsigned showIpAddr)
open QingzhouSSH.Lib.ShellSpans (Span render)
open QingzhouSSH.Core.Tasks (UuidCrate isAsciiAlphanumeric isAsciiDigit isContainerName
  isInterfaceName isProperSegment isSafeRelativePath isServiceName isTimezone splitOnce toAsciiLower)
open QingzhouSSH.Core.Logs (lines)
open QingzhouSSH.Core.Scripts (base64Alphabet)
open QingzhouSSH.Domain (fromUtf8)
open String (utf8Len)

/-! ## §1. The pieces of a command. -/

/-- The classes of the values that a command has unquoted. -/
inductive ValueClass where
  | number
  | mode
  | flag
  | protocol
  | ruleId
  | activity
  | runtime
  | containerState
  deriving Repr, DecidableEq

abbrev Spans := List (Span ValueClass)

/-- What the program writes itself. -/
def fixed (text : String) : Span ValueClass := .program text.toList

/-- A number, as it is printed. -/
def number (n : Nat) : Span ValueClass := .literal .number (showNat n)

/-- The two texts of a builder, in pieces. -/
structure Written where
  command : Spans
  verify : Spans
  deriving Repr, DecidableEq

/-- `SnapshotRollbackCommand`. -/
structure SnapshotRollbackCommand where
  command : Text
  verify : Text
  deriving Repr, DecidableEq

def Written.rendered (written : Written) : SnapshotRollbackCommand :=
  ⟨render written.command, render written.verify⟩

/-! ## §2. The fields of a snapshot. -/

abbrev SnapshotValues := OrdMap Text Text

def isAsciiLowercase (c : Char) : Bool := 'a' ≤ c && c ≤ 'z'

/-- One line of the snapshot: a new field with a lower-case name. -/
def insertField (values : SnapshotValues) (line : Text) : AppResult SnapshotValues :=
  match splitOnce '=' line with
  | none => .error (.integrity "恢复点快照字段格式无效".toList)
  | some (key, value) =>
      if key.isEmpty || !key.all isAsciiLowercase || (values.get? key).isSome then
        .error (.integrity "恢复点快照包含重复或无效字段".toList)
      else .ok (values.insert key value)

/-- What a snapshot has between its two headings. -/
def snapshotStdout (snapshot : Text) : Option Text :=
  (("stdout:\n".toList.isPrefixOf? snapshot).bind
    (Text.splitFirst "\nstderr:\n".toList)).map Prod.fst

/-- `parse_snapshot_values`. -/
def parseSnapshotValues (snapshot : Text) : AppResult SnapshotValues :=
  match snapshotStdout snapshot with
  | none => .error (.integrity "恢复点快照格式无效".toList)
  | some stdout => ((lines stdout).filter fun line => !line.isEmpty).foldlM insertField .empty

/-- `required_snapshot_value`. -/
def requiredSnapshotValue (values : SnapshotValues) (key : String) : AppResult Text :=
  match (values.get? key.toList).filter fun value => !value.isEmpty && !value.contains '\x00' with
  | some value => .ok value
  | none => .error (.integrity ("恢复点缺少字段：".toList ++ key.toList))

/-- A check of a field, with the message of its failure. -/
def ensure (check : Bool) (message : String) : AppResult Unit :=
  if check then .ok () else .error (.integrity message.toList)

/-- A value that may be missing, with the message of its failure. -/
def orIntegrity {α : Type} (value : Option α) (message : Text) : AppResult α :=
  match value with
  | some a => .ok a
  | none => .error (.integrity message)

/-- `parse_bounded_u32`. -/
def parseBoundedU32 (values : SnapshotValues) (key : String) (max : Nat) : AppResult Nat := do
  let text ← requiredSnapshotValue values key
  let value ← orIntegrity (parseUnsigned (2 ^ 32) text)
    ("恢复点字段 ".toList ++ key.toList ++ " 无效".toList)
  if max < value then
    .error (.integrity ("恢复点字段 ".toList ++ key.toList ++ " 超出安全范围".toList))
  else .ok value

/-- `parse_snapshot_bool`. -/
def parseSnapshotBool (values : SnapshotValues) (key : String) : AppResult Bool := do
  let value ← requiredSnapshotValue values key
  if value = "true".toList then .ok true
  else if value = "false".toList then .ok false
  else .error (.integrity ("恢复点字段 ".toList ++ key.toList ++ " 无效".toList))

/-- The six bits of a digit. -/
def base64Value (c : Char) : Option Nat := base64Alphabet.idxOf? c

/-- `STANDARD.decode`: four digits are three bytes; the last ones are padded, and the
bits that are left over are zero. -/
def base64Decode : Text → Option (List UInt8)
  | [] => some []
  | [a, b, '=', '='] => do
      let a ← base64Value a
      let b ← base64Value b
      if b % 16 = 0 then some [UInt8.ofNat (a * 4 + b / 16)] else none
  | [a, b, c, '='] => do
      let a ← base64Value a
      let b ← base64Value b
      let c ← base64Value c
      if c % 4 = 0 then some [UInt8.ofNat (a * 4 + b / 16), UInt8.ofNat (b % 16 * 16 + c / 4)]
      else none
  | a :: b :: c :: d :: rest => do
      let a ← base64Value a
      let b ← base64Value b
      let c ← base64Value c
      let d ← base64Value d
      let others ← base64Decode rest
      some (UInt8.ofNat (a * 4 + b / 16) :: UInt8.ofNat (b % 16 * 16 + c / 4)
        :: UInt8.ofNat (c % 4 * 64 + d) :: others)
  | _ => none

/-- `decode_snapshot_base64`. -/
def decodeSnapshotBase64 (values : SnapshotValues) (key : String) (allowEmpty : Bool) :
    AppResult Text := do
  let field := key.toList
  let encoded ← orIntegrity ((values.get? field).filter fun value => !value.contains '\x00')
    ("恢复点缺少字段：".toList ++ field)
  let bytes ← orIntegrity (base64Decode encoded) ("恢复点字段 ".toList ++ field ++ " 编码无效".toList)
  let decoded ← orIntegrity (fromUtf8 bytes).toOption
    ("恢复点字段 ".toList ++ field ++ " 文本无效".toList)
  if 4096 < utf8Len decoded || decoded.any ['\x00', '\n', '\r'].contains
      || (!allowEmpty && decoded.isEmpty) then
    .error (.integrity ("恢复点字段 ".toList ++ field ++ " 内容无效".toList))
  else .ok decoded

/-! ## §3. The checks of values. -/

/-- `is_safe_hostname`. -/
def isSafeHostname (value : Text) : Bool :=
  !value.isEmpty && utf8Len value ≤ 253 && value.head? != some '-'
    && (value.splitOn '.').all fun label =>
      !label.isEmpty && label.head? != some '-' && label.getLast? != some '-'
        && label.all fun c => isAsciiAlphanumeric c || c == '-'

/-- `is_safe_timezone`: the check of the task's parameter. -/
def isSafeTimezone (value : Text) : Bool := isTimezone value

/-- `is_safe_swap_path`. -/
def isSafeSwapPath (value : Text) : Bool :=
  value == "/swapfile".toList
    || (("/var/lib/qingzhou/swap/".toList.isPrefixOf? value).map isSafeRelativePath).getD false

def protectedPaths : List Text :=
  ["/".toList, "/bin".toList, "/boot".toList, "/dev".toList, "/etc".toList, "/home".toList,
    "/lib".toList, "/lib64".toList, "/proc".toList, "/run".toList, "/sbin".toList, "/sys".toList,
    "/usr".toList, "/var".toList]

/-- `is_normalized_absolute_path`; the root has an empty segment here. -/
def isNormalizedAbsolutePath (value : Text) : Bool :=
  ['/'].isPrefixOf value && ((value.drop 1).splitOn '/').all isProperSegment

/-- `is_safe_permissions_path`. -/
def isSafePermissionsPath (value : Text) : Bool :=
  !protectedPaths.contains value && isNormalizedAbsolutePath value

/-- `is_safe_service_name`: the check of the task's parameter. -/
def isSafeServiceName (value : Text) : Bool := isServiceName value

/-- `is_safe_container_name`: the check of the task's parameter. -/
def isSafeContainerName (value : Text) : Bool := isContainerName value

def isOctal (c : Char) : Bool := '0' ≤ c && c ≤ '7'

/-- `is_known_systemd_policy`. -/
def isKnownSystemdPolicy (value : Text) : Bool :=
  ["enabled".toList, "enabled-runtime".toList, "disabled".toList, "masked".toList,
    "masked-runtime".toList, "static".toList, "indirect".toList, "generated".toList,
    "transient".toList, "alias".toList].contains value

/-! ## §4. Settings of the system. -/

def hostnameRollback (hostname : Text) : Written where
  command := [fixed "hostnamectl set-hostname -- ", .quoted hostname]
  verify := [fixed "test \"$(hostname)\" = ", .quoted hostname]

def timezoneRollback (timezone : Text) : Written where
  command := [fixed "timedatectl set-timezone -- ", .quoted timezone]
  verify := [fixed "test \"$(timedatectl show -p Timezone --value)\" = ", .quoted timezone]

def timeSyncRollback (ntp : Text) : Written where
  command := [fixed "timedatectl set-ntp ", .literal .flag ntp]
  verify := [fixed "qz_ntp=$(timedatectl show -p NTP --value); ",
    fixed "case \"$qz_ntp\" in yes|true|1) qz_current=true ;; *) qz_current=false ;; esac; ",
    fixed "test \"$qz_current\" = '", .literal .flag ntp, fixed "'"]

def permissionsRollback (path : Text) (uid gid : Nat) (commandMode mode : Text) : Written where
  command := [fixed "test ! -L ", .quoted path, fixed " && chown -- ", number uid, fixed ":",
    number gid, fixed " ", .quoted path, fixed " && chmod -- ", .literal .mode commandMode, fixed " ",
    .quoted path]
  verify := [fixed "test ! -L ", .quoted path, fixed " && test \"$(stat -Lc '%u:%g:%a' -- ",
    .quoted path, fixed ")\" = '", number uid, fixed ":", number gid, fixed ":", .literal .mode mode,
    fixed "'"]

/-- The arm of `system.hostname_change`. -/
def buildHostnameRollback (values : SnapshotValues) : AppResult Written := do
  let hostname ← requiredSnapshotValue values "hostname"
  ensure (isSafeHostname hostname) "恢复点中的原主机名无效"
  .ok (hostnameRollback hostname)

/-- The arm of `system.timezone_change`. -/
def buildTimezoneRollback (values : SnapshotValues) : AppResult Written := do
  let timezone ← requiredSnapshotValue values "timezone"
  ensure (isSafeTimezone timezone) "恢复点中的原时区无效"
  .ok (timezoneRollback timezone)

/-- The arm of `system.time_sync_change`. -/
def buildTimeSyncRollback (values : SnapshotValues) : AppResult Written := do
  let ntp ← requiredSnapshotValue values "ntp"
  ensure (!(ntp != "true".toList && ntp != "false".toList)) "恢复点中的原自动校时状态无效"
  .ok (timeSyncRollback ntp)

/-- The arm of `security.file_permissions`. -/
def buildPermissionsRollback (values : SnapshotValues) : AppResult Written := do
  let path ← requiredSnapshotValue values "path"
  ensure (isSafePermissionsPath path) "恢复点中的权限目标路径无效"
  let uid ← parseBoundedU32 values "uid" 60000
  let gid ← parseBoundedU32 values "gid" 60000
  let mode ← requiredSnapshotValue values "mode"
  ensure (3 ≤ utf8Len mode && utf8Len mode ≤ 4 && mode.all isOctal) "恢复点中的原文件权限无效"
  let commandMode := if utf8Len mode = 3 then '0' :: mode else mode
  .ok (permissionsRollback path uid gid commandMode mode)

/-! ## §5. Swap. -/

def maxSwapBytes : Nat := 32 * 1024 * 1024 * 1024

/-- Where there was no swap file. -/
def noSwapRollback (path : Text) : Written where
  command := [fixed "test ! -L ", .quoted path, fixed " && (swapoff -- ", .quoted path,
    fixed " 2>/dev/null || true) && rm -f -- ", .quoted path]
  verify := [fixed "test ! -e ", .quoted path,
    fixed " && ! swapon --show=NAME --noheadings | grep -Fx -- ", .quoted path]

def swapActiveCommand (active : Bool) (path : Text) : Spans :=
  if active then [fixed "swapon -- ", .quoted path]
  else [fixed "swapoff -- ", .quoted path, fixed " 2>/dev/null || true"]

def swapActiveVerify (active : Bool) (path : Text) : Spans :=
  if active then [fixed "swapon --show=NAME --noheadings | grep -Fx -- ", .quoted path]
  else [fixed "! swapon --show=NAME --noheadings | grep -Fx -- ", .quoted path]

/-- Where there was a swap file. -/
def swapRollback (active : Bool) (path : Text) (size : Nat) : Written where
  command := [fixed "test ! -L ", .quoted path, fixed " && (swapoff -- ", .quoted path,
    fixed " 2>/dev/null || true) && fallocate -l ", number size, fixed " -- ", .quoted path,
    fixed " && chmod 0600 -- ", .quoted path, fixed " && mkswap -- ", .quoted path,
    fixed " >/dev/null && "] ++ swapActiveCommand active path
  verify := [fixed "test ! -L ", .quoted path, fixed " && test -f ", .quoted path,
    fixed " && test \"$(stat -Lc %s -- ", .quoted path, fixed ")\" = '", number size, fixed "' && "]
    ++ swapActiveVerify active path

/-- `build_swap_rollback`. -/
def buildSwapRollback (values : SnapshotValues) : AppResult Written := do
  let path ← requiredSnapshotValue values "path"
  ensure (isSafeSwapPath path) "恢复点中的 Swap 路径无效"
  let existed ← parseSnapshotBool values "exists"
  let active ← parseSnapshotBool values "active"
  let sizeText ← requiredSnapshotValue values "size"
  let size ← orIntegrity (parseUnsigned (2 ^ 64) sizeText) "恢复点中的 Swap 大小无效".toList
  ensure (!((existed && !(1 ≤ size && size ≤ maxSwapBytes)) || (!existed && size != 0)))
    "恢复点中的 Swap 大小超出安全范围"
  if existed then .ok (swapRollback active path size) else .ok (noSwapRollback path)

/-! ## §6. Services. -/

def isActive (active : Text) : Bool := active == "active".toList

/-- The subcommand that brings a service back to `active`. -/
def serviceAction (active : Text) : Span ValueClass :=
  fixed (if isActive active then "start" else "stop")

def systemdRollback (service active enabled : Text) : Written where
  command := [fixed "systemctl ", serviceAction active, fixed " -- ", .quoted service]
  verify := [fixed "test \"$(systemctl is-active -- ", .quoted service,
    fixed " 2>/dev/null || true)\" = '", .literal .activity active,
    fixed "' && test \"$(systemctl is-enabled -- ", .quoted service,
    fixed " 2>/dev/null || true)\" = ", .quoted enabled]

def sysvRollback (service active : Text) : Written where
  command := [fixed "service ", .quoted service, fixed " ", serviceAction active]
  verify :=
    if isActive active then [fixed "service ", .quoted service, fixed " status >/dev/null 2>&1"]
    else [fixed "! service ", .quoted service, fixed " status >/dev/null 2>&1"]

/-- `build_service_action_rollback`. -/
def buildServiceActionRollback (values : SnapshotValues) : AppResult Written := do
  let manager ← requiredSnapshotValue values "manager"
  let service ← requiredSnapshotValue values "service"
  let active ← requiredSnapshotValue values "active"
  let enabled ← requiredSnapshotValue values "enabled"
  ensure (isSafeServiceName service) "恢复点中的服务名无效"
  ensure (active == "active".toList || active == "inactive".toList)
    "服务原状态无法被可靠恢复，已在修改前阻止"
  if manager = "systemd".toList then do
    ensure (isKnownSystemdPolicy enabled) "恢复点中的服务开机状态无效"
    .ok (systemdRollback service active enabled)
  else if manager = "service".toList ∧ enabled = "unsupported".toList then
    .ok (sysvRollback service active)
  else .error (.integrity "恢复点中的服务管理器无效".toList)

/-- The boot policies that a command brings back. -/
inductive BootPolicy where
  | enabled
  | enabledRuntime
  | disabled
  | masked
  | maskedRuntime
  deriving Repr, DecidableEq

def BootPolicy.text : BootPolicy → Text
  | .enabled => "enabled".toList
  | .enabledRuntime => "enabled-runtime".toList
  | .disabled => "disabled".toList
  | .masked => "masked".toList
  | .maskedRuntime => "masked-runtime".toList

def BootPolicy.ofText? (text : Text) : Option BootPolicy :=
  [.enabled, .enabledRuntime, .disabled, .masked, .maskedRuntime].find? fun policy =>
    policy.text == text

def BootPolicy.command (service : Text) : BootPolicy → Spans
  | .enabled => [fixed "systemctl unmask -- ", .quoted service,
      fixed " >/dev/null 2>&1 || true; systemctl enable -- ", .quoted service]
  | .enabledRuntime => [fixed "systemctl unmask --runtime -- ", .quoted service,
      fixed " >/dev/null 2>&1 || true; systemctl enable --runtime -- ", .quoted service]
  | .disabled => [fixed "systemctl unmask -- ", .quoted service,
      fixed " >/dev/null 2>&1 || true; systemctl disable -- ", .quoted service]
  | .masked => [fixed "systemctl mask -- ", .quoted service]
  | .maskedRuntime => [fixed "systemctl mask --runtime -- ", .quoted service]

def bootPolicyRollback (service : Text) (policy : BootPolicy) : Written where
  command := policy.command service
  verify := [fixed "test \"$(systemctl is-enabled -- ", .quoted service,
    fixed " 2>/dev/null || true)\" = ", .quoted policy.text]

/-- `build_service_policy_rollback`. -/
def buildServicePolicyRollback (values : SnapshotValues) : AppResult Written := do
  let manager ← requiredSnapshotValue values "manager"
  ensure (manager == "systemd".toList) "开机策略恢复只支持 systemd"
  let service ← requiredSnapshotValue values "service"
  ensure (isSafeServiceName service) "恢复点中的服务名无效"
  let active ← requiredSnapshotValue values "active"
  ensure (["active".toList, "inactive".toList, "failed".toList].contains active)
    "恢复点中的服务运行状态无效"
  let enabled ← requiredSnapshotValue values "enabled"
  let policy ← orIntegrity (BootPolicy.ofText? enabled)
    "服务原开机策略无法被可靠恢复，已在修改前阻止".toList
  .ok (bootPolicyRollback service policy)

/-! ## §7. Containers. -/

/-- The states that a command brings back. -/
inductive ContainerState where
  | running
  | paused
  | stopped
  deriving Repr, DecidableEq

def ContainerState.text : ContainerState → Text
  | .running => "running".toList
  | .paused => "paused".toList
  | .stopped => "stopped".toList

def ContainerState.ofText? (text : Text) : Option ContainerState :=
  if text = "exited".toList ∨ text = "stopped".toList then some .stopped
  else if text = "running".toList then some .running
  else if text = "paused".toList then some .paused
  else none

def inspectContainer (runtime container : Text) : Spans :=
  [fixed "qz_format=$(printf '\x7b%s\x7d' '\x7b.State.Status\x7d'); ", .literal .runtime runtime,
    fixed " inspect --format \"$qz_format\" -- ", .quoted container]

/-- A call of the runtime on the container. -/
def containerCall (runtime container : Text) (action : String) : Spans :=
  [.literal .runtime runtime, fixed " ", fixed action, fixed " -- ", .quoted container]

def ContainerState.command (runtime container : Text) : ContainerState → Spans
  | .running => fixed "qz_state=$(" :: inspectContainer runtime container
      ++ fixed ") || exit; case \"$qz_state\" in running) :;; paused) "
        :: containerCall runtime container "unpause"
      ++ fixed ";; *) " :: containerCall runtime container "start" ++ [fixed ";; esac"]
  | .paused => fixed "qz_state=$(" :: inspectContainer runtime container
      ++ fixed ") || exit; case \"$qz_state\" in paused) :;; running) "
        :: containerCall runtime container "pause"
      ++ fixed ";; *) " :: containerCall runtime container "start"
      ++ fixed " && " :: containerCall runtime container "pause" ++ [fixed ";; esac"]
  | .stopped => fixed "qz_state=$(" :: inspectContainer runtime container
      ++ fixed ") || exit; case \"$qz_state\" in exited|stopped) :;; paused) "
        :: containerCall runtime container "unpause"
      ++ fixed " && " :: containerCall runtime container "stop"
      ++ fixed ";; *) " :: containerCall runtime container "stop" ++ [fixed ";; esac"]

def ContainerState.verify (runtime container : Text) : ContainerState → Spans
  | .stopped => fixed "qz_state=$(" :: inspectContainer runtime container
      ++ [fixed ") || exit; test \"$qz_state\" = exited || test \"$qz_state\" = stopped"]
  | state => fixed "test \"$(" :: inspectContainer runtime container
      ++ [fixed ")\" = '", .literal .containerState state.text, fixed "'"]

def containerRollback (runtime container : Text) (state : ContainerState) : Written where
  command := state.command runtime container
  verify := state.verify runtime container

/-- `build_container_rollback`. -/
def buildContainerRollback (values : SnapshotValues) : AppResult Written := do
  let runtime ← requiredSnapshotValue values "runtime"
  ensure (runtime == "docker".toList || runtime == "podman".toList) "恢复点中的容器运行时无效"
  let container ← requiredSnapshotValue values "container"
  ensure (isSafeContainerName container) "恢复点中的容器名无效"
  let stateText ← requiredSnapshotValue values "state"
  let state ← orIntegrity (ContainerState.ofText? stateText)
    "容器原状态无法被可靠恢复，已在修改前阻止".toList
  .ok (containerRollback runtime container state)

/-! ## §8. The firewall. -/

inductive FirewallBackend where
  | firewalld
  | ufw
  | nftables
  | iptables
  deriving Repr, DecidableEq

def FirewallBackend.ofText? (text : Text) : Option FirewallBackend :=
  if text = "firewalld".toList then some .firewalld
  else if text = "ufw".toList then some .ufw
  else if text = "nftables".toList then some .nftables
  else if text = "iptables".toList then some .iptables
  else none

/-- The rule that was opened, and whether it was there before. -/
structure FirewallEntry where
  entryId : Text
  port : Nat
  protocol : Text
  present : Bool
  deriving Repr, DecidableEq

namespace FirewallEntry

def marker (entry : FirewallEntry) : Spans := [fixed "qingzhou:", .literal .ruleId entry.entryId]

/-- The rule without its marker's quotes. -/
def firewalldRule (entry : FirewallEntry) : Spans :=
  [fixed "0 -p ", .literal .protocol entry.protocol, fixed " --dport ", number entry.port,
    fixed " -m comment --comment "] ++ entry.marker ++ [fixed " -j ACCEPT"]

def firewalldMutation (entry : FirewallEntry) : Spans :=
  if entry.present then
    fixed "test -n \"$qz_owned\" || firewall-cmd --permanent --direct --add-rule ipv4 filter INPUT "
      :: entry.firewalldRule
  else
    fixed "if test -n \"$qz_owned\"; then "
      :: fixed "firewall-cmd --permanent --direct --remove-rule ipv4 filter INPUT "
      :: entry.firewalldRule ++ [fixed " || exit; fi"]

def firewalld (entry : FirewallEntry) : Written where
  command := fixed "qz_marker='" :: entry.marker ++ fixed "'; qz_rule='" :: entry.firewalldRule
    ++ fixed "'; qz_owned=$(firewall-cmd --permanent --direct --get-rules ipv4 filter INPUT"
      :: fixed " | grep --fixed-strings -- \"$qz_marker\" || true);"
      :: fixed " test -z \"$qz_owned\" || test \"$qz_owned\" = \"$qz_rule\"; "
      :: entry.firewalldMutation
    ++ [fixed "; firewall-cmd --reload"]
  verify := fixed "qz_owned=$(firewall-cmd --permanent --direct --get-rules ipv4 filter INPUT"
      :: fixed " | grep --fixed-strings -- '" :: entry.marker
    ++ fixed "' || true); test \"$qz_owned\" = '"
      :: (if entry.present then entry.firewalldRule else []) ++ [fixed "'"]

/-- The marked rows of a listing, and the start of a test of their number. -/
def markedRows (listing : String) (entry : FirewallEntry) : Spans :=
  fixed "qz_rows=$(" :: fixed listing :: fixed " | awk -v marker='" :: entry.marker
    ++ [fixed "' 'index($0, marker) \x7b print \x7d'); test \"$(printf '%s\\n' \"$qz_rows\"",
      fixed " | awk 'NF \x7b count++ \x7d END \x7b print count + 0 \x7d')\" "]

def expectedCount (entry : FirewallEntry) : Span ValueClass :=
  fixed (if entry.present then "1" else "0")

def ufwMutation (entry : FirewallEntry) : Spans :=
  if entry.present then
    [fixed "test -n \"$qz_rows\" || ufw allow '", number entry.port, fixed "/",
      .literal .protocol entry.protocol, fixed "' comment '"] ++ entry.marker ++ [fixed "'"]
  else
    [fixed "if test -n \"$qz_rows\"; then qz_number=$(printf '%s\\n' \"$qz_rows\"",
      fixed " | sed -n 's/^\\[[[:space:]]*\\([0-9][0-9]*\\)\\].*/\\1/p');",
      fixed " test -n \"$qz_number\" && ufw --force delete \"$qz_number\"; fi"]

def ufw (entry : FirewallEntry) : Written where
  command := entry.markedRows "ufw status numbered" ++ fixed "-le 1; " :: entry.ufwMutation
  verify := entry.markedRows "ufw status numbered" ++ [fixed "-eq ", entry.expectedCount]

def nftablesMutation (entry : FirewallEntry) : Spans :=
  if entry.present then
    [fixed "if test -z \"$qz_rows\"; then nft list table inet qingzhou >/dev/null 2>&1",
      fixed " || nft add table inet qingzhou;",
      fixed " nft list chain inet qingzhou input >/dev/null 2>&1 || nft 'add chain inet qingzhou",
      fixed " input \x7b type filter hook input priority 0; \x7d';",
      fixed " nft add rule inet qingzhou input ", .literal .protocol entry.protocol, fixed " dport ",
      number entry.port, fixed " counter accept comment '"] ++ entry.marker ++ [fixed "'; fi"]
  else
    [fixed "if test -n \"$qz_rows\"; then qz_handle=$(printf '%s\\n' \"$qz_rows\"",
      fixed " | awk '\x7b for (i=1; i<=NF; i++) if ($i == \"handle\")",
      fixed " \x7b print $(i+1); exit \x7d \x7d'); test -n \"$qz_handle\"",
      fixed " && nft delete rule inet qingzhou input handle \"$qz_handle\"; fi"]

def nftables (entry : FirewallEntry) : Written where
  command := entry.markedRows "nft -a list chain inet qingzhou input 2>/dev/null"
    ++ fixed "-le 1; " :: entry.nftablesMutation
  verify := entry.markedRows "nft -a list chain inet qingzhou input 2>/dev/null"
    ++ [fixed "-eq ", entry.expectedCount]

def iptablesRule (entry : FirewallEntry) : Spans :=
  [fixed "-p ", .literal .protocol entry.protocol, fixed " --dport ", number entry.port,
    fixed " -m comment --comment '"] ++ entry.marker ++ [fixed "' -j ACCEPT"]

def iptables (entry : FirewallEntry) : Written where
  command :=
    if entry.present then
      fixed "iptables -C INPUT " :: entry.iptablesRule
        ++ fixed " >/dev/null 2>&1 || iptables -I INPUT " :: entry.iptablesRule
    else
      fixed "if iptables -C INPUT " :: entry.iptablesRule
        ++ fixed " >/dev/null 2>&1; then iptables -D INPUT " :: entry.iptablesRule ++ [fixed "; fi"]
  verify :=
    if entry.present then fixed "iptables -C INPUT " :: entry.iptablesRule
    else fixed "! iptables -C INPUT " :: entry.iptablesRule ++ [fixed " >/dev/null 2>&1"]

end FirewallEntry

def FirewallBackend.rollback (entry : FirewallEntry) : FirewallBackend → Written
  | .firewalld => entry.firewalld
  | .ufw => entry.ufw
  | .nftables => entry.nftables
  | .iptables => entry.iptables

/-- The identifier of a rule: a UUID in its hyphenated form, in either case. -/
def isRuleId [UuidCrate] (entryId : Text) : Bool :=
  match UuidCrate.parseStr entryId with
  | none => false
  | some parsed =>
      !(UuidCrate.isNil parsed || UuidCrate.hyphenated parsed != entryId.map toAsciiLower)

/-- `build_firewall_rollback`. -/
def buildFirewallRollback [UuidCrate] (values : SnapshotValues) : AppResult Written := do
  let backendText ← requiredSnapshotValue values "backend"
  let entryId ← requiredSnapshotValue values "entryid"
  ensure (isRuleId entryId) "恢复点中的防火墙规则标识无效"
  let port ← parseBoundedU32 values "port" 65535
  ensure (port != 0) "恢复点中的防火墙端口无效"
  let protocol ← requiredSnapshotValue values "protocol"
  ensure (protocol == "tcp".toList || protocol == "udp".toList) "恢复点中的防火墙协议无效"
  let present ← parseSnapshotBool values "present"
  let backend ← orIntegrity (FirewallBackend.ofText? backendText) "恢复点中的防火墙后端无效".toList
  .ok (backend.rollback ⟨entryId, port, protocol, present⟩)

/-! ## §9. Network addresses. -/

/-- What NetworkManager holds for a connection. -/
structure ConnectionProfile where
  ipFourMethod : Text
  ipFourAddresses : Text
  ipFourGateway : Text
  ipSixMethod : Text
  ipSixAddresses : Text
  ipSixGateway : Text
  deriving Repr, DecidableEq

/-- The properties that are put back, with their values. -/
def ConnectionProfile.fields (profile : ConnectionProfile) : List (String × Text) :=
  [("ipv4.method", profile.ipFourMethod), ("ipv4.addresses", profile.ipFourAddresses),
    ("ipv4.gateway", profile.ipFourGateway), ("ipv6.method", profile.ipSixMethod),
    ("ipv6.addresses", profile.ipSixAddresses), ("ipv6.gateway", profile.ipSixGateway)]

def networkManagerRollback (connection interface : Text) (profile : ConnectionProfile) :
    Written where
  command := [fixed "nmcli connection modify ", .quoted connection, fixed " "]
    ++ List.intercalate [fixed " "]
      (profile.fields.map fun field => [fixed field.1, fixed " ", .quoted field.2])
    ++ [fixed "; nmcli device reapply ", .quoted interface]
  verify := List.intercalate [fixed " && "] (profile.fields.map fun field =>
    [fixed "test \"$(nmcli -g ", fixed field.1, fixed " connection show ", .quoted connection,
      fixed ")\" = ", .quoted field.2])

/-- `build_network_manager_rollback`. -/
def buildNetworkManagerRollback (values : SnapshotValues) : AppResult Written := do
  let backend ← requiredSnapshotValue values "backend"
  ensure (backend == "networkmanager".toList) "恢复点中的网络管理后端无效"
  let interface ← requiredSnapshotValue values "interface"
  ensure (isInterfaceName interface) "恢复点中的网络接口名称无效"
  let connection ← decodeSnapshotBase64 values "connectionb" false
  let ipFourMethod ← decodeSnapshotBase64 values "ipfourmethodb" false
  let ipFourAddresses ← decodeSnapshotBase64 values "ipfouraddressesb" true
  let ipFourGateway ← decodeSnapshotBase64 values "ipfourgatewayb" true
  let ipSixMethod ← decodeSnapshotBase64 values "ipsixmethodb" false
  let ipSixAddresses ← decodeSnapshotBase64 values "ipsixaddressesb" true
  let ipSixGateway ← decodeSnapshotBase64 values "ipsixgatewayb" true
  .ok (networkManagerRollback connection interface
    ⟨ipFourMethod, ipFourAddresses, ipFourGateway, ipSixMethod, ipSixAddresses, ipSixGateway⟩)

/-- An address with its prefix. -/
abbrev Cidr := IpAddr × Nat

/-- `parse_snapshot_cidr`. -/
def parseSnapshotCidr (value : Text) : AppResult Cidr := do
  let (addressText, prefixText) ← orIntegrity (splitOnce '/' value) "恢复点中的原网络地址无效".toList
  let address ← orIntegrity (parseIpAddr addressText) "恢复点中的原网络地址无效".toList
  let width ← orIntegrity (parseUnsigned 256 prefixText) "恢复点中的原网络前缀无效".toList
  ensure (width ≤ if address.isIpv4 then 32 else 128) "恢复点中的原网络前缀无效"
  .ok (address, width)

/-- The loop over the addresses. -/
def parseSnapshotAddresses (addresses : Text) : AppResult (List Cidr) :=
  if addresses = "none".toList then .ok []
  else (addresses.splitOn ',').mapM parseSnapshotCidr

/-- `parse_snapshot_gateway`. -/
def parseSnapshotGateway (values : SnapshotValues) (key : String) (ipv4 : Bool) :
    AppResult (Option IpAddr) := do
  let value ← requiredSnapshotValue values key
  if value = "none".toList then .ok none
  else do
    let gateway ← orIntegrity (parseIpAddr value) "恢复点中的原默认网关无效".toList
    ensure (gateway.isIpv4 == ipv4) "恢复点中的原默认网关协议版本无效"
    .ok (some gateway)

/-- The option of `ip` for a family. -/
def familyOption (ipv4 : Bool) : Span ValueClass := fixed (if ipv4 then "-4" else "-6")

def quotedCidr (cidr : Cidr) : Span ValueClass :=
  .quoted (showIpAddr cidr.1 ++ '/' :: showNat cidr.2)

def addAddress (interface : Text) (cidr : Cidr) : Spans :=
  [fixed "; ip ", familyOption cidr.1.isIpv4, fixed " address add ", quotedCidr cidr, fixed " dev ",
    .quoted interface]

def checkAddress (interface : Text) (cidr : Cidr) : Spans :=
  [fixed "ip ", familyOption cidr.1.isIpv4, fixed " -o address show dev ", .quoted interface,
    fixed " scope global | awk -v cidr=", quotedCidr cidr,
    fixed " '$4 == cidr \x7b found=1 \x7d END \x7b exit found ? 0 : 1 \x7d' && "]

def replaceGateway (interface : Text) (ipv4 : Bool) : Option IpAddr → Spans
  | none => []
  | some gateway => [fixed "; ip ", familyOption ipv4, fixed " route replace default via ",
      .quoted (showIpAddr gateway), fixed " dev ", .quoted interface]

def checkGateway (interface : Text) (ipv4 : Bool) : Option IpAddr → Spans
  | none => []
  | some gateway => [fixed "ip ", familyOption ipv4, fixed " route show default dev ",
      .quoted interface, fixed " | awk -v gateway=", .quoted (showIpAddr gateway),
      fixed " '$1 == \"default\" \x7b for (i=1; i<=NF; i++) if ($i == \"via\" && $(i+1) == gateway)",
      fixed " found=1 \x7d END \x7b exit found ? 0 : 1 \x7d' && "]

def flushAddresses (interface : Text) : Spans :=
  [fixed "ip -4 address flush dev ", .quoted interface,
    fixed " scope global; ip -6 address flush dev ", .quoted interface, fixed " scope global"]

def dropGateways (interface : Text) : Spans :=
  [fixed "; while ip -4 route del default dev ", .quoted interface,
    fixed " >/dev/null 2>&1; do :; done; while ip -6 route del default dev ", .quoted interface,
    fixed " >/dev/null 2>&1; do :; done"]

def checkCounts (interface : Text) (countFour countSix : Nat) : Spans :=
  [fixed "test \"$(ip -4 -o address show dev ", .quoted interface,
    fixed " scope global | awk 'END \x7b print NR + 0 \x7d')\" -eq ", number countFour,
    fixed " && test \"$(ip -6 -o address show dev ", .quoted interface,
    fixed " scope global | awk 'END \x7b print NR + 0 \x7d')\" -eq ", number countSix]

def networkRollback (interface : Text) (addresses : List Cidr) (gatewayFour gatewaySix : Option IpAddr) :
    Written where
  command := flushAddresses interface ++ addresses.flatMap (addAddress interface)
    ++ dropGateways interface ++ replaceGateway interface true gatewayFour
    ++ replaceGateway interface false gatewaySix
  verify := addresses.flatMap (checkAddress interface) ++ checkGateway interface true gatewayFour
    ++ checkGateway interface false gatewaySix
    ++ checkCounts interface (addresses.countP fun cidr => cidr.1.isIpv4)
      (addresses.countP fun cidr => !cidr.1.isIpv4)

/-- `build_network_rollback`. -/
def buildNetworkRollback (values : SnapshotValues) : AppResult Written := do
  let interface ← requiredSnapshotValue values "interface"
  ensure (isInterfaceName interface) "恢复点中的网络接口名称无效"
  let addressesText ← requiredSnapshotValue values "addresses"
  let addresses ← parseSnapshotAddresses addressesText
  ensure (addresses.length ≤ 32) "恢复点中的原网络地址数量超出上限"
  let gatewayFour ← parseSnapshotGateway values "gatewayfour" true
  let gatewaySix ← parseSnapshotGateway values "gatewaysix" false
  .ok (networkRollback interface addresses gatewayFour gatewaySix)

/-! ## §10. The builder of a task. -/

/-- The tasks that are rolled back from a snapshot. -/
inductive SnapshotTask where
  | hostnameChange
  | timezoneChange
  | timeSyncChange
  | filePermissions
  | swapManage
  | serviceAction
  | bootPolicy
  | containerAction
  | firewallOpenPort
  | ipChange
  deriving Repr, DecidableEq

def snapshotTasks : List (Text × SnapshotTask) :=
  [("system.hostname_change".toList, .hostnameChange),
    ("system.timezone_change".toList, .timezoneChange),
    ("system.time_sync_change".toList, .timeSyncChange),
    ("security.file_permissions".toList, .filePermissions),
    ("storage.swap_manage".toList, .swapManage),
    ("service.start".toList, .serviceAction), ("service.stop".toList, .serviceAction),
    ("service.restart".toList, .serviceAction), ("service.boot_policy".toList, .bootPolicy),
    ("container.action".toList, .containerAction),
    ("security.firewall_open_port".toList, .firewallOpenPort),
    ("network.ip_change".toList, .ipChange)]

def SnapshotTask.ofText? (taskId : Text) : Option SnapshotTask :=
  (snapshotTasks.find? fun entry => entry.1 == taskId).map Prod.snd

def SnapshotTask.build [UuidCrate] (values : SnapshotValues) : SnapshotTask → AppResult Written
  | .hostnameChange => buildHostnameRollback values
  | .timezoneChange => buildTimezoneRollback values
  | .timeSyncChange => buildTimeSyncRollback values
  | .filePermissions => buildPermissionsRollback values
  | .swapManage => buildSwapRollback values
  | .serviceAction => buildServiceActionRollback values
  | .bootPolicy => buildServicePolicyRollback values
  | .containerAction => buildContainerRollback values
  | .firewallOpenPort => buildFirewallRollback values
  | .ipChange =>
      if (values.get? "backend".toList).isSome then buildNetworkManagerRollback values
      else buildNetworkRollback values

/-- The pieces of the command and of its verification. -/
def writeSnapshotRollback [UuidCrate] (taskId : Text) (values : SnapshotValues) :
    AppResult Written :=
  match SnapshotTask.ofText? taskId with
  | some task => task.build values
  | none => .error (.validation "该任务尚未实现受控快照回滚".toList)

/-- `build_snapshot_rollback_command`. -/
def buildSnapshotRollbackCommand [UuidCrate] (taskId snapshot : Text) :
    AppResult SnapshotRollbackCommand := do
  let values ← parseSnapshotValues snapshot
  let written ← writeSnapshotRollback taskId values
  .ok written.rendered

end QingzhouSSH.Services.SnapshotRollback
