/-
  QingzhouSSH.Core.Tasks.Catalog — built-in tasks.

  Every task of the built-in catalogue that changes a server, with its commands
  and recovery plan, and the read-only tasks that other modules run as examples.
-/
import QingzhouSSH.Core.Tasks.Model

namespace QingzhouSSH.Core.Tasks.Catalog

/-! ## §1. Constructors. -/

/-- A long command, written in parts. -/
def commandText (parts : List String) : Text := parts.flatMap String.toList

def supportedFamilies : List Text := ["debian".toList, "rhel".toList, "openeuler".toList]

def linuxReadOnlyFamilies : List Text := supportedFamilies ++ ["linux".toList]

def boundedStep (id title : Text) (seconds : Nat) (template : Text) : TaskStep :=
  { id := id, title := title, timeoutSeconds := seconds, outputLimitBytes := 1024 * 1024,
    commandTemplate := template }

def readOnlyTask (id : Text) (category : TaskCategory) (title : Text)
    (parameters : List ParameterDefinition) (implementations : List TaskImplementation) :
    TaskDefinition :=
  { id := id, version := 2, category := category, title := title, riskLevel := .safe,
    privilege := .currentUser, scope := .readOnlyBatch, parameters := parameters,
    implementations := implementations }

def readOnlyImplementation (id : Text) (requiredCommands : List Text) (steps : List TaskStep)
    (resultParser : ResultParserKind) : TaskImplementation :=
  { id := id,
    compatibility := { osFamilies := linuxReadOnlyFamilies, serviceManagers := [],
                       requiredCommands := requiredCommands },
    preflightSteps := [], previewSteps := steps, backupPlan := none, executionSteps := steps,
    verifySteps := [], rollbackPlan := none, resultParser := resultParser }

def dangerousTask (id : Text) (category : TaskCategory) (title : Text)
    (parameters : List ParameterDefinition) (implementations : List TaskImplementation) :
    TaskDefinition :=
  { id := id, version := 2, category := category, title := title, riskLevel := .dangerous,
    privilege := .rootOrPasswordlessSudo, scope := .singleServer, parameters := parameters,
    implementations := implementations }

def dangerousImplementation (id : Text) (serviceManagers requiredCommands : List Text)
    (previewCommand : Text) (backupItems : List BackupItemDefinition)
    (executionCommand verifyCommand rollbackCommand : Text) (resultParser : ResultParserKind) :
    TaskImplementation :=
  { id := id,
    compatibility := { osFamilies := supportedFamilies, serviceManagers := serviceManagers,
                       requiredCommands := requiredCommands },
    preflightSteps :=
      [boundedStep "preflight".toList "检查目标与恢复条件".toList 30 previewCommand],
    previewSteps := [boundedStep "preview".toList "预演当前状态".toList 30 previewCommand],
    backupPlan := some { items := backupItems },
    executionSteps :=
      [boundedStep "execute".toList "执行受控修改".toList 60 executionCommand],
    verifySteps := [boundedStep "verify".toList "核验目标状态".toList 45 verifyCommand],
    rollbackPlan := some
      { steps := [boundedStep "rollback".toList "恢复修改前状态".toList 60 rollbackCommand],
        automaticOnFailure := true },
    resultParser := resultParser }

def backupItem (id : Text) (kind : BackupItemKind) (targetTemplate : Text) :
    BackupItemDefinition :=
  { id := id, kind := kind, targetTemplate := targetTemplate }

def parameter (name label : Text) (kind : ParameterKind) (required : Bool)
    (defaultValue : Option Value) : ParameterDefinition :=
  { name := name, label := label, kind := kind, required := required,
    defaultValue := defaultValue, sensitive := false }

def integerParameter (name label : Text) (min max : Int) (default : JsonInt) :
    ParameterDefinition :=
  parameter name label (.integer min max) false (some (.int default))

def stringParameter (name label : Text) (minLength maxLength : Nat) : ParameterDefinition :=
  parameter name label (.string minLength maxLength false) true none

def absolutePathParameter (name label : Text) : ParameterDefinition :=
  parameter name label .absolutePath true none

def hostParameter (name label : Text) (required : Bool) : ParameterDefinition :=
  parameter name label .host required none

def portParameter (name label : Text) (required : Bool) (default : Option JsonInt) :
    ParameterDefinition :=
  parameter name label .port required (default.map .int)

def interfaceParameter (name label : Text) : ParameterDefinition :=
  parameter name label .interfaceName true none

def serviceParameter : ParameterDefinition :=
  parameter "service".toList "服务".toList .serviceName true none

def containerParameter : ParameterDefinition :=
  parameter "container".toList "容器".toList .containerName true none

def enumParameter (name label : Text) (options : List Text) (default : Option Text) :
    ParameterDefinition :=
  parameter name label (.enum options) default.isNone (default.map .string)

/-! ## §2. System tasks. -/

def hostnameSnapshot : Text :=
  "printf 'hostname=%s\\n' \"$(hostname)\"".toList

def hostnameChange : TaskDefinition :=
  dangerousTask "system.hostname_change".toList .system "修改主机名".toList
    [hostParameter "hostname".toList "新主机名".toList true]
    [dangerousImplementation "hostnamectl".toList [] ["hostnamectl".toList, "hostname".toList]
      "hostnamectl status --static; hostname".toList
      [backupItem "hostname-before".toList .runtimeState hostnameSnapshot]
      "hostnamectl set-hostname -- {{hostname}}".toList
      "test \"$(hostname)\" = {{hostname}}; hostnamectl status --static".toList
      "hostnamectl set-hostname -- {{restore:hostname-before}}".toList
      .keyValue]

def timezoneSnapshot : Text :=
  "printf 'timezone=%s\\n' \"$(timedatectl show -p Timezone --value)\"".toList

def timezoneChange : TaskDefinition :=
  dangerousTask "system.timezone_change".toList .system "修改时区".toList
    [parameter "timezone".toList "新时区".toList .timezone true none]
    [dangerousImplementation "timedatectl".toList [] ["timedatectl".toList]
      "timedatectl show -p Timezone --value; timedatectl status".toList
      [backupItem "timezone-before".toList .runtimeState timezoneSnapshot]
      "timedatectl set-timezone -- {{timezone}}".toList
      "test \"$(timedatectl show -p Timezone --value)\" = {{timezone}}; timedatectl status".toList
      "timedatectl set-timezone -- {{restore:timezone-before}}".toList
      .keyValue]

def timeSyncSnapshot : Text :=
  commandText [
      "qz_ntp=$(timedatectl show -p NTP --value); case \"$qz_ntp\" in yes|true|1) qz_ntp=true ",
      ";; *) qz_ntp=false ;; esac; printf 'ntp=%s\\n' \"$qz_ntp\""]

def timeSyncChange : TaskDefinition :=
  dangerousTask "system.time_sync_change".toList .system "设置自动校时".toList
    [parameter "enabled".toList "自动校时".toList .boolean true none]
    [dangerousImplementation "timedatectl".toList [] ["timedatectl".toList]
      (commandText [
        "printf 'current_time='; date -Is; printf 'ntp='; timedatectl show -p NTP --value; ",
        "printf 'synchronized='; timedatectl show -p NTPSynchronized --value; timedatectl ",
        "status"])
      [backupItem "time-sync-before".toList .runtimeState timeSyncSnapshot]
      "timedatectl set-ntp {{enabled}}".toList
      (commandText [
        "qz_target={{enabled}}; qz_ntp=$(timedatectl show -p NTP --value); case \"$qz_ntp\" ",
        "in yes|true|1) qz_current=true ;; *) qz_current=false ;; esac; test \"$qz_current\" ",
        "= \"$qz_target\"; timedatectl status"])
      "timedatectl set-ntp {{restore:time-sync-before}}".toList
      .keyValue]

/-! ## §3. Storage and file permissions. -/

def swapSnapshot : Text :=
  commandText [
      "test ! -L {{path}}; printf 'path=%s\\n' {{path}}; if test -e {{path}}; then test -f ",
      "{{path}}; printf 'exists=true\\nsize=%s\\n' \"$(stat -Lc %s -- {{path}})\"; else ",
      "printf 'exists=false\\nsize=0\\n'; fi; if swapon --show=NAME --noheadings | grep -Fx ",
      "-- {{path}} >/dev/null 2>&1; then printf 'active=true\\n'; else printf ",
      "'active=false\\n'; fi"]

def swapManage : TaskDefinition :=
  dangerousTask "storage.swap_manage".toList .storage "管理 Swap".toList
    [enumParameter "action".toList "操作".toList
        ["create".toList, "enable".toList, "disable".toList, "remove".toList] none,
      absolutePathParameter "path".toList "Swap 文件".toList,
      integerParameter "sizeMiB".toList "容量 MiB".toList 64 32768 ⟨1024, by decide⟩]
    [dangerousImplementation "posix-swap".toList []
      ["swapon".toList, "swapoff".toList, "mkswap".toList, "stat".toList]
      (commandText [
        "swapon --show --bytes; grep -F -- {{path}} /etc/fstab || true; if test -e {{path}}; ",
        "then stat -- {{path}}; fi"])
      [backupItem "swap-state-before".toList .commandSnapshot swapSnapshot,
        backupItem "fstab-before".toList .remoteFile "/etc/fstab".toList]
      (commandText [
        "test ! -L {{path}} && case {{action}} in 'create') test ! -e {{path}} && case ",
        "{{path}} in '/var/lib/qingzhou/swap/'*) mkdir -p -- '/var/lib/qingzhou/swap';; esac ",
        "&& fallocate -l {{sizeMiB}}M -- {{path}} && chmod 0600 -- {{path}} && mkswap -- ",
        "{{path}} && swapon -- {{path}};; 'enable') test -f {{path}} && swapon -- {{path}};; ",
        "'disable') test -f {{path}} && swapoff -- {{path}};; 'remove') test -f {{path}} && ",
        "(swapoff -- {{path}} 2>/dev/null || true) && rm -f -- {{path}};; *) exit 64;; esac"])
      (commandText [
        "swapon --show --bytes; if test {{action}} = 'enable' -o {{action}} = 'create'; then ",
        "swapon --show=NAME --noheadings | grep -Fx -- {{path}}; else ! swapon --show=NAME ",
        "--noheadings | grep -Fx -- {{path}}; fi"])
      "{{restore:swap-state-before}}; {{restore:file:fstab-before}}".toList
      .keyValue]

def permissionsSnapshot : Text :=
  "test ! -L {{path}} && stat -Lc 'path=%n\\nuid=%u\\ngid=%g\\nmode=%a' -- {{path}}".toList

def filePermissions : TaskDefinition :=
  dangerousTask "security.file_permissions".toList .security "修改文件权限".toList
    [absolutePathParameter "path".toList "目标路径".toList,
      parameter "mode".toList "权限模式".toList .fileMode true none,
      parameter "uid".toList "用户 UID".toList (.integer 0 60000) false
        (some (.int ⟨0, by decide⟩)),
      parameter "gid".toList "用户组 GID".toList (.integer 0 60000) false
        (some (.int ⟨0, by decide⟩))]
    [dangerousImplementation "posix-stat".toList []
      ["stat".toList, "chmod".toList, "chown".toList]
      "test ! -L {{path}}; stat -Lc '%n %u %g %a %F' -- {{path}}".toList
      [backupItem "metadata-before".toList .runtimeState permissionsSnapshot]
      "test ! -L {{path}} && chown -- {{uid}}:{{gid}} {{path}} && chmod -- {{mode}} {{path}}".toList
      (commandText [
        "test ! -L {{path}}; test \"$(stat -Lc '%u:%g:%a' -- {{path}})\" = ",
        "{{uid}}:{{gid}}:{{mode}}"])
      "{{restore:metadata:metadata-before}}".toList
      .keyValue]

/-! ## §4. Firewall. -/

def firewalldSnapshot : Text :=
  commandText [
      "qz_id={{entryId}}; qz_port={{port}}; qz_protocol={{protocol}}; ",
      "qz_marker=\"qingzhou:$qz_id\"; qz_rule=\"0 -p $qz_protocol --dport $qz_port -m comment ",
      "--comment $qz_marker -j ACCEPT\"; qz_present=false; qz_owned=$(firewall-cmd ",
      "--permanent --direct --get-rules ipv4 filter INPUT | grep --fixed-strings -- ",
      "\"$qz_marker\" || true); if test -n \"$qz_owned\"; then test \"$qz_owned\" = ",
      "\"$qz_rule\" || exit 65; qz_present=true; fi; printf ",
      "'backend=firewalld\\nentryid=%s\\nport=%s\\nprotocol=%s\\npresent=%s\\n' \"$qz_id\" ",
      "\"$qz_port\" \"$qz_protocol\" \"$qz_present\""]

def firewalldAction : Text :=
  commandText [
      "qz_action={{action}}; qz_id={{entryId}}; qz_port={{port}}; qz_protocol={{protocol}}; ",
      "qz_marker=\"qingzhou:$qz_id\"; qz_rule=\"0 -p $qz_protocol --dport $qz_port -m comment ",
      "--comment $qz_marker -j ACCEPT\"; qz_owned=$(firewall-cmd --permanent --direct ",
      "--get-rules ipv4 filter INPUT | grep --fixed-strings -- \"$qz_marker\" || true); if ",
      "test -n \"$qz_owned\"; then test \"$qz_owned\" = \"$qz_rule\" || exit 65; fi; case ",
      "\"$qz_action\" in add) if test -z \"$qz_owned\"; then firewall-cmd --permanent ",
      "--direct --add-rule ipv4 filter INPUT 0 -p \"$qz_protocol\" --dport \"$qz_port\" -m ",
      "comment --comment \"$qz_marker\" -j ACCEPT || exit; fi;; remove) if test -n ",
      "\"$qz_owned\"; then firewall-cmd --permanent --direct --remove-rule ipv4 filter INPUT ",
      "0 -p \"$qz_protocol\" --dport \"$qz_port\" -m comment --comment \"$qz_marker\" -j ",
      "ACCEPT || exit; fi;; *) exit 64;; esac; firewall-cmd --reload"]

def firewalldVerify : Text :=
  commandText [
      "qz_action={{action}}; qz_id={{entryId}}; qz_port={{port}}; qz_protocol={{protocol}}; ",
      "qz_marker=\"qingzhou:$qz_id\"; qz_rule=\"0 -p $qz_protocol --dport $qz_port -m comment ",
      "--comment $qz_marker -j ACCEPT\"; qz_owned=$(firewall-cmd --permanent --direct ",
      "--get-rules ipv4 filter INPUT | grep --fixed-strings -- \"$qz_marker\" || true); case ",
      "\"$qz_action\" in add) test \"$qz_owned\" = \"$qz_rule\";; remove) test -z ",
      "\"$qz_owned\";; *) exit 64;; esac"]

def ufwSnapshot : Text :=
  commandText [
      "qz_id={{entryId}}; qz_port={{port}}; qz_protocol={{protocol}}; ",
      "qz_marker=\"qingzhou:$qz_id\"; qz_present=false; qz_rows=$(ufw status numbered | awk ",
      "-v marker=\"$qz_marker\" 'index($0, marker) \x7b print \x7d'); if test -n ",
      "\"$qz_rows\"; then test \"$(printf '%s\\n' \"$qz_rows\" | awk 'NF \x7b count++ \x7d ",
      "END \x7b print count + 0 \x7d')\" -eq 1; printf '%s\\n' \"$qz_rows\" | awk -v ",
      "port=\"$qz_port/$qz_protocol\" 'index($0, port) \x7b found=1 \x7d END \x7b exit !found ",
      "\x7d'; qz_present=true; fi; printf ",
      "'backend=ufw\\nentryid=%s\\nport=%s\\nprotocol=%s\\npresent=%s\\n' \"$qz_id\" ",
      "\"$qz_port\" \"$qz_protocol\" \"$qz_present\""]

def ufwAction : Text :=
  commandText [
      "qz_action={{action}}; qz_id={{entryId}}; qz_port={{port}}; qz_protocol={{protocol}}; ",
      "qz_marker=\"qingzhou:$qz_id\"; qz_rows=$(ufw status numbered | awk -v ",
      "marker=\"$qz_marker\" 'index($0, marker) \x7b print \x7d'); if test -n \"$qz_rows\"; ",
      "then test \"$(printf '%s\\n' \"$qz_rows\" | awk 'NF \x7b count++ \x7d END \x7b print ",
      "count + 0 \x7d')\" -eq 1; printf '%s\\n' \"$qz_rows\" | awk -v ",
      "port=\"$qz_port/$qz_protocol\" 'index($0, port) \x7b found=1 \x7d END \x7b exit !found ",
      "\x7d'; fi; case \"$qz_action\" in add) test -n \"$qz_rows\" || ufw allow ",
      "\"$qz_port/$qz_protocol\" comment \"$qz_marker\";; remove) if test -n \"$qz_rows\"; ",
      "then qz_number=$(printf '%s\\n' \"$qz_rows\" | sed -n ",
      "'s/^\\[[[:space:]]*\\([0-9][0-9]*\\)\\].*/\\1/p'); test -n \"$qz_number\" && ufw ",
      "--force delete \"$qz_number\"; fi;; *) exit 64;; esac"]

def ufwVerify : Text :=
  commandText [
      "qz_action={{action}}; qz_id={{entryId}}; qz_port={{port}}; qz_protocol={{protocol}}; ",
      "qz_marker=\"qingzhou:$qz_id\"; qz_rows=$(ufw status numbered | awk -v ",
      "marker=\"$qz_marker\" 'index($0, marker) \x7b print \x7d'); case \"$qz_action\" in ",
      "add) test \"$(printf '%s\\n' \"$qz_rows\" | awk 'NF \x7b count++ \x7d END \x7b print ",
      "count + 0 \x7d')\" -eq 1 && printf '%s\\n' \"$qz_rows\" | awk -v ",
      "port=\"$qz_port/$qz_protocol\" 'index($0, port) \x7b found=1 \x7d END \x7b exit !found ",
      "\x7d';; remove) test -z \"$qz_rows\";; *) exit 64;; esac"]

def nftSnapshot : Text :=
  commandText [
      "qz_id={{entryId}}; qz_port={{port}}; qz_protocol={{protocol}}; ",
      "qz_marker=\"qingzhou:$qz_id\"; qz_present=false; qz_rows=$(nft -a list chain inet ",
      "qingzhou input 2>/dev/null | awk -v marker=\"$qz_marker\" 'index($0, marker) \x7b ",
      "print \x7d'); if test -n \"$qz_rows\"; then test \"$(printf '%s\\n' \"$qz_rows\" | awk ",
      "'NF \x7b count++ \x7d END \x7b print count + 0 \x7d')\" -eq 1; printf '%s\\n' ",
      "\"$qz_rows\" | awk -v protocol=\"$qz_protocol\" -v port=\"$qz_port\" 'index($0, ",
      "protocol \" dport \" port) \x7b found=1 \x7d END \x7b exit !found \x7d'; ",
      "qz_present=true; fi; printf ",
      "'backend=nftables\\nentryid=%s\\nport=%s\\nprotocol=%s\\npresent=%s\\n' \"$qz_id\" ",
      "\"$qz_port\" \"$qz_protocol\" \"$qz_present\""]

def nftAction : Text :=
  commandText [
      "qz_action={{action}}; qz_id={{entryId}}; qz_port={{port}}; qz_protocol={{protocol}}; ",
      "qz_marker=\"qingzhou:$qz_id\"; qz_rows=$(nft -a list chain inet qingzhou input ",
      "2>/dev/null | awk -v marker=\"$qz_marker\" 'index($0, marker) \x7b print \x7d'); if ",
      "test -n \"$qz_rows\"; then test \"$(printf '%s\\n' \"$qz_rows\" | awk 'NF \x7b count++ ",
      "\x7d END \x7b print count + 0 \x7d')\" -eq 1; printf '%s\\n' \"$qz_rows\" | awk -v ",
      "protocol=\"$qz_protocol\" -v port=\"$qz_port\" 'index($0, protocol \" dport \" port) ",
      "\x7b found=1 \x7d END \x7b exit !found \x7d'; fi; case \"$qz_action\" in add) if test ",
      "-z \"$qz_rows\"; then nft list table inet qingzhou >/dev/null 2>&1 || nft add table ",
      "inet qingzhou; nft list chain inet qingzhou input >/dev/null 2>&1 || nft 'add chain ",
      "inet qingzhou input \x7b type filter hook input priority 0; \x7d'; nft add rule inet ",
      "qingzhou input \"$qz_protocol\" dport \"$qz_port\" counter accept comment ",
      "\"$qz_marker\"; fi;; remove) if test -n \"$qz_rows\"; then qz_handle=$(printf '%s\\n' ",
      "\"$qz_rows\" | awk '\x7b for (i=1; i<=NF; i++) if ($i == \"handle\") \x7b print ",
      "$(i+1); exit \x7d \x7d'); test -n \"$qz_handle\" && nft delete rule inet qingzhou ",
      "input handle \"$qz_handle\"; fi;; *) exit 64;; esac"]

def nftVerify : Text :=
  commandText [
      "qz_action={{action}}; qz_id={{entryId}}; qz_port={{port}}; qz_protocol={{protocol}}; ",
      "qz_marker=\"qingzhou:$qz_id\"; qz_rows=$(nft -a list chain inet qingzhou input ",
      "2>/dev/null | awk -v marker=\"$qz_marker\" 'index($0, marker) \x7b print \x7d'); case ",
      "\"$qz_action\" in add) test \"$(printf '%s\\n' \"$qz_rows\" | awk 'NF \x7b count++ ",
      "\x7d END \x7b print count + 0 \x7d')\" -eq 1 && printf '%s\\n' \"$qz_rows\" | awk -v ",
      "protocol=\"$qz_protocol\" -v port=\"$qz_port\" 'index($0, protocol \" dport \" port) ",
      "\x7b found=1 \x7d END \x7b exit !found \x7d';; remove) test -z \"$qz_rows\";; *) exit ",
      "64;; esac"]

def iptablesSnapshot : Text :=
  commandText [
      "qz_id={{entryId}}; qz_port={{port}}; qz_protocol={{protocol}}; ",
      "qz_marker=\"qingzhou:$qz_id\"; qz_present=false; if iptables -C INPUT -p ",
      "\"$qz_protocol\" --dport \"$qz_port\" -m comment --comment \"$qz_marker\" -j ACCEPT ",
      ">/dev/null 2>&1; then qz_present=true; fi; printf ",
      "'backend=iptables\\nentryid=%s\\nport=%s\\nprotocol=%s\\npresent=%s\\n' \"$qz_id\" ",
      "\"$qz_port\" \"$qz_protocol\" \"$qz_present\""]

def iptablesAction : Text :=
  commandText [
      "qz_action={{action}}; qz_id={{entryId}}; qz_port={{port}}; qz_protocol={{protocol}}; ",
      "qz_marker=\"qingzhou:$qz_id\"; case \"$qz_action\" in add) iptables -C INPUT -p ",
      "\"$qz_protocol\" --dport \"$qz_port\" -m comment --comment \"$qz_marker\" -j ACCEPT ",
      ">/dev/null 2>&1 || iptables -I INPUT -p \"$qz_protocol\" --dport \"$qz_port\" -m ",
      "comment --comment \"$qz_marker\" -j ACCEPT;; remove) if iptables -C INPUT -p ",
      "\"$qz_protocol\" --dport \"$qz_port\" -m comment --comment \"$qz_marker\" -j ACCEPT ",
      ">/dev/null 2>&1; then iptables -D INPUT -p \"$qz_protocol\" --dport \"$qz_port\" -m ",
      "comment --comment \"$qz_marker\" -j ACCEPT; fi;; *) exit 64;; esac"]

def iptablesVerify : Text :=
  commandText [
      "qz_action={{action}}; qz_id={{entryId}}; qz_port={{port}}; qz_protocol={{protocol}}; ",
      "qz_marker=\"qingzhou:$qz_id\"; case \"$qz_action\" in add) iptables -C INPUT -p ",
      "\"$qz_protocol\" --dport \"$qz_port\" -m comment --comment \"$qz_marker\" -j ACCEPT;; ",
      "remove) ! iptables -C INPUT -p \"$qz_protocol\" --dport \"$qz_port\" -m comment ",
      "--comment \"$qz_marker\" -j ACCEPT >/dev/null 2>&1;; *) exit 64;; esac"]

def firewallImplementation (id : Text) (requiredCommands : List Text)
    (preview snapshot execute verify : Text) : TaskImplementation :=
  dangerousImplementation id [] requiredCommands preview
    [backupItem "firewall-before".toList .commandSnapshot snapshot]
    execute verify "{{restore:firewall:firewall-before}}".toList .keyValue

def firewallOpenPort : TaskDefinition :=
  dangerousTask "security.firewall_open_port".toList .security "管理防火墙端口".toList
    [enumParameter "action".toList "操作".toList ["add".toList, "remove".toList] none,
      parameter "entryId".toList "规则标识".toList .managedId true none,
      portParameter "port".toList "端口".toList true none,
      enumParameter "protocol".toList "协议".toList ["tcp".toList, "udp".toList]
        (some "tcp".toList)]
    [firewallImplementation "firewalld".toList ["firewall-cmd".toList, "grep".toList]
        firewalldSnapshot firewalldSnapshot firewalldAction firewalldVerify,
      firewallImplementation "ufw".toList ["ufw".toList, "awk".toList, "sed".toList]
        ufwSnapshot ufwSnapshot ufwAction ufwVerify,
      firewallImplementation "nftables".toList ["nft".toList, "awk".toList]
        nftSnapshot nftSnapshot nftAction nftVerify,
      firewallImplementation "iptables".toList ["iptables".toList]
        iptablesSnapshot iptablesSnapshot iptablesAction iptablesVerify]

/-! ## §5. Services and scheduled tasks. -/

def systemctlSnapshot : Text :=
  commandText [
      "qz_active=$(systemctl is-active -- {{service}} 2>/dev/null || true); ",
      "qz_enabled=$(systemctl is-enabled -- {{service}} 2>/dev/null || true); printf ",
      "'manager=systemd\\nservice=%s\\nactive=%s\\nenabled=%s\\n' {{service}} \"$qz_active\" ",
      "\"$qz_enabled\""]

def serviceSnapshot : Text :=
  commandText [
      "if service {{service}} status >/dev/null 2>&1; then qz_active=active; else ",
      "qz_active=inactive; fi; printf ",
      "'manager=service\\nservice=%s\\nactive=%s\\nenabled=unsupported\\n' {{service}} ",
      "\"$qz_active\""]

def serviceSnapshotCommand (executable : Text) : Text :=
  if executable = "systemctl".toList then systemctlSnapshot else serviceSnapshot

def serviceActionImplementation (id manager executable action : Text) : TaskImplementation :=
  let systemctl := executable = "systemctl".toList
  let preview :=
    if systemctl then
      (commandText [
        "systemctl show --no-pager -p ActiveState -p SubState -p UnitFileState -- ",
        "{{service}}; systemctl status --no-pager --lines=20 -- {{service}} 2>&1 || true"])
    else "service {{service}} status 2>&1 || true".toList
  let execute :=
    if systemctl then "systemctl ".toList ++ action ++ " -- {{service}}".toList
    else "service {{service}} ".toList ++ action
  let verify :=
    if systemctl then
      if action = "stop".toList then
        "test \"$(systemctl is-active -- {{service}} 2>/dev/null || true)\" = inactive".toList
      else "test \"$(systemctl is-active -- {{service}} 2>/dev/null || true)\" = active".toList
    else if action = "stop".toList then "! service {{service}} status >/dev/null 2>&1".toList
    else "service {{service}} status".toList
  dangerousImplementation (id ++ '-' :: action) [manager] [executable] preview
    [backupItem "service-state-before".toList .runtimeState (serviceSnapshotCommand executable)]
    execute verify "{{restore:service:service-state-before}}".toList .serviceStatus

def serviceAction (id title action : Text) : TaskDefinition :=
  dangerousTask id .service title [serviceParameter]
    [serviceActionImplementation "systemd".toList "systemd".toList "systemctl".toList action,
      serviceActionImplementation "service".toList "service".toList "service".toList action]

def serviceStart : TaskDefinition :=
  serviceAction "service.start".toList "启动服务".toList "start".toList

def serviceStop : TaskDefinition :=
  serviceAction "service.stop".toList "停止服务".toList "stop".toList

def serviceRestart : TaskDefinition :=
  serviceAction "service.restart".toList "重启服务".toList "restart".toList

def serviceBootPolicy : TaskDefinition :=
  dangerousTask "service.boot_policy".toList .service "设置服务开机策略".toList
    [serviceParameter,
      enumParameter "policy".toList "开机策略".toList ["enable".toList, "disable".toList] none]
    [dangerousImplementation "systemd-boot-policy".toList ["systemd".toList]
      ["systemctl".toList]
      "systemctl show --no-pager -p UnitFileState -p ActiveState -- {{service}}".toList
      [backupItem "boot-policy-before".toList .runtimeState
        (serviceSnapshotCommand "systemctl".toList)]
      "systemctl {{policy}} -- {{service}}".toList
      (commandText [
        "qz_policy={{policy}}; case \"$qz_policy\" in enable) qz_expected=enabled;; disable) ",
        "qz_expected=disabled;; *) exit 64;; esac; test \"$(systemctl is-enabled -- ",
        "{{service}} 2>/dev/null || true)\" = \"$qz_expected\""])
      "{{restore:service-policy:boot-policy-before}}".toList
      .serviceStatus]

def cronActionCommand : Text :=
  commandText [
      "qz_action={{action}}; qz_schedule={{schedule}}; qz_task={{task}}; qz_id={{entryId}}; ",
      "qz_target=/etc/cron.d/qingzhou-managed; qz_marker=\"# qingzhou:$qz_id\"; test ! -L ",
      "\"$qz_target\"; if test -e \"$qz_target\"; then test -f \"$qz_target\"; fi; ",
      "qz_count=$(if test -f \"$qz_target\"; then awk -v marker=\"$qz_marker\" 'length($0) >= ",
      "length(marker) && substr($0, length($0) - length(marker) + 1) == marker \x7b count++ ",
      "\x7d END \x7b print count + 0 \x7d' \"$qz_target\"; else printf '0\\n'; fi); test ",
      "\"$qz_count\" -le 1; case \"$qz_action\" in add) ;; disable|remove) test \"$qz_count\" ",
      "-eq 1;; *) exit 64;; esac; case \"$qz_task\" in system.overview) qz_command='uptime >> ",
      "/var/log/qingzhou-system-overview.log 2>&1';; system.disk_usage) qz_command='df -hP >> ",
      "/var/log/qingzhou-disk-usage.log 2>&1';; *) exit 64;; esac; qz_tmp=$(mktemp ",
      "/etc/cron.d/.qingzhou-managed.XXXXXX) || exit; cleanup() \x7b rm -f -- \"$qz_tmp\"; ",
      "\x7d; trap cleanup EXIT HUP INT TERM; if test -f \"$qz_target\"; then awk -v ",
      "marker=\"$qz_marker\" 'length($0) < length(marker) || substr($0, length($0) - ",
      "length(marker) + 1) != marker \x7b print \x7d' \"$qz_target\" > \"$qz_tmp\" || exit; ",
      "fi; case \"$qz_action\" in add) printf '%s root %s %s\\n' \"$qz_schedule\" ",
      "\"$qz_command\" \"$qz_marker\" >> \"$qz_tmp\";; disable) qz_line=$(awk -v ",
      "marker=\"$qz_marker\" 'length($0) >= length(marker) && substr($0, length($0) - ",
      "length(marker) + 1) == marker \x7b print; exit \x7d' \"$qz_target\"); case ",
      "\"$qz_line\" in '# disabled '*) printf '%s\\n' \"$qz_line\" >> \"$qz_tmp\";; *) printf ",
      "'# disabled %s\\n' \"$qz_line\" >> \"$qz_tmp\";; esac;; remove) :;; esac; test \"$(wc ",
      "-c < \"$qz_tmp\")\" -le 65536; awk 'BEGIN \x7b ok=1 \x7d /^[[:space:]]*($|#)/ \x7b ",
      "next \x7d /^[A-Z_][A-Z0-9_]*=/ \x7b next \x7d NF < 7 \x7b ok=0 \x7d END \x7b exit ok ? ",
      "0 : 1 \x7d' \"$qz_tmp\"; chown root:root \"$qz_tmp\" && chmod 0644 \"$qz_tmp\" && mv ",
      "-f -- \"$qz_tmp\" \"$qz_target\"; qz_tmp=''; trap - EXIT HUP INT TERM"]

def cronVerifyCommand : Text :=
  commandText [
      "qz_action={{action}}; qz_id={{entryId}}; qz_target=/etc/cron.d/qingzhou-managed; ",
      "qz_marker=\"# qingzhou:$qz_id\"; test ! -L \"$qz_target\" && test -f \"$qz_target\"; ",
      "qz_line=$(awk -v marker=\"$qz_marker\" 'length($0) >= length(marker) && substr($0, ",
      "length($0) - length(marker) + 1) == marker \x7b print \x7d' \"$qz_target\"); ",
      "qz_count=$(printf '%s\\n' \"$qz_line\" | awk 'NF \x7b count++ \x7d END \x7b print ",
      "count + 0 \x7d'); case \"$qz_action\" in add) test \"$qz_count\" -eq 1; case ",
      "\"$qz_line\" in '#'* ) exit 1;; *) exit 0;; esac;; disable) test \"$qz_count\" -eq 1; ",
      "case \"$qz_line\" in '# disabled '*) exit 0;; *) exit 1;; esac;; remove) test ",
      "\"$qz_count\" -eq 0;; *) exit 64;; esac"]

def cronManage : TaskDefinition :=
  dangerousTask "service.cron_manage".toList .service "管理计划任务".toList
    [enumParameter "action".toList "操作".toList
        ["add".toList, "disable".toList, "remove".toList] none,
      parameter "schedule".toList "执行周期".toList .cronExpression false
        (some (.string "0 2 * * *".toList)),
      parameter "entryId".toList "任务标识".toList .managedId true none,
      enumParameter "task".toList "受控任务".toList
        ["system.overview".toList, "system.disk_usage".toList] (some "system.overview".toList)]
    [dangerousImplementation "managed-cron-file".toList []
      ["awk".toList, "sed".toList, "mktemp".toList, "wc".toList, "chown".toList, "chmod".toList,
        "mv".toList, "rm".toList]
      (commandText [
        "if test -f /etc/cron.d/qingzhou-managed; then sed -n '1,300p' ",
        "/etc/cron.d/qingzhou-managed; fi"])
      [backupItem "cron-managed-before".toList .managedBlock
        "/etc/cron.d/qingzhou-managed".toList]
      cronActionCommand cronVerifyCommand "{{restore:file:cron-managed-before}}".toList .text]

/-! ## §6. Containers. -/

def containerSnapshotCommand (runtime : Text) : Text :=
  "qz_format=$(printf '\x7b%s\x7d' '\x7b.State.Status\x7d'); qz_state=$(".toList
    ++ runtime ++ commandText [
      " inspect --format \"$qz_format\" -- {{container}}) || exit; case \"$qz_state\" in ",
      "exited|stopped) qz_state=stopped;; running|paused) :;; *) exit 65;; esac; printf ",
      "'runtime="]
    ++ runtime ++ "\\ncontainer=%s\\nstate=%s\\n' {{container}} \"$qz_state\"".toList

def containerVerifyCommand (runtime : Text) : Text :=
  commandText [
      "qz_action={{action}}; qz_format=$(printf '\x7b%s\x7d' '\x7b.State.Status\x7d'); ",
      "qz_state=$("]
    ++ runtime ++ commandText [
      " inspect --format \"$qz_format\" -- {{container}}) || exit; case ",
      "\"$qz_action:$qz_state\" in ",
      "start:running|restart:running|stop:exited|stop:stopped|pause:paused|unpause:running) ",
      "exit 0;; *) printf 'expected action=%s, actual state=%s\\n' \"$qz_action\" ",
      "\"$qz_state\" >&2; exit 1;; esac"]

def containerImplementation (runtime : Text) : TaskImplementation :=
  dangerousImplementation runtime [] [runtime]
    (runtime ++ " inspect -- {{container}}".toList)
    [backupItem "container-state-before".toList .runtimeState (containerSnapshotCommand runtime)]
    (runtime ++ " {{action}} -- {{container}}".toList)
    (containerVerifyCommand runtime)
    ("\x7b\x7brestore:container:".toList ++ runtime ++ ":container-state-before\x7d\x7d".toList)
    .containerStatus

def containerAction : TaskDefinition :=
  dangerousTask "container.action".toList .container "控制容器状态".toList
    [containerParameter,
      enumParameter "action".toList "容器动作".toList
        ["start".toList, "stop".toList, "restart".toList, "pause".toList, "unpause".toList] none]
    [containerImplementation "docker".toList, containerImplementation "podman".toList]

/-! ## §7. Network. -/

def hostsActionCommand : Text :=
  commandText [
      "qz_action={{action}}; qz_address={{address}}; qz_hostname={{hostname}}; ",
      "qz_id={{entryId}}; qz_target=/etc/hosts; qz_marker=\"# qingzhou:$qz_id\"; test ! -L ",
      "\"$qz_target\" && test -f \"$qz_target\"; qz_count=$(awk -v marker=\"$qz_marker\" ",
      "'length($0) >= length(marker) && substr($0, length($0) - length(marker) + 1) == marker ",
      "\x7b count++ \x7d END \x7b print count + 0 \x7d' \"$qz_target\"); test \"$qz_count\" ",
      "-le 1; case \"$qz_action\" in add) :;; remove) test \"$qz_count\" -eq 1; ",
      "qz_owned=$(awk -v marker=\"$qz_marker\" 'length($0) >= length(marker) && substr($0, ",
      "length($0) - length(marker) + 1) == marker \x7b print; exit \x7d' \"$qz_target\"); ",
      "test \"$qz_owned\" = \"$qz_address $qz_hostname $qz_marker\";; *) exit 64;; esac; ",
      "qz_uid=$(stat -Lc %u -- \"$qz_target\") && qz_gid=$(stat -Lc %g -- \"$qz_target\") && ",
      "qz_mode=$(stat -Lc %a -- \"$qz_target\") || exit; qz_tmp=$(mktemp ",
      "/etc/.qingzhou-hosts.XXXXXX) || exit; cleanup() \x7b rm -f -- \"$qz_tmp\"; \x7d; trap ",
      "cleanup EXIT HUP INT TERM; awk -v marker=\"$qz_marker\" 'length($0) < length(marker) ",
      "|| substr($0, length($0) - length(marker) + 1) != marker \x7b print \x7d' ",
      "\"$qz_target\" > \"$qz_tmp\" || exit; if test \"$qz_action\" = add; then printf '%s %s ",
      "%s\\n' \"$qz_address\" \"$qz_hostname\" \"$qz_marker\" >> \"$qz_tmp\"; fi; test \"$(wc ",
      "-c < \"$qz_tmp\")\" -le 1048576; chown \"$qz_uid:$qz_gid\" \"$qz_tmp\" && chmod ",
      "\"$qz_mode\" \"$qz_tmp\" && mv -f -- \"$qz_tmp\" \"$qz_target\"; qz_tmp=''; trap - ",
      "EXIT HUP INT TERM"]

def hostsVerifyCommand : Text :=
  commandText [
      "qz_action={{action}}; qz_address={{address}}; qz_hostname={{hostname}}; ",
      "qz_id={{entryId}}; qz_target=/etc/hosts; qz_marker=\"# qingzhou:$qz_id\"; test ! -L ",
      "\"$qz_target\" && test -f \"$qz_target\"; qz_line=$(awk -v marker=\"$qz_marker\" ",
      "'length($0) >= length(marker) && substr($0, length($0) - length(marker) + 1) == marker ",
      "\x7b print \x7d' \"$qz_target\"); qz_count=$(printf '%s\\n' \"$qz_line\" | awk 'NF ",
      "\x7b count++ \x7d END \x7b print count + 0 \x7d'); case \"$qz_action\" in add) test ",
      "\"$qz_count\" -eq 1 && test \"$qz_line\" = \"$qz_address $qz_hostname $qz_marker\";; ",
      "remove) test \"$qz_count\" -eq 0;; *) exit 64;; esac; getent hosts \"$qz_hostname\" ",
      ">/dev/null 2>&1 || test \"$qz_action\" = remove"]

def hostsManage : TaskDefinition :=
  dangerousTask "network.hosts_manage".toList .network "管理 Hosts 映射".toList
    [enumParameter "action".toList "操作".toList ["add".toList, "remove".toList] none,
      parameter "entryId".toList "映射标识".toList .managedId true none,
      hostParameter "address".toList "IP 地址".toList true,
      hostParameter "hostname".toList "主机名".toList true]
    [dangerousImplementation "hosts-managed-block".toList []
      ["getent".toList, "sed".toList, "awk".toList, "mktemp".toList, "stat".toList,
        "chown".toList, "chmod".toList, "mv".toList, "rm".toList, "wc".toList]
      "test ! -L /etc/hosts; sed -n '1,300p' /etc/hosts; getent hosts {{hostname}} || true".toList
      [backupItem "hosts-before".toList .remoteFile "/etc/hosts".toList]
      hostsActionCommand hostsVerifyCommand "{{restore:file:hosts-before}}".toList
      .networkProbe]

def networkSnapshotCommand : Text :=
  commandText [
      "qz_interface={{interface}}; qz_addresses=$(ip -o address show dev \"$qz_interface\" ",
      "scope global | awk 'BEGIN \x7b sep=\"\" \x7d \x7b printf \"%s%s\", sep, $4; sep=\",\" ",
      "\x7d END \x7b if (sep == \"\") printf \"none\" \x7d'); qz_gateway4=$(ip -4 route show ",
      "default dev \"$qz_interface\" | awk '\x7b for (i=1; i<=NF; i++) if ($i == \"via\") ",
      "\x7b print $(i+1); found=1; exit \x7d \x7d END \x7b if (!found) print \"none\" \x7d'); ",
      "qz_gateway6=$(ip -6 route show default dev \"$qz_interface\" | awk '\x7b for (i=1; ",
      "i<=NF; i++) if ($i == \"via\") \x7b print $(i+1); found=1; exit \x7d \x7d END \x7b if ",
      "(!found) print \"none\" \x7d'); printf ",
      "'interface=%s\\naddresses=%s\\ngatewayfour=%s\\ngatewaysix=%s\\n' \"$qz_interface\" ",
      "\"$qz_addresses\" \"$qz_gateway4\" \"$qz_gateway6\""]

def networkManagerSnapshotCommand : Text :=
  commandText [
      "qz_interface={{interface}}; qz_connection=$(nmcli -t -g GENERAL.CONNECTION device show ",
      "\"$qz_interface\" | sed -n '1p'); test -n \"$qz_connection\" && test ",
      "\"$qz_connection\" != --; qz_encode() \x7b printf '%s' \"$1\" | base64 | tr -d '\\n'; ",
      "\x7d; qz_values=$(nmcli -g ",
      "ipv4.method,ipv4.addresses,ipv4.gateway,ipv6.method,ipv6.addresses,ipv6.gateway ",
      "connection show \"$qz_connection\"); printf ",
      "'backend=networkmanager\\ninterface=%s\\nconnectionb=%s\\nipfourmethodb=%s\\nipfouraddressesb=%s\\nipfourgatewayb=%s\\nipsixmethodb=%s\\nipsixaddressesb=%s\\nipsixgatewayb=%s\\n' ",
      "\"$qz_interface\" \"$(qz_encode \"$qz_connection\")\" \"$(printf '%s\\n' ",
      "\"$qz_values\" | sed -n '1p' | base64 | tr -d '\\n')\" \"$(printf '%s\\n' ",
      "\"$qz_values\" | sed -n '2p' | base64 | tr -d '\\n')\" \"$(printf '%s\\n' ",
      "\"$qz_values\" | sed -n '3p' | base64 | tr -d '\\n')\" \"$(printf '%s\\n' ",
      "\"$qz_values\" | sed -n '4p' | base64 | tr -d '\\n')\" \"$(printf '%s\\n' ",
      "\"$qz_values\" | sed -n '5p' | base64 | tr -d '\\n')\" \"$(printf '%s\\n' ",
      "\"$qz_values\" | sed -n '6p' | base64 | tr -d '\\n')\""]

/-- The commands of this task are placeholders: the protected network service runs it. -/
def protectedServiceCommand : Text :=
  "printf '%s\n' '__QZ_ERROR__ protected_network_service_required'; exit 65".toList

def ipImplementation (id : Text) (requiredCommands : List Text)
    (backupItems : List BackupItemDefinition) : TaskImplementation :=
  { dangerousImplementation id [] requiredCommands networkSnapshotCommand backupItems
      protectedServiceCommand protectedServiceCommand
      "{{restore:network:network-before}}".toList .networkProbe with
    executionSteps :=
      [boundedStep "arm-rollback".toList "安排超时自动恢复".toList 45 protectedServiceCommand,
        boundedStep "apply-network".toList "暂存新网络地址".toList 45 protectedServiceCommand] }

def networkBefore : BackupItemDefinition :=
  backupItem "network-before".toList .commandSnapshot networkSnapshotCommand

def networkManagerBefore : BackupItemDefinition :=
  backupItem "network-manager-before".toList .runtimeState networkManagerSnapshotCommand

def netplanBefore : BackupItemDefinition :=
  backupItem "netplan-managed-before".toList .remoteFile "/etc/netplan/99-qingzhou.yaml".toList

def ifcfgBefore : BackupItemDefinition :=
  backupItem "ifcfg-before".toList .remoteFile
    "/etc/sysconfig/network-scripts/ifcfg-{{interface}}".toList

def ipChange : TaskDefinition :=
  dangerousTask "network.ip_change".toList .network "修改 IP 地址".toList
    [interfaceParameter "interface".toList "网络接口".toList,
      parameter "cidr".toList "新地址".toList .cidr true none,
      hostParameter "gateway".toList "默认网关".toList true,
      integerParameter "rollbackSeconds".toList "自动恢复等待秒数".toList 60 300
        ⟨120, by decide⟩]
    [ipImplementation "network-manager-systemd-run".toList
        ["ip".toList, "awk".toList, "nmcli".toList, "systemd-run".toList, "systemctl".toList,
          "base64".toList, "sha256sum".toList, "stat".toList, "id".toList, "mkdir".toList,
          "chmod".toList, "sed".toList, "tr".toList]
        [networkBefore, networkManagerBefore],
      ipImplementation "network-manager-at".toList
        ["ip".toList, "awk".toList, "nmcli".toList, "at".toList, "atq".toList, "atrm".toList,
          "base64".toList, "sha256sum".toList, "stat".toList, "id".toList, "mkdir".toList,
          "chmod".toList, "sed".toList, "tr".toList]
        [networkBefore, networkManagerBefore],
      ipImplementation "netplan-systemd-run".toList
        ["ip".toList, "awk".toList, "netplan".toList, "systemd-run".toList, "systemctl".toList,
          "base64".toList, "sha256sum".toList, "stat".toList, "id".toList, "mkdir".toList,
          "chmod".toList, "sed".toList, "mv".toList, "rm".toList]
        [networkBefore, netplanBefore],
      ipImplementation "netplan-at".toList
        ["ip".toList, "awk".toList, "netplan".toList, "at".toList, "atq".toList, "atrm".toList,
          "base64".toList, "sha256sum".toList, "stat".toList, "id".toList, "mkdir".toList,
          "chmod".toList, "sed".toList, "mv".toList, "rm".toList]
        [networkBefore, netplanBefore],
      ipImplementation "legacy-ifcfg-systemd-run".toList
        ["ip".toList, "awk".toList, "systemd-run".toList, "systemctl".toList, "base64".toList,
          "sha256sum".toList, "stat".toList, "id".toList, "mkdir".toList, "chmod".toList,
          "sed".toList, "mv".toList, "rm".toList, "chown".toList]
        [networkBefore, ifcfgBefore],
      ipImplementation "legacy-ifcfg-at".toList
        ["ip".toList, "awk".toList, "at".toList, "atq".toList, "atrm".toList, "base64".toList,
          "sha256sum".toList, "stat".toList, "id".toList, "mkdir".toList, "chmod".toList,
          "sed".toList, "mv".toList, "rm".toList, "chown".toList]
        [networkBefore, ifcfgBefore]]

/-! ## §8. The tasks with a recovery policy. -/

def recoverable : List TaskDefinition :=
  [hostnameChange, timezoneChange, timeSyncChange, swapManage, hostsManage, ipChange,
    filePermissions, firewallOpenPort, serviceStart, serviceStop, serviceRestart,
    serviceBootPolicy, cronManage, containerAction]

/-! ## §9. Read-only tasks. -/

def searchStep : TaskStep :=
  boundedStep "execute".toList "执行任务".toList 30
    "grep -n -F -- {{keyword}} {{path}} | head -n {{limit}}".toList

def logsSearch : TaskDefinition :=
  { id := "logs.search".toList, version := 2, category := .logs, title := "日志检索".toList,
    riskLevel := .caution, privilege := .currentUser, scope := .singleServer,
    parameters :=
      [parameter "path".toList "日志路径".toList .absolutePath true none,
        stringParameter "keyword".toList "关键词".toList 1 512,
        parameter "caseSensitive".toList "区分大小写".toList .boolean false
          (some (.bool false)),
        integerParameter "context".toList "上下文".toList 0 20 ⟨2, by decide⟩,
        integerParameter "limit".toList "结果上限".toList 1 10000 ⟨1000, by decide⟩],
    implementations :=
      [{ id := "grep".toList,
         compatibility := { osFamilies := supportedFamilies, serviceManagers := [],
                            requiredCommands := ["grep".toList] },
         preflightSteps := [],
         previewSteps := [boundedStep "preview".toList "执行预演".toList 30
           "grep -n -F -- {{keyword}} {{path}} | head -n {{limit}}".toList],
         backupPlan := none,
         executionSteps := [searchStep],
         verifySteps := [], rollbackPlan := none, resultParser := .text }] }

def interfaceHealth : TaskDefinition :=
  readOnlyTask "network.interface_health".toList .network "网卡健康".toList []
    [readOnlyImplementation "iproute2".toList ["ip".toList]
      [boundedStep "collect".toList "采集网络诊断".toList 30
        (commandText [
          "printf '== links ==\\n'; ip -brief link; printf '== addresses ==\\n'; ip -brief ",
          "address; printf '== counters ==\\n'; ip -s link"])]
      .healthSummary]

def healthBaseline : TaskDefinition :=
  readOnlyTask "runbook.health.baseline".toList .advanced "综合健康巡检".toList []
    [readOnlyImplementation "posix".toList
      ["uname".toList, "uptime".toList, "df".toList, "ps".toList, "head".toList]
      [boundedStep "system".toList "系统与运行时间".toList 30
          (commandText [
            "uname -a; uptime; if test -r /etc/os-release; then sed -n '1,20p' ",
            "/etc/os-release; fi; if command -v free >/dev/null 2>&1; then free -b; fi"]),
        boundedStep "resources".toList "CPU 与内存热点".toList 30
          (commandText [
            "ps -eo pid,user,%cpu,%mem,rss,etime,args --sort=-%cpu | head -n 31; if test -r ",
            "/proc/pressure/cpu; then cat /proc/pressure/cpu; fi; if test -r ",
            "/proc/pressure/memory; then cat /proc/pressure/memory; fi"]),
        boundedStep "storage".toList "容量与挂载".toList 30
          (commandText [
            "df -P -B1; df -Pi; if command -v findmnt >/dev/null 2>&1; then findmnt -rn -o ",
            "TARGET,SOURCE,FSTYPE,OPTIONS | head -n 300; fi"]),
        boundedStep "network".toList "地址、路由与监听".toList 30
          (commandText [
            "if command -v ip >/dev/null 2>&1; then ip -brief address; ip route show table ",
            "main; fi; if command -v ss >/dev/null 2>&1; then ss -s; ss -H -lntup | head -n ",
            "200; fi"]),
        boundedStep "services".toList "失败服务".toList 30
          (commandText [
            "if command -v systemctl >/dev/null 2>&1; then systemctl list-units ",
            "--state=failed --type=service --no-legend --no-pager | head -n 100; elif command ",
            "-v service >/dev/null 2>&1; then service --status-all 2>&1 | head -n 200; fi"])]
      .healthSummary]

end QingzhouSSH.Core.Tasks.Catalog
