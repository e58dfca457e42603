/-
  QingzhouSSH.Core.SystemProbe — the probe of a POSIX host: the command and its parser.

  `PROBE_COMMAND` prints the release file of the host between two marks and then one section
  for each capability; `parse_probe` splits the text at the marks and reads what follows line
  by line into a map.  A `Host` is a choice of what every command inside the probe prints, and
  `Host.output` is the text that the whole command then prints.
-/
import QingzhouSSH.Core.Logs.Parser
import QingzhouSSH.Core.Tasks.Availability
import QingzhouSSH.Lib.Sections

namespace QingzhouSSH.Core.SystemProbe

open String (utf8Len)
open QingzhouSSH.Lib.Text (splitFirst)
open QingzhouSSH.Lib.Sections
open QingzhouSSH.Core.Logs (lines)
open QingzhouSSH.Core.Tasks

/-! ## §1. Capabilities. -/

inductive RemoteShell where
  | posixSh
  | bash
  | powerShell
  | unknown
  deriving Repr, DecidableEq

inductive RemotePathStyle where
  | posix
  | windowsSftp
  | unknown
  deriving Repr, DecidableEq

structure NetworkInterfaceCapability where
  name : Text
  isUp : Bool
  isDefault : Bool
  addresses : List Text
  gateway4 : Option Text
  gateway6 : Option Text
  deriving Repr, DecidableEq

/-- `SystemCapabilities`, with all that a probe finds out. -/
structure ProbedCapabilities where
  probeSchemaVersion : Nat
  platformFamily : RemoteOsFamily
  remoteShell : RemoteShell
  pathStyle : RemotePathStyle
  osId : Text
  osFamily : Text
  versionId : Option Text
  packageManager : Option Text
  serviceManager : Text
  architecture : Text
  shell : Text
  commands : List Text
  services : List Text
  containers : List Text
  interfaces : List NetworkInterfaceCapability
  dnsServers : List Text
  currentTimezone : Option Text
  currentTime : Option Text
  ntpEnabled : Option Bool
  ntpSynchronized : Option Bool
  timezones : List Text
  deriving Repr, DecidableEq

/-! ## §2. Keys and values. -/

def isDoubleQuote (c : Char) : Bool := c == '"'

/-- `unquote`. -/
def unquote (value : Text) : Text :=
  ((trim value).dropWhile isDoubleQuote).rdropWhile isDoubleQuote

/-- The key and the value of a line that has an equals sign. -/
def entry (line : Text) : Option (Text × Text) :=
  (splitOnce '=' line).map fun e => (trim e.1, unquote e.2)

/-- `key_values`, in the order in which the entries are collected. -/
def keyValues (block : Text) : List (Text × Text) := (lines block).filterMap entry

/-- What the collected map holds under a key. -/
def valueOf (block : Text) (key : Text) : Option Text := lookupLast (keyValues block) key

/-! ## §3. The fields: each reads what has been taken from the map. -/

def isInterfaceName (value : Text) : Bool :=
  !value.isEmpty && utf8Len value ≤ 32
    && value.all fun c => isAsciiAlphanumeric c || c == '.' || c == ':' || c == '_' || c == '-'

def isTimezoneName (value : Text) : Bool :=
  !value.isEmpty && utf8Len value ≤ 128
    && value.all fun c => isAsciiAlphanumeric c || c == '/' || c == '_' || c == '-' || c == '+'

/-- A hexadecimal digit, a point, a colon or a slash. -/
def isAddressChar (c : Char) : Bool :=
  isAsciiDigit c || ('a' ≤ c && c ≤ 'f') || ('A' ≤ c && c ≤ 'F') || c == '.' || c == ':' || c == '/'

/-- `take_csv`. -/
def takeCsv (value : Option Text) : List Text :=
  sortedDistinct ((((value.getD []).splitOn ',').map trim).filter fun item => !item.isEmpty)

/-- `take_bool`. -/
def takeBool (value : Option Text) : Option Bool :=
  match value with
  | none => none
  | some value =>
      let word := (trim value).map toAsciiLower
      if ["yes".toList, "true".toList, "1".toList, "enabled".toList, "active".toList].contains word
      then some true
      else if ["no".toList, "false".toList, "0".toList, "disabled".toList,
        "inactive".toList].contains word then some false
      else none

def isInterfaceRecord (record : Text × Text) : Bool :=
  isInterfaceName record.1 && !record.2.isEmpty && utf8Len record.2 ≤ 128
    && record.2.all isAddressChar

/-- `take_interface_records`. -/
def takeInterfaceRecords (value : Option Text) : List (Text × Text) :=
  ((((value.getD []).splitOn ';').filterMap (splitOnce '|')).filter isInterfaceRecord).take 512

/-- `interface_values`. -/
def interfaceValues (records : List (Text × Text)) (name : Text) : List Text :=
  sortedDistinct ((records.filter fun record => record.1 == name).map Prod.snd)

/-- `interface_value`. -/
def interfaceValue (records : List (Text × Text)) (name : Text) : Option Text :=
  (records.find? fun record => record.1 == name).map Prod.snd

def takeDefaultInterface (value : Option Text) : Option Text := value.filter isInterfaceName

def takeTimezone (value : Option Text) : Option Text := value.filter isTimezoneName

def takeTime (value : Option Text) : Option Text :=
  value.filter fun value => !value.isEmpty && utf8Len value ≤ 64

/-- The time zones of the list, and the current one where it is not among them. -/
def takeTimezones (currentTimezone : Option Text) (value : Option Text) : List Text :=
  let timezones := (takeCsv value).filter isTimezoneName
  match currentTimezone with
  | none => timezones
  | some current =>
      if timezones.contains current then timezones
      else (timezones ++ [current]).mergeSort fun s t => decide (s ≤ t)

/-- The interfaces with what the other sections say of each. -/
def interfacesOf (names active : List Text) (defaultInterface : Option Text)
    (addresses gateways4 gateways6 : List (Text × Text)) : List NetworkInterfaceCapability :=
  (names.filter isInterfaceName).map fun name =>
    { name := name,
      isUp := active.contains name,
      isDefault := defaultInterface == some name,
      addresses := interfaceValues addresses name,
      gateway4 := interfaceValue gateways4 name,
      gateway6 := interfaceValue gateways6 name }

/-! ## §4. The parser. -/

def beginMark : Text := "__QZ_OS_BEGIN__".toList

def endMark : Text := "__QZ_OS_END__".toList

/-- `bsd_id_from_uname`. -/
def bsdIdFromUname (unameSystem : Text) : Option Text :=
  if ["freebsd".toList, "openbsd".toList, "netbsd".toList, "dragonfly".toList].contains unameSystem
  then some unameSystem
  else none

/-- The system's id: that of the release file, or else that of a BSD kernel. -/
def osIdOf (releaseId : Option Text) (unameSystem : Text) : Option Text :=
  (releaseId.map fun value => value.map toAsciiLower).or (bsdIdFromUname unameSystem)

def osFamilyOf (osId : Text) (idLike : List Text) : Text :=
  if ["freebsd".toList, "openbsd".toList, "netbsd".toList, "dragonfly".toList].contains osId then
    "bsd".toList
  else if osId == "openeuler".toList then "openeuler".toList
  else if ["debian".toList, "ubuntu".toList, "kylin".toList, "uos".toList].contains osId
      || idLike.contains "debian".toList then
    "debian".toList
  else if ["rhel".toList, "centos".toList, "rocky".toList, "almalinux".toList,
      "anolis".toList].contains osId
      || idLike.contains "rhel".toList || idLike.contains "fedora".toList then
    "rhel".toList
  else "unknown".toList

def platformFamilyOf (osFamily unameSystem : Text) : RemoteOsFamily :=
  if osFamily == "bsd".toList then .bsd
  else if unameSystem == "linux".toList
      || ["debian".toList, "rhel".toList, "openeuler".toList].contains osFamily then
    .linux
  else .unknown

def remoteShellOf (shell : Text) (commands : List Text) : RemoteShell :=
  if Lib.Text.contains (shell.map toAsciiLower) "bash".toList then .bash
  else if commands.contains "sh".toList then .posixSh
  else .unknown

/-- What is made of the two maps once the system is identified. -/
def capabilitiesOf (osValues capabilities : Text → Option Text) (unameSystem osId : Text) :
    ProbedCapabilities :=
  let idLike := splitWhitespace (((osValues "ID_LIKE".toList).getD []).map toAsciiLower)
  let osFamily := osFamilyOf osId idLike
  let commands := takeCsv (capabilities "COMMANDS".toList)
  let currentTimezone := takeTimezone (capabilities "CURRENT_TIMEZONE".toList)
  let shell := (capabilities "SHELL".toList).getD "unknown".toList
  { probeSchemaVersion := 1,
    platformFamily := platformFamilyOf osFamily unameSystem,
    remoteShell := remoteShellOf shell commands,
    pathStyle := .posix,
    osId := osId,
    osFamily := osFamily,
    versionId := osValues "VERSION_ID".toList,
    packageManager := (capabilities "PKG".toList).filter fun value => !value.isEmpty,
    serviceManager := (capabilities "SERVICE".toList).getD "unknown".toList,
    architecture := (capabilities "ARCH".toList).getD "unknown".toList,
    shell := shell,
    commands := commands,
    services := takeCsv (capabilities "SERVICES".toList),
    containers := takeCsv (capabilities "CONTAINERS".toList),
    interfaces := interfacesOf (takeCsv (capabilities "INTERFACES".toList))
      (takeCsv (capabilities "ACTIVE_INTERFACES".toList))
      (takeDefaultInterface (capabilities "DEFAULT_INTERFACE".toList))
      (takeInterfaceRecords (capabilities "ADDRESSES".toList))
      (takeInterfaceRecords (capabilities "GATEWAYS4".toList))
      (takeInterfaceRecords (capabilities "GATEWAYS6".toList)),
    dnsServers := takeCsv (capabilities "DNS_SERVERS".toList),
    currentTimezone := currentTimezone,
    currentTime := takeTime (capabilities "CURRENT_TIME".toList),
    ntpEnabled := takeBool (capabilities "NTP_ENABLED".toList),
    ntpSynchronized := takeBool (capabilities "NTP_SYNCHRONIZED".toList),
    timezones := takeTimezones currentTimezone (capabilities "TIMEZONES".toList) }

/-- `parse_probe`. -/
def parseProbe (output : Text) : AppResult ProbedCapabilities :=
  match splitFirst beginMark output with
  | none => .error (.validation "探测输出缺少开始标记".toList)
  | some (_, afterStart) =>
      match splitFirst endMark afterStart with
      | none => .error (.validation "探测输出缺少结束标记".toList)
      | some (osBlock, capabilityBlock) =>
          let osValues := valueOf osBlock
          let capabilities := valueOf capabilityBlock
          let unameSystem := ((capabilities "UNAME_SYSTEM".toList).getD []).map toAsciiLower
          match osIdOf (osValues "ID".toList) unameSystem with
          | none => .error (.validation "无法识别系统 ID".toList)
          | some osId => .ok (capabilitiesOf osValues capabilities unameSystem osId)

/-! ## §5. The command. -/

/-- A text without a line break, as a `printf` of fields of one line prints it. -/
structure Line where
  text : Text
  oneLine : '\n' ∉ text

/-- What `head -n 1` or `sed -n '1p'` prints: the first line, if there is any; it ends where the
line that was read ends. -/
structure FirstLine where
  text : Text
  ended : Bool
  oneLine : '\n' ∉ text

/-- The commands that the probe looks for. -/
def probedCommands : List Text :=
  ([
    "find", "grep", "gzip", "awk", "systemctl", "hostnamectl", "service", "rcctl", "pkg",
    "pkg_info", "pkg_add", "ps", "head", "df", "uptime", "uname", "free", "ip", "hostname", "sh",
    "bash", "powershell", "pwsh", "sed", "cat", "tr", "tail", "sort", "du", "getent", "getconf",
    "nproc", "who", "ping", "curl", "openssl", "timeout", "nc", "ncat", "tcpdump", "wc", "ss",
    "netstat", "date", "last", "lsof", "iostat", "vmstat", "sysctl", "findmnt", "firewall-cmd",
    "ufw", "nft", "iptables", "sshd", "journalctl", "dmesg", "timedatectl", "chronyc", "ntpq",
    "tracepath", "dig", "docker", "podman", "nginx", "apachectl", "crontab", "mktemp", "mkdir",
    "chown", "chmod", "mv", "rm", "stat", "id", "base64", "sha256sum", "sha256", "shasum",
    "swapon", "swapoff", "mkswap", "nmcli", "netplan", "systemd-run", "at", "atq", "atrm"] : List String).map String.toList

/-- The lines of a text that end, as `while read` reads them; the first is continued from
`current`. -/
def readLines : Text → Text → List Text
  | _, [] => []
  | current, c :: rest =>
      if c = '\n' then current :: readLines [] rest else readLines (current ++ [c]) rest

theorem readLines_oneLine {current text : Text} (hcurrent : '\n' ∉ current) :
    ∀ line ∈ readLines current text, '\n' ∉ line := by
  induction text generalizing current with
  | nil => simp [readLines]
  | cons c rest ih =>
      intro line hline
      rw [readLines] at hline
      by_cases hc : c = '\n'
      · rw [if_pos hc] at hline
        rcases List.mem_cons.mp hline with rfl | hline
        · exact hcurrent
        · exact ih List.not_mem_nil line hline
      · rw [if_neg hc] at hline
        refine ih ?_ line hline
        simp [hcurrent, Ne.symm hc]

/-- A choice of what the commands inside the probe print. -/
structure Host where
  /-- `/etc/os-release`, where it can be read. -/
  osRelease : Option Text
  /-- `uname -s`, and whether it fails. -/
  unameSystem : Text
  unameFails : Bool
  /-- `command -v`. -/
  installed : Text → Bool
  /-- `uname -m`. -/
  unameMachine : Text
  /-- The variable `SHELL`. -/
  shell : Option Text
  /-- `systemctl list-unit-files … | awk …`. -/
  unitFiles : Text
  /-- The names of the files in `/etc/init.d` and `/etc/rc.d`, where these are directories. -/
  initScripts : Option (List Text)
  rcScripts : Option (List Text)
  /-- `docker ps … | head -n 500` and `podman ps … | head -n 500`. -/
  dockerNames : Text
  podmanNames : Text
  /-- `ip -o link show | awk …`, of all links and of those that are up. -/
  linkNames : Line
  activeLinkNames : Line
  /-- `ip -4 route show default | awk …`: `print` ends its line. -/
  defaultDevice : Option Line
  /-- `ip -o address show scope global | awk …`. -/
  addressRecords : Line
  /-- `ip -4 route show default | awk …` and `ip -6 route show default | awk …`. -/
  gateway4Records : Line
  gateway6Records : Line
  /-- `awk … /etc/resolv.conf`, where the file can be read. -/
  nameservers : Option Line
  /-- `timedatectl show -p Timezone --value | head -n 1`. -/
  timedatectlTimezone : FirstLine
  /-- `sed -n '1p' /etc/timezone`, where the file can be read. -/
  etcTimezone : Option FirstLine
  /-- `date … | head -n 1 || date … | head -n 1`: the status is that of `head`, which fails only
  where it has printed nothing. -/
  date : FirstLine
  /-- `timedatectl show -p NTP --value | head -n 1`, and the same for `NTPSynchronized`. -/
  timedatectlNtp : FirstLine
  timedatectlNtpSynchronized : FirstLine
  /-- `timedatectl list-timezones | awk …`. -/
  zoneNames : Line

namespace Host

variable (host : Host)

/-- The package manager that is found first. -/
def packageManager : Text :=
  (["apt".toList, "dnf".toList, "yum".toList, "apk".toList, "pkg".toList,
    "pkg_add".toList].find? host.installed).getD []

def serviceManager : Text :=
  if host.installed "systemctl".toList then "systemd".toList
  else if host.installed "rcctl".toList then "rcctl".toList
  else if host.installed "service".toList then "service".toList
  else "unknown".toList

/-- `"${SHELL:-unknown}"`. -/
def shellName : Text :=
  match host.shell with
  | none => "unknown".toList
  | some shell => if shell.isEmpty then "unknown".toList else shell

/-- The names that a loop of `printf '%s,'` prints. -/
def namesList (names : List Text) : Text := names.flatMap fun name => name ++ [',']

/-- The names that a loop reads, those that are empty left out. -/
def readNames (text : Text) : List Text :=
  (readLines [] text).filter fun name => !name.isEmpty

def commandsText : Text := List.intercalate [','] (probedCommands.filter host.installed)

def servicesText : Text :=
  if host.installed "systemctl".toList then namesList (readNames host.unitFiles)
  else match host.initScripts with
    | some names => namesList names
    | none => namesList (host.rcScripts.getD [])

def containersText : Text :=
  if host.installed "docker".toList then namesList (readNames host.dockerNames)
  else if host.installed "podman".toList then namesList (readNames host.podmanNames)
  else []

/-- What `ip` prints, where there is an `ip`. -/
def ofIp (line : Line) : Text := if host.installed "ip".toList then line.text else []

/-- The device of the default route, with its line. -/
def defaultInterface : Option Line :=
  if host.installed "ip".toList then host.defaultDevice else none

def timezone : FirstLine :=
  if host.installed "timedatectl".toList then host.timedatectlTimezone
  else match host.etcTimezone with
    | some line => line
    | none => ⟨[], true, List.not_mem_nil⟩

/-- What `timedatectl` prints, or a line of its own where there is none. -/
def ofTimedatectl (line : FirstLine) : FirstLine :=
  if host.installed "timedatectl".toList then line else ⟨[], true, List.not_mem_nil⟩

def timezonesText : Text := if host.installed "timedatectl".toList then host.zoneNames.text else []

/-- The sections that are printed before the list of commands. -/
def preamble : Text :=
  "UNAME_SYSTEM=".toList ++ host.unameSystem
    ++ (if host.unameFails then "unknown\n".toList else [])
    ++ "PKG=".toList ++ host.packageManager ++ "\nSERVICE=".toList ++ host.serviceManager
    ++ "\nARCH=".toList ++ host.unameMachine ++ "SHELL=".toList ++ host.shellName ++ ['\n']

/-- The two lists whose names may come from a directory. -/
def lists : Text :=
  "COMMANDS=".toList ++ host.commandsText ++ "\nSERVICES=".toList ++ host.servicesText ++ ['\n']

/-- The sections after them, in the order in which they are printed. -/
def sections : List (Section Char) :=
  [⟨"CONTAINERS".toList, host.containersText, true⟩,
    ⟨"INTERFACES".toList, host.ofIp host.linkNames, true⟩,
    ⟨"ACTIVE_INTERFACES".toList, host.ofIp host.activeLinkNames, true⟩,
    ⟨"DEFAULT_INTERFACE".toList, (host.defaultInterface.map Line.text).getD [],
      host.defaultInterface.isSome⟩,
    ⟨"ADDRESSES".toList, host.ofIp host.addressRecords, true⟩,
    ⟨"GATEWAYS4".toList, host.ofIp host.gateway4Records, true⟩,
    ⟨"GATEWAYS6".toList, host.ofIp host.gateway6Records, true⟩,
    ⟨"DNS_SERVERS".toList, (host.nameservers.map Line.text).getD [], true⟩,
    ⟨"CURRENT_TIMEZONE".toList, host.timezone.text, host.timezone.ended⟩,
    ⟨"CURRENT_TIME".toList, host.date.text, host.date.ended⟩,
    ⟨"NTP_ENABLED".toList, (host.ofTimedatectl host.timedatectlNtp).text,
      (host.ofTimedatectl host.timedatectlNtp).ended⟩,
    ⟨"NTP_SYNCHRONIZED".toList, (host.ofTimedatectl host.timedatectlNtpSynchronized).text,
      (host.ofTimedatectl host.timedatectlNtpSynchronized).ended⟩,
    ⟨"TIMEZONES".toList, host.timezonesText, true⟩]

/-- The text that `PROBE_COMMAND` prints. -/
def output : Text :=
  beginMark ++ '\n' :: (host.osRelease.getD [] ++ endMark
    ++ '\n' :: (host.preamble ++ host.lists ++ printAll '=' '\n' host.sections))

end Host

end QingzhouSSH.Core.SystemProbe
