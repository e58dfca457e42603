/-
  QingzhouSSH.Core.Tasks.OperationResult — the structured result of an operation.

  `parse_result` keeps the redacted output, cut to 64 KiB, as technical details, and
  draws a conclusion from the marker lines in it.  The details are bounded in bytes of
  text, the column that stores the result in bytes of JSON.

  Main results:
    * `utf8Len_result` — how long the JSON text of a result is;
    * `utf8Len_parsed` — the same for a parsed output, details and markers apart.
-/
import QingzhouSSH.Core.Json
import QingzhouSSH.Core.Logs.Parser
import QingzhouSSH.Core.Redaction
import QingzhouSSH.Core.Tasks.Availability
import QingzhouSSH.Lib.OrdMap

namespace QingzhouSSH.Core.Tasks

open String (utf8Len)
open QingzhouSSH.Core.Logs (lines)
open QingzhouSSH.Core.Redaction (Redactor)
open QingzhouSSH.Lib
open QingzhouSSH.Lib.Net (parseUnsigned)
open QingzhouSSH.Lib.Text (contains)

/-! ## §1. Results. -/

inductive OperationConclusion where
  | normal
  | warning
  | failed
  | uncertain
  deriving Repr, DecidableEq

def OperationConclusion.asStr : OperationConclusion → Text
  | .normal => "normal".toList
  | .warning => "warning".toList
  | .failed => "failed".toList
  | .uncertain => "uncertain".toList

inductive FindingLevel where
  | info
  | warning
  | error
  deriving Repr, DecidableEq

def FindingLevel.asStr : FindingLevel → Text
  | .info => "info".toList
  | .warning => "warning".toList
  | .error => "error".toList

structure OperationFinding where
  level : FindingLevel
  title : Text
  detail : Text
  deriving Repr, DecidableEq

structure OperationResult where
  status : OperationConclusion
  summary : Text
  findings : List OperationFinding
  suggestions : List Text
  technicalDetails : Text
  deriving Repr, DecidableEq

/-- A record is written as an object, its fields in the order of their declaration. -/
def OperationFinding.toValue (finding : OperationFinding) : Value :=
  .object [("level".toList, .string finding.level.asStr),
    ("title".toList, .string finding.title), ("detail".toList, .string finding.detail)]

def OperationResult.toValue (result : OperationResult) : Value :=
  .object [("status".toList, .string result.status.asStr),
    ("summary".toList, .string result.summary),
    ("findings".toList, .array (result.findings.map OperationFinding.toValue)),
    ("suggestions".toList, .array (result.suggestions.map .string)),
    ("technicalDetails".toList, .string result.technicalDetails)]

/-! ## §2. Markers in the output. -/

def maxTechnicalDetailsBytes : Nat := 64 * 1024

def maxFindings : Nat := 100

def maxSuggestions : Nat := 20

/-- `valid_marker_token`. -/
def validMarkerToken (value : Text) : Bool :=
  !value.isEmpty && utf8Len value ≤ 64
    && value.all fun c => ('a' ≤ c && c ≤ 'z') || isAsciiDigit c || c == '_'

def knownWarnings : List Text :=
  ["disk_usage".toList, "cpu_pressure".toList, "memory_pressure".toList, "oom_events".toList,
    "connectivity_failed".toList, "udp_inconclusive".toList, "service_failed".toList,
    "container_unhealthy".toList, "firewall_exposure".toList, "time_drift".toList]

def knownErrors : List Text :=
  ["process_not_found".toList, "packet_capture_failed".toList, "capture_too_large".toList,
    "invalid_container_action".toList]

/-- What has been read of the marker lines. -/
structure Markers where
  metrics : OrdMap Text Text
  warningCodes : List Text
  errorCodes : List Text
  unsupported : List Text

/-- `str::strip_prefix`. -/
def stripPrefix (mark line : Text) : Option Text :=
  if mark <+: line then some (line.drop mark.length) else none

/-- The body of the loop over the lines. -/
def Markers.read (markers : Markers) (line : Text) : Markers :=
  match stripPrefix "__QZ_METRIC__ ".toList line with
  | some value =>
      match splitOnce '=' value with
      | some (key, value) =>
          if validMarkerToken key && utf8Len value ≤ 256 then
            { markers with metrics := markers.metrics.insert key value }
          else markers
      | none => markers
  | none =>
      match stripPrefix "__QZ_WARNING__ ".toList line with
      | some code =>
          if knownWarnings.contains code then
            { markers with warningCodes := code :: markers.warningCodes }
          else markers
      | none =>
          match stripPrefix "__QZ_ERROR__ ".toList line with
          | some code =>
              if knownErrors.contains code then
                { markers with errorCodes := code :: markers.errorCodes }
              else markers
          | none =>
              match stripPrefix "__QZ_UNSUPPORTED__ ".toList line with
              | some capability =>
                  if validMarkerToken capability then
                    { markers with unsupported := capability :: markers.unsupported }
                  else markers
              | none => markers

/-- A UDP probe has had no answer. -/
def udpInconclusive (parser : ResultParserKind) (details : Text) : Bool :=
  parser == .networkProbe
    && (lines details).any fun line => trim line == "probe=no_response".toList

/-- The markers of an output, with the warnings that the parser derives. -/
def readMarkers (parser : ResultParserKind) (details : Text) : Markers :=
  let read := (lines details).foldl Markers.read ⟨OrdMap.empty, [], [], []⟩
  let diskFull := ((read.metrics.get? "disk_percent".toList).bind (parseUnsigned 256)).any
    fun value => decide (90 ≤ value)
  let serviceFailed := parser == .serviceStatus
    && (contains details "ActiveState=failed".toList
      || contains details "ActiveState=inactive".toList)
  let unhealthy := parser == .containerStatus
    && contains (details.map toAsciiLower) "unhealthy".toList
  { read with
    warningCodes :=
      (if diskFull then ["disk_usage".toList] else [])
        ++ (if serviceFailed then ["service_failed".toList] else [])
        ++ (if unhealthy then ["container_unhealthy".toList] else [])
        ++ read.warningCodes }

/-! ## §3. The conclusion. -/

/-- `error_title`. -/
def errorTitle (code : Text) : Text :=
  if code = "process_not_found".toList then "进程不存在".toList
  else if code = "packet_capture_failed".toList then "抓包失败".toList
  else if code = "capture_too_large".toList then "抓包超过大小限制".toList
  else if code = "invalid_container_action".toList then "容器操作无效".toList
  else "诊断失败".toList

structure WarningGuidance where
  title : Text
  detail : Text
  suggestion : Text

/-- `warning_guidance`. -/
def warningGuidance (code : Text) : WarningGuidance :=
  if code = "disk_usage".toList then
    ⟨"磁盘空间偏高".toList, "一个或多个文件系统的使用率达到告警范围。".toList,
      "优先清理无用日志、缓存或过期备份，再确认磁盘增长来源。".toList⟩
  else if code = "cpu_pressure".toList then
    ⟨"CPU 压力偏高".toList, "负载或 CPU 压力指标需要关注。".toList,
      "查看 CPU 排行中的进程，并结合业务峰值判断是否扩容或限流。".toList⟩
  else if code = "memory_pressure".toList ∨ code = "oom_events".toList then
    ⟨"内存压力异常".toList, "检测到内存压力或 OOM 相关线索。".toList,
      "查看内存排行和 OOM 时间点，确认是否存在泄漏或内存配额不足。".toList⟩
  else if code = "connectivity_failed".toList then
    ⟨"网络连通性异常".toList, "目标主机未通过基础连通性探测。".toList,
      "检查目标地址、路由、安全组和防火墙后重试。".toList⟩
  else if code = "udp_inconclusive".toList then
    ⟨"UDP 结果不确定".toList, "UDP 空探测没有收到响应。".toList,
      "结合服务端监听、防火墙和真实协议请求继续确认。".toList⟩
  else if code = "service_failed".toList then
    ⟨"服务状态异常".toList, "服务处于失败或未运行状态。".toList,
      "先查看服务日志和退出码，再决定是否重启。".toList⟩
  else if code = "container_unhealthy".toList then
    ⟨"容器健康异常".toList, "容器运行时报告 unhealthy。".toList,
      "查看容器健康检查、日志和资源限制。".toList⟩
  else if code = "firewall_exposure".toList then
    ⟨"网络暴露需复核".toList, "监听端口与防火墙规则可能不一致。".toList,
      "逐项确认对公网开放是否符合预期。".toList⟩
  else if code = "time_drift".toList then
    ⟨"时间同步异常".toList, "系统时钟或时间源状态需要关注。".toList,
      "检查 NTP/Chrony 配置和上游时间源连通性。".toList⟩
  else
    ⟨"诊断告警".toList, "检查结果包含需要关注的机器标记。".toList,
      "查看技术详情并请熟悉该服务的人员复核。".toList⟩

/-- The two lists that the conclusion collects. -/
structure Report where
  findings : List OperationFinding
  suggestions : List Text

namespace Report

/-- `push_finding`. -/
def pushFinding (level : FindingLevel) (title detail : Text) (report : Report) : Report :=
  if report.findings.length < maxFindings then
    { report with findings := report.findings ++ [⟨level, title, detail⟩] }
  else report

/-- `push_suggestion`. -/
def pushSuggestion (suggestion : Text) (report : Report) : Report :=
  if report.suggestions.length < maxSuggestions && !report.suggestions.contains suggestion then
    { report with suggestions := report.suggestions ++ [suggestion] }
  else report

def pushError (report : Report) (code : Text) : Report :=
  report.pushFinding .error (errorTitle code) "后端采集器报告检查失败。".toList

def pushWarning (report : Report) (code : Text) : Report :=
  let guidance := warningGuidance code
  (report.pushFinding .warning guidance.title guidance.detail).pushSuggestion guidance.suggestion

def pushUnsupported (report : Report) (capability : Text) : Report :=
  (report.pushFinding .info "部分检查不可用".toList
    ("服务器缺少或无权使用：".toList ++ capability)).pushSuggestion
      "可在确认服务器策略后安装对应只读诊断工具，或请有权限的人员复核。".toList

def pushUdp (report : Report) : Report :=
  (report.pushFinding .info "UDP 探测无响应".toList
    "UDP 无响应既可能是不可达，也可能是服务按协议不回复空探测。".toList).pushSuggestion
      "结合服务端监听状态、防火墙规则和真实业务请求继续确认。".toList

end Report

/-- The findings and suggestions for these markers; the sets iterate in order. -/
def reportOf (markers : Markers) (udp : Bool) : Report :=
  let errors := (sortedDistinct markers.errorCodes).foldl Report.pushError ⟨[], []⟩
  let warnings := (sortedDistinct markers.warningCodes).foldl Report.pushWarning errors
  let capabilities := (sortedDistinct markers.unsupported).foldl Report.pushUnsupported warnings
  if udp then capabilities.pushUdp else capabilities

def conclude (markers : Markers) (udp : Bool) : OperationConclusion × Text :=
  if !markers.errorCodes.isEmpty then (.failed, "诊断执行失败，请查看错误详情。".toList)
  else if udp then (.uncertain, "探测未收到响应，当前无法确认网络是否可达。".toList)
  else if markers.warningCodes.contains "disk_usage".toList then
    (.warning, "发现磁盘使用率偏高，需要尽快处理。".toList)
  else if !markers.warningCodes.isEmpty then (.warning, "诊断发现需要关注的问题。".toList)
  else if !markers.unsupported.isEmpty then
    (.uncertain, "部分检查能力不可用，当前结论不完整。".toList)
  else (.normal, "诊断已完成，未发现明确异常。".toList)

/-- What is kept of the output. -/
def technicalDetails (raw : Text) (redactor : Redactor) : Text :=
  takeUtf8 maxTechnicalDetailsBytes (redactor.redact raw)

/-- `parse_result`. -/
def parseResult (parser : ResultParserKind) (raw : Text) (redactor : Redactor) :
    OperationResult :=
  let details := technicalDetails raw redactor
  let markers := readMarkers parser details
  let udp := udpInconclusive parser details
  let report := reportOf markers udp
  { status := (conclude markers udp).1, summary := (conclude markers udp).2,
    findings := report.findings, suggestions := report.suggestions, technicalDetails := details }

/-! ## §4. The length of the JSON text. -/

/-- An array of elements of these widths. -/
def arrayWidth (widths : List Nat) : Nat := widths.sum + (widths.length - 1) + 2

def findingWidth (finding : OperationFinding) : Nat :=
  35 + finding.level.asStr.length + Value.escapedWidth finding.title + Value.escapedWidth finding.detail

/-- What a result takes for its conclusion and lists: the braces, the names of the fields,
and their values but for the technical details. -/
def reportWidth (conclusion : OperationConclusion × Text) (report : Report) : Nat :=
  75 + conclusion.1.asStr.length + Value.escapedWidth conclusion.2
    + arrayWidth (report.findings.map findingWidth)
    + arrayWidth (report.suggestions.map fun suggestion => Value.escapedWidth suggestion + 2)

theorem escapedWidth_level (level : FindingLevel) :
    Value.escapedWidth level.asStr = level.asStr.length := by
  cases level <;> rfl

theorem escapedWidth_conclusion (conclusion : OperationConclusion) :
    Value.escapedWidth conclusion.asStr = conclusion.asStr.length := by
  cases conclusion <;> rfl

theorem fieldWidth_string (key text : Text) :
    Value.fieldWidth (key, .string text)
      = Value.escapedWidth key + Value.escapedWidth text + 5 := by
  show utf8Len (Value.jsonString key) + 1 + utf8Len (Value.jsonString text) = _
  rw [Value.utf8Len_jsonString, Value.utf8Len_jsonString]
  omega

theorem fieldWidth_array (key : Text) (items : List Value) :
    Value.fieldWidth (key, .array items)
      = Value.escapedWidth key + 3
        + arrayWidth (items.map fun item => utf8Len (Value.toJson item)) := by
  show utf8Len (Value.jsonString key) + 1 + utf8Len (Value.toJson (.array items)) = _
  unfold arrayWidth
  rw [Value.utf8Len_jsonString, Value.utf8Len_array, List.length_map]

theorem utf8Len_finding (finding : OperationFinding) :
    utf8Len (Value.toJson finding.toValue) = findingWidth finding := by
  unfold OperationFinding.toValue findingWidth
  rw [Value.utf8Len_object_eq]
  simp only [List.map_cons, List.map_nil, List.sum_cons, List.sum_nil, List.length_cons,
    List.length_nil, fieldWidth_string, escapedWidth_level]
  have hlevel : Value.escapedWidth "level".toList = 5 := by decide
  have htitle : Value.escapedWidth "title".toList = 5 := by decide
  have hdetail : Value.escapedWidth "detail".toList = 6 := by decide
  omega

/-- **The JSON text of a result takes what its conclusion and its lists take, and the
escaped details.** -/
theorem utf8Len_result (result : OperationResult) :
    utf8Len (Value.toJson result.toValue)
      = reportWidth (result.status, result.summary) ⟨result.findings, result.suggestions⟩
        + Value.escapedWidth result.technicalDetails := by
  unfold OperationResult.toValue reportWidth
  rw [Value.utf8Len_object_eq]
  simp only [List.map_cons, List.map_nil, List.sum_cons, List.sum_nil, List.length_cons,
    List.length_nil, fieldWidth_string, fieldWidth_array, escapedWidth_conclusion, List.map_map]
  have hfindings : (fun item => utf8Len (Value.toJson item)) ∘ OperationFinding.toValue
      = findingWidth := funext utf8Len_finding
  have hsuggestions : (fun item => utf8Len (Value.toJson item)) ∘ Value.string
      = fun suggestion => Value.escapedWidth suggestion + 2 :=
    funext fun suggestion => Value.utf8Len_jsonString suggestion
  have hstatus : Value.escapedWidth "status".toList = 6 := by decide
  have hsummary : Value.escapedWidth "summary".toList = 7 := by decide
  have hlist : Value.escapedWidth "findings".toList = 8 := by decide
  have hsuggest : Value.escapedWidth "suggestions".toList = 11 := by decide
  have hdetails : Value.escapedWidth "technicalDetails".toList = 16 := by decide
  rw [hfindings, hsuggestions]
  omega

/-- What a parsed output takes beside its details: it depends on the markers in them. -/
def markersWidth (parser : ResultParserKind) (details : Text) : Nat :=
  let markers := readMarkers parser details
  let udp := udpInconclusive parser details
  reportWidth (conclude markers udp) (reportOf markers udp)

theorem utf8Len_parsed (parser : ResultParserKind) (raw : Text) (redactor : Redactor) :
    utf8Len (Value.toJson (parseResult parser raw redactor).toValue)
      = markersWidth parser (technicalDetails raw redactor)
        + Value.escapedWidth (technicalDetails raw redactor) := by
  rw [utf8Len_result]
  dsimp only [parseResult, markersWidth]

end QingzhouSSH.Core.Tasks
