/-
  QingzhouSSH.Core.Tasks.Parameters — validation of task parameters.

  `validateParameters` checks a JSON object against the declarations of a task
  and produces, for every declared parameter that has a value, the value, its
  shell text and the sensitivity flag, in name order.

  Main results:
    * `validateValue_shellText`, `ShellText.reads` — the shell reads the shell text
      of an accepted value as the words that spell the value;
    * `validateParameters_declared` — every entry comes from a declaration that accepts it.
-/
import QingzhouSSH.Core.Tasks.Model
import QingzhouSSH.Lib.Net
import QingzhouSSH.Lib.OrdMap
import QingzhouSSH.Lib.Shell
import QingzhouSSH.Lib.Text
import Mathlib.Tactic.Tauto

namespace QingzhouSSH.Core.Tasks

open QingzhouSSH.Lib
open QingzhouSSH.Lib.Net (parseIpAddr parseUnsigned)
open QingzhouSSH.Lib.Text (contains)
open String (utf8Len)

/-! ## §1. The UUID crate. -/

/-- The operations of the `uuid` crate that validation calls.  A hyphenated UUID
is a non-empty run of hexadecimal digits and hyphens. -/
class UuidCrate where
  Uuid : Type
  parseStr : Text → Option Uuid
  isNil : Uuid → Bool
  hyphenated : Uuid → Text
  hyphenated_ne_nil : ∀ u, hyphenated u ≠ []
  hyphenated_chars : ∀ u, ∀ c ∈ hyphenated u, c = '-' ∨ c.isDigit = true ∨ ('a' ≤ c ∧ c ≤ 'f')

/-- The hyphenated text form of a UUID, in lower case. -/
def isHyphenated (s : Text) : Bool :=
  s.length == 36 && (s.all fun c => c == '-' || c.isDigit || ('a' ≤ c && c ≤ 'f'))
    && (s.zipIdx.all fun p => (p.1 == '-') == [8, 13, 18, 23].contains p.2)

def toAsciiLower (c : Char) : Char := if 'A' ≤ c ∧ c ≤ 'Z' then Char.ofNat (c.toNat + 32) else c

/-- The operations on hyphenated texts; the crate accepts other spellings too. -/
@[reducible] def hyphenatedUuid : UuidCrate where
  Uuid := { s : Text // isHyphenated s = true }
  parseStr s :=
    if h : isHyphenated (s.map toAsciiLower) = true then some ⟨s.map toAsciiLower, h⟩ else none
  isNil u := u.val.all fun c => c == '0' || c == '-'
  hyphenated u := u.val
  hyphenated_ne_nil u := by
    intro hnil
    have h := u.property
    rw [hnil] at h
    exact absurd h (by decide)
  hyphenated_chars u := by
    intro c hc
    have h := u.property
    simp only [isHyphenated, Bool.and_eq_true] at h
    have hall := List.all_eq_true.mp h.1.2 c hc
    simp only [Bool.or_eq_true, Bool.and_eq_true, beq_iff_eq, decide_eq_true_eq] at hall
    tauto

/-! ## §2. Character classes and shapes. -/

def isAsciiAlphanumeric (c : Char) : Bool :=
  ('0' ≤ c && c ≤ '9') || ('a' ≤ c && c ≤ 'z') || ('A' ≤ c && c ≤ 'Z')

def isAsciiDigit (c : Char) : Bool := '0' ≤ c && c ≤ '9'

/-- `str::split_whitespace`. -/
def splitWhitespace (s : Text) : List Text := (s.splitOnP isWhitespace).filter fun f => !f.isEmpty

/-- `str::eq_ignore_ascii_case`. -/
def eqIgnoreAsciiCase (s t : Text) : Bool := s.map toAsciiLower == t.map toAsciiLower

/-- `shell_quote`. -/
def shellQuote (value : Text) : Text :=
  '\'' :: (Text.replace ['\''] ['\'', '"', '\'', '"', '\''] value ++ ['\''])

def isServiceName (value : Text) : Bool :=
  !value.isEmpty && utf8Len value ≤ 255
    && value.all fun c => isAsciiAlphanumeric c || c == '_' || c == '-' || c == '.' || c == '@'

def isCronPart (part : Text) (min max : Nat) : Bool :=
  match part.splitOn '/' with
  | base :: steps =>
      let stepOk := match steps with
        | [] => true
        | [step] => match parseUnsigned 256 step with
            | some n => n != 0 && n ≤ max
            | none => false
        | _ => false
      if part.isEmpty || !stepOk then false
      else if base == ['*'] then true
      else match base.splitOn '-' with
        | start :: rest =>
            match parseUnsigned 256 start with
            | none => false
            | some first =>
                if 2 ≤ rest.length || !(min ≤ first && first ≤ max) then false
                -- a range end that is not a number is treated as absent
                else match rest.head?.bind (parseUnsigned 256) with
                  | none => true
                  | some last => first ≤ last && last ≤ max
        | [] => false
  | [] => false

def isCronField (field : Text) (min max : Nat) : Bool :=
  !field.isEmpty && (field.splitOn ',').all fun part => isCronPart part min max

def cronBounds : List (Nat × Nat) := [(0, 59), (0, 23), (1, 31), (1, 12), (0, 7)]

def isCronExpression (value : Text) : Bool :=
  let fields := splitWhitespace value
  fields.length == cronBounds.length
    && (fields.zip cronBounds).all fun p => isCronField p.1 p.2.1 p.2.2

/-- A path segment that names an entry of its directory. -/
def isProperSegment (segment : Text) : Bool :=
  !segment.isEmpty && segment != ['.'] && segment != ['.', '.']

def isTimezone (value : Text) : Bool :=
  !value.isEmpty && utf8Len value ≤ 128
    && (value.splitOn '/').all fun segment =>
      isProperSegment segment
        && segment.all fun c => isAsciiAlphanumeric c || c == '_' || c == '+' || c == '-'

def isSafeRelativePath (value : Text) : Bool :=
  !value.isEmpty && !(['/'].isPrefixOf value) && (value.splitOn '/').all isProperSegment

def isNormalizedAbsolutePath (value : Text) : Bool :=
  ['/'].isPrefixOf value
    && (value == ['/'] || ((value.drop 1).splitOn '/').all isProperSegment)

def isTimeValue (value : Text) : Bool :=
  !value.isEmpty && utf8Len value ≤ 64
    && value.all fun c => isAsciiDigit c || c == '-' || c == ':' || c == '.' || c == '+'
      || c == 'T' || c == 'Z' || c == ' '

def isHost (value : Text) : Bool :=
  !value.isEmpty && utf8Len value ≤ 253 && value.head? != some '-'
    && value.getLast? != some '-'
    && (value.all fun c => isAsciiAlphanumeric c || c == '.' || c == '-' || c == ':')
    && (value.splitOn '.').all fun label =>
      !label.isEmpty && label.head? != some '-' && label.getLast? != some '-'

/-- `str::split_once`. -/
def splitOnce (separator : Char) (s : Text) : Option (Text × Text) :=
  Text.splitFirst [separator] s

def isCidr (value : Text) : Bool :=
  match splitOnce '/' value with
  | none => false
  | some (address, suffix) =>
      if suffix.contains '/' then false
      else match parseIpAddr address with
        | none => false
        | some ip =>
            match parseUnsigned 65536 suffix with
            | none => false
            | some bits => if ip.isIpv4 then bits ≤ 32 else bits ≤ 128

def isInterfaceName (value : Text) : Bool :=
  !value.isEmpty && utf8Len value ≤ 32
    && value.all fun c => isAsciiAlphanumeric c || c == '.' || c == ':' || c == '_' || c == '-'

def isContainerName (value : Text) : Bool :=
  !value.isEmpty && utf8Len value ≤ 128
    && value.all fun c => isAsciiAlphanumeric c || c == '.' || c == '_' || c == '-' || c == ':'

def isFileMode (value : Text) : Bool :=
  utf8Len value == 4 && ['0'].isPrefixOf value && value.all fun c => '0' ≤ c && c ≤ '7'

/-! ## §3. Validation of one value. -/

def invalid (parameter : ParameterDefinition) : AppError :=
  .validation ("任务参数 ".toList ++ parameter.name ++ " 无效".toList)

def requiredString (parameter : ParameterDefinition) (value : Value) : AppResult Text :=
  match value.asStr with
  | some s => .ok s
  | none => .error (invalid parameter)

/-- A string value that satisfies `check`, quoted. -/
def checkedString (parameter : ParameterDefinition) (check : Text → Bool) (value : Value) :
    AppResult Text := do
  let s ← requiredString parameter value
  if check s then .ok (shellQuote s) else .error (invalid parameter)

/-- The loop over the items of a multiple choice: each is a string that satisfies
`check` and was not seen before. -/
def selectItems (parameter : ParameterDefinition) (check : Text → Bool) :
    List Text → List Value → AppResult (List Text)
  | _, [] => .ok []
  | seen, value :: rest => do
      let s ← requiredString parameter value
      if !check s || seen.contains s then .error (invalid parameter)
      else do
        let quotedRest ← selectItems parameter check (s :: seen) rest
        .ok (shellQuote s :: quotedRest)

def checkedSelection (parameter : ParameterDefinition) (check : Text → Bool) (maxItems : Nat)
    (value : Value) : AppResult Text :=
  match value.asArray with
  | none => .error (invalid parameter)
  | some values =>
      if values.isEmpty || maxItems < values.length then .error (invalid parameter)
      else do
        let shellValues ← selectItems parameter check [] values
        .ok (List.intercalate [' '] shellValues)

def checkedTimeRange (parameter : ParameterDefinition) (value : Value) : AppResult Text :=
  match value.asObject with
  | none => .error (invalid parameter)
  | some object =>
      if object.any fun f => f.1 != "start".toList && f.1 != "end".toList then
        .error (invalid parameter)
      else
        match (Value.getField object "start".toList).bind Value.asStr,
          (Value.getField object "end".toList).bind Value.asStr with
        | some start, some stop =>
            if isTimeValue start && isTimeValue stop then
              .ok (shellQuote (start ++ '/' :: stop))
            else .error (invalid parameter)
        | _, _ => .error (invalid parameter)

def checkedManagedId [UuidCrate] (parameter : ParameterDefinition) (value : Value) : AppResult Text := do
  let s ← requiredString parameter value
  match UuidCrate.parseStr s with
  | none => .error (invalid parameter)
  | some parsed =>
      let canonical := UuidCrate.hyphenated parsed
      if UuidCrate.isNil parsed || !eqIgnoreAsciiCase s canonical then .error (invalid parameter)
      else .ok (shellQuote canonical)

/-- `validate_value`: the shell text of an accepted value. -/
def validateValue [UuidCrate] (parameter : ParameterDefinition) (value : Value) : AppResult Text :=
  match parameter.kind with
  | .string minLength maxLength multiline =>
      checkedString parameter
        (fun s => minLength ≤ s.length && s.length ≤ maxLength
          && (multiline || !s.contains '\n') && !s.contains '\x00') value
  | .integer min max =>
      match value.asI64 with
      | none => .error (invalid parameter)
      | some n => if n < min || max < n then .error (invalid parameter) else .ok (showInt n)
  | .boolean =>
      match value.asBool with
      | none => .error (invalid parameter)
      | some b => .ok (if b then "true".toList else "false".toList)
  | .enum options => checkedString parameter (fun s => options.contains s) value
  | .absolutePath =>
      checkedString parameter (fun s => !s.contains '\x00' && ['/'].isPrefixOf s) value
  | .timezone => checkedString parameter isTimezone value
  | .serviceName => checkedString parameter isServiceName value
  | .timeRange => checkedTimeRange parameter value
  | .host => checkedString parameter isHost value
  | .port =>
      match value.asU64 with
      | none => .error (invalid parameter)
      | some n =>
          if 1 ≤ n && n ≤ 65535 then .ok (shellQuote (showNat n)) else .error (invalid parameter)
  | .interfaceName => checkedString parameter isInterfaceName value
  | .cidr => checkedString parameter isCidr value
  | .containerName => checkedString parameter isContainerName value
  | .fileMode => checkedString parameter isFileMode value
  | .cronExpression => checkedString parameter isCronExpression value
  | .managedId => checkedManagedId parameter value
  | .multiSelect options maxItems =>
      checkedSelection parameter (fun s => options.contains s) maxItems value
  | .serviceMultiSelect maxItems => checkedSelection parameter isServiceName maxItems value

/-! ## §4. Validation of a parameter map. -/

structure ValidatedParameter where
  value : Value
  shellValue : Text
  sensitive : Bool
  deriving Repr

/-- `ValidatedParameters`: a `BTreeMap` from names. -/
abbrev ValidatedParameters := OrdMap Text ValidatedParameter

/-- The accepted map, when there is one. -/
def acceptedOrEmpty (result : AppResult ValidatedParameters) : ValidatedParameters :=
  match result with
  | .ok values => values
  | .error _ => OrdMap.empty

theorem eq_ok_acceptedOrEmpty {result : AppResult ValidatedParameters}
    (h : result.toBool = true) : result = .ok (acceptedOrEmpty result) := by
  cases result with
  | ok values => rfl
  | error e => exact absurd h (by simp [Except.toBool])

/-- The loop over the declarations. -/
def validateDeclared [UuidCrate] (object : List (Text × Value)) :
    List ParameterDefinition → ValidatedParameters → AppResult ValidatedParameters
  | [], values => .ok values
  | parameter :: rest, values =>
      match (Value.getField object parameter.name).or parameter.defaultValue with
      | none =>
          if parameter.required then
            .error (.validation ("缺少任务参数：".toList ++ parameter.name))
          else validateDeclared object rest values
      | some value => do
          let shellValue ← validateValue parameter value
          validateDeclared object rest
            (values.insert parameter.name
              { value := value, shellValue := shellValue, sensitive := parameter.sensitive })

def stringValue (values : ValidatedParameters) (name : Text) : Option Text :=
  (values.get? name).bind fun parameter => parameter.value.asStr

def protectedPaths : List Text :=
  ["/".toList, "/bin".toList, "/boot".toList, "/dev".toList, "/etc".toList, "/home".toList,
    "/lib".toList, "/lib64".toList, "/proc".toList, "/run".toList, "/sbin".toList,
    "/sys".toList, "/usr".toList, "/var".toList]

/-- `str::strip_prefix`. -/
def stripLeading (lead s : Text) : Option Text :=
  if lead.isPrefixOf s then some (s.drop lead.length) else none

def checkSwapPath (values : ValidatedParameters) : AppResult Unit :=
  match stringValue values "path".toList with
  | none => .error (.validation "Swap 文件路径无效".toList)
  | some path =>
      let managedPath := path == "/swapfile".toList
        || ((stripLeading "/var/lib/qingzhou/swap/".toList path).any isSafeRelativePath)
      if managedPath then .ok ()
      else .error (.validation
        "Swap 文件只允许使用 /swapfile 或 /var/lib/qingzhou/swap/ 下的路径".toList)

def checkPermissionPath (values : ValidatedParameters) : AppResult Unit :=
  match stringValue values "path".toList with
  | none => .error (.validation "目标路径无效".toList)
  | some path =>
      if protectedPaths.contains path || !isNormalizedAbsolutePath path then
        .error (.validation "不能直接修改系统顶层目录；请选择具体文件或下级目录".toList)
      else .ok ()

def checkHostsEntry (values : ValidatedParameters) : AppResult Unit :=
  match stringValue values "address".toList with
  | none => .error (.validation "主机映射 IP 地址无效".toList)
  | some address =>
      if (parseIpAddr address).isNone then
        .error (.validation "主机映射地址必须是有效的 IPv4 或 IPv6 地址".toList)
      else
        match stringValue values "hostname".toList with
        | none => .error (.validation "主机映射名称无效".toList)
        | some hostname =>
            if (parseIpAddr hostname).isSome then
              .error (.validation "主机映射名称不能填写 IP 地址".toList)
            else .ok ()

def checkIpChange (values : ValidatedParameters) : AppResult Unit :=
  match stringValue values "cidr".toList with
  | none => .error (.validation "新 IP 地址无效".toList)
  | some cidr =>
      match (splitOnce '/' cidr).bind fun p => parseIpAddr p.1 with
      | none => .error (.validation "新 IP 地址无效".toList)
      | some address =>
          match (stringValue values "gateway".toList).bind parseIpAddr with
          | none => .error (.validation "默认网关必须是有效 IP 地址".toList)
          | some gateway =>
              if address.isIpv4 != gateway.isIpv4 then
                .error (.validation "新地址与默认网关必须使用相同的 IP 协议版本".toList)
              else .ok ()

def validateTaskConstraints (definition : TaskDefinition) (values : ValidatedParameters) :
    AppResult Unit :=
  if definition.id = "storage.swap_manage".toList then checkSwapPath values
  else if definition.id = "security.file_permissions".toList then checkPermissionPath values
  else if definition.id = "network.hosts_manage".toList then checkHostsEntry values
  else if definition.id = "network.ip_change".toList then checkIpChange values
  else .ok ()

/-- `validate_parameters`. -/
def validateParameters [UuidCrate] (definition : TaskDefinition) (input : Value) :
    AppResult ValidatedParameters :=
  match input.asObject with
  | none => .error (.validation "任务参数必须是对象".toList)
  | some object =>
      match object.find? fun f => !definition.parameters.any fun p => p.name == f.1 with
      | some f => .error (.validation ("存在未知任务参数：".toList ++ f.1))
      | none => do
          let values ← validateDeclared object definition.parameters OrdMap.empty
          validateTaskConstraints definition values
          .ok values

/-! ## §5. What an accepted value is. -/

theorem requiredString_ok {parameter : ParameterDefinition} {value : Value} {s : Text}
    (h : requiredString parameter value = .ok s) : value = .string s := by
  cases value <;> simp [requiredString, Value.asStr] at h
  rw [h]

theorem checkedString_ok {parameter : ParameterDefinition} {check : Text → Bool} {value : Value}
    {sv : Text} (h : checkedString parameter check value = .ok sv) :
    ∃ s, value = .string s ∧ check s = true ∧ sv = shellQuote s := by
  cases hr : requiredString parameter value with
  | error e =>
      simp only [checkedString, hr] at h
      exact absurd h (by simp [bind, Except.bind])
  | ok s =>
      simp only [checkedString, hr, bind, Except.bind] at h
      split at h
      next hc => exact ⟨s, requiredString_ok hr, hc, (Except.ok.inj h).symm⟩
      next => exact absurd h (by simp)

theorem selectItems_ok {parameter : ParameterDefinition} {check : Text → Bool}
    {items : List Value} {seen out : List Text}
    (h : selectItems parameter check seen items = .ok out) :
    ∃ ss : List Text, items = ss.map Value.string ∧ out = ss.map shellQuote
      ∧ ∀ s ∈ ss, check s = true := by
  induction items generalizing seen out with
  | nil =>
      refine ⟨[], rfl, ?_, by simp⟩
      exact (Except.ok.inj h).symm
  | cons v items ih =>
      cases hr : requiredString parameter v with
      | error e =>
          simp only [selectItems, hr] at h
          exact absurd h (by simp [bind, Except.bind])
      | ok s =>
          simp only [selectItems, hr, bind, Except.bind] at h
          split at h
          next => exact absurd h (by simp)
          next hc =>
            split at h
            next => exact absurd h (by simp)
            next out' hrest =>
              obtain ⟨ss, hss, hout, hall⟩ := ih hrest
              simp only [Bool.or_eq_true, Bool.not_eq_true', not_or, Bool.not_eq_false] at hc
              refine ⟨s :: ss, ?_, ?_, ?_⟩
              · rw [requiredString_ok hr, hss, List.map_cons]
              · rw [← Except.ok.inj h, hout, List.map_cons]
              · intro t ht
                rcases List.mem_cons.mp ht with rfl | ht
                · exact hc.1
                · exact hall t ht

theorem checkedSelection_ok {parameter : ParameterDefinition} {check : Text → Bool} {n : Nat}
    {value : Value} {sv : Text} (h : checkedSelection parameter check n value = .ok sv) :
    ∃ ss : List Text, value = .array (ss.map Value.string) ∧ ss ≠ []
      ∧ sv = List.intercalate [' '] (ss.map shellQuote) ∧ ∀ s ∈ ss, check s = true := by
  cases value with
  | array items =>
      simp only [checkedSelection, Value.asArray] at h
      split at h
      next => exact absurd h (by simp)
      next hlen =>
        cases hs : selectItems parameter check [] items with
        | error e =>
            rw [hs] at h
            exact absurd h (by simp [bind, Except.bind])
        | ok out =>
            rw [hs] at h
            obtain ⟨ss, hss, hout, hall⟩ := selectItems_ok hs
            refine ⟨ss, by rw [hss], ?_, ?_, hall⟩
            · intro hnil
              rw [hss, hnil] at hlen
              simp at hlen
            · rw [← Except.ok.inj h, hout]
  | _ => exact absurd h (by simp [checkedSelection, Value.asArray])

theorem checkedTimeRange_ok {parameter : ParameterDefinition} {value : Value} {sv : Text}
    (h : checkedTimeRange parameter value = .ok sv) :
    ∃ object start stop, value = .object object
      ∧ (Value.getField object "start".toList).bind Value.asStr = some start
      ∧ (Value.getField object "end".toList).bind Value.asStr = some stop
      ∧ (∀ f ∈ object, f.1 = "start".toList ∨ f.1 = "end".toList)
      ∧ isTimeValue start = true ∧ isTimeValue stop = true
      ∧ sv = shellQuote (start ++ '/' :: stop) := by
  cases value with
  | object object =>
      simp only [checkedTimeRange, Value.asObject] at h
      split at h
      next => exact absurd h (by simp)
      next hkeys =>
        split at h
        next start stop hs he =>
          split at h
          next ht =>
            rw [Bool.and_eq_true] at ht
            refine ⟨object, start, stop, rfl, hs, he, ?_, ht.1, ht.2, (Except.ok.inj h).symm⟩
            intro f hf
            by_contra hne
            rw [not_or] at hne
            refine hkeys (List.any_eq_true.mpr ⟨f, hf, ?_⟩)
            rw [Bool.and_eq_true, bne_iff_ne, bne_iff_ne]
            exact hne
          next => exact absurd h (by simp)
        next => exact absurd h (by simp)
  | _ => exact absurd h (by simp [checkedTimeRange, Value.asObject])

theorem checkedManagedId_ok [UuidCrate] {parameter : ParameterDefinition} {value : Value}
    {sv : Text} (h : checkedManagedId parameter value = .ok sv) :
    ∃ s u, value = .string s ∧ UuidCrate.parseStr s = some u
      ∧ eqIgnoreAsciiCase s (UuidCrate.hyphenated u) = true
      ∧ sv = shellQuote (UuidCrate.hyphenated u) := by
  cases hr : requiredString parameter value with
  | error e =>
      simp only [checkedManagedId, hr] at h
      exact absurd h (by simp [bind, Except.bind])
  | ok s =>
      simp only [checkedManagedId, hr, bind, Except.bind] at h
      split at h
      next => exact absurd h (by simp)
      next u hu =>
        split at h
        next => exact absurd h (by simp)
        next hc =>
          simp only [Bool.or_eq_true, Bool.not_eq_true', not_or, Bool.not_eq_false] at hc
          exact ⟨s, u, requiredString_ok hr, hu, hc.2, (Except.ok.inj h).symm⟩

/-! ## §6. The shell text of an accepted value. -/

/-- `shell_quote` writes single-quoted text. -/
theorem shellQuote_eq_quoted (value : Text) : shellQuote value = Shell.quoted value := by
  have h : ∀ s : Text, Text.replace ['\''] ['\'', '"', '\'', '"', '\''] s
      = s.flatMap Shell.quoteChar := by
    intro s
    induction s with
    | nil => rfl
    | cons c s ih =>
        rw [List.flatMap_cons, ← ih]
        by_cases hc : c = '\''
        · subst hc
          exact Text.replace_pat_append (by simp) _ s
        · rw [Text.replace_cons_of_ne, Shell.quoteChar, if_neg hc]
          · rfl
          · intro hp
            exact hc (List.cons_prefix_cons.mp hp).1.symm
  unfold shellQuote Shell.quoted
  rw [h]

/-- A string parameter reaches the shell as it is; a managed id in canonical form. -/
def spelledString [UuidCrate] (kind : ParameterKind) (s : Text) : Text :=
  if kind = .managedId then
    match UuidCrate.parseStr s with
    | some u => UuidCrate.hyphenated u
    | none => s
  else s

/-- The words that the shell text of an accepted value spells. -/
def spelledWords [UuidCrate] (kind : ParameterKind) : Value → List Text
  | .string s => [spelledString kind s]
  | .int n => [showInt n.val]
  | .bool b => [if b then "true".toList else "false".toList]
  | .array items => items.filterMap Value.asStr
  | .object fields =>
      match (Value.getField fields "start".toList).bind Value.asStr,
        (Value.getField fields "end".toList).bind Value.asStr with
      | some start, some stop => [start ++ '/' :: stop]
      | _, _ => []
  | _ => []

/-- A word without any character special to the shell or to templates. -/
structure BareWord (word : Text) : Prop where
  nonempty : word ≠ []
  start : Shell.PlainStart word
  plain : Shell.Plain word
  braceless : ∀ c ∈ word, c ≠ '{' ∧ c ≠ '}'

/-- Shell text that spells `words`: quoted words, or one bare word. -/
inductive ShellText : Text → List Text → Prop where
  | quoted {words : List Text} : words ≠ [] →
      ShellText (List.intercalate [' '] (words.map Shell.quoted)) words
  | bare {word : Text} : BareWord word → ShellText word [word]

theorem ShellText.quote (s : Text) : ShellText (shellQuote s) [s] := by
  have h : ShellText (List.intercalate [' '] ([s].map Shell.quoted)) [s] := .quoted (by simp)
  rw [List.map_cons, List.map_nil, List.intercalate_singleton, ← shellQuote_eq_quoted] at h
  exact h

/-- **Shell text reads as its words, in any unquoted position.** -/
theorem ShellText.reads {text : Text} {words : List Text} (h : ShellText text words)
    {s : Shell.LexState} (hs : s.Bare) : Shell.ReadsAsWords s text words := by
  cases h with
  | quoted hne => exact Shell.readsAsWords_quoted hs hne
  | bare hw => exact .one (Shell.readsAs_of_plain hs hw.nonempty hw.start hw.plain)

/-- A word of a class of ordinary characters. -/
theorem BareWord.ofClass {word : Text} (p : Char → Bool)
    (hp : ∀ d ∈ '{' :: '}' :: '#' :: '~' :: Shell.specials, p d = false) (hne : word ≠ [])
    (h : ∀ c ∈ word, p c = true) : BareWord word := by
  have hclass : ∀ c ∈ word, ∀ d ∈ '{' :: '}' :: '#' :: '~' :: Shell.specials, c ≠ d := by
    intro c hc d hd heq
    rw [heq] at hc
    have h1 := h d hc
    rw [hp d hd] at h1
    exact absurd h1 (by simp)
  refine ⟨hne, ⟨?_, ?_⟩, ?_, ?_⟩
  · intro hh
    exact hclass _ (List.mem_of_mem_head? hh) '#' (by simp) rfl
  · intro hh
    exact hclass _ (List.mem_of_mem_head? hh) '~' (by simp) rfl
  · intro c hc
    refine Shell.isPlain_of_class p (fun d hd => hp d ?_) (h c hc)
    simp only [List.mem_cons]
    tauto
  · intro c hc
    exact ⟨hclass c hc '{' (by simp), hclass c hc '}' (by simp)⟩

theorem bareWord_showInt (n : Int) : BareWord (showInt n) :=
  .ofClass isNumeral (by decide) (showInt_ne_nil n) (showInt_numeral n)

theorem bareWord_bool (b : Bool) : BareWord (if b then "true".toList else "false".toList) := by
  refine .ofClass Char.isAlpha (by decide) ?_ ?_ <;> cases b <;> decide

theorem asStr_eq_some {value : Value} {s : Text} (h : value.asStr = some s) :
    value = .string s := by
  cases value <;> simp [Value.asStr] at h
  rw [h]

theorem asI64_eq_some {value : Value} {n : Int} (h : value.asI64 = some n) :
    ∃ k : JsonInt, value = .int k ∧ k.val = n := by
  cases value <;> simp [Value.asI64] at h
  next k => exact ⟨k, rfl, h.2⟩

theorem asU64_eq_some {value : Value} {n : Nat} (h : value.asU64 = some n) :
    ∃ k : JsonInt, value = .int k ∧ k.val = (n : Int) := by
  cases value <;> simp [Value.asU64] at h
  next k => exact ⟨k, rfl, by omega⟩

theorem asBool_eq_some {value : Value} {b : Bool} (h : value.asBool = some b) :
    value = .bool b := by
  cases value <;> simp [Value.asBool] at h
  rw [h]

theorem filterMap_asStr_map (ss : List Text) :
    (ss.map Value.string).filterMap Value.asStr = ss := by
  rw [List.filterMap_map]
  exact List.filterMap_some

/-- The shell text of a checked string, for every kind but managed ids. -/
theorem shellText_checkedString [UuidCrate] {parameter : ParameterDefinition}
    {check : Text → Bool} {value : Value} {sv : Text} (hkind : parameter.kind ≠ .managedId)
    (h : checkedString parameter check value = .ok sv) :
    ShellText sv (spelledWords parameter.kind value) := by
  obtain ⟨s, rfl, _, rfl⟩ := checkedString_ok h
  show ShellText _ [spelledString parameter.kind s]
  rw [spelledString, if_neg hkind]
  exact .quote s

theorem shellText_checkedSelection [UuidCrate] {parameter : ParameterDefinition}
    {check : Text → Bool} {n : Nat} {value : Value} {sv : Text} (kind : ParameterKind)
    (h : checkedSelection parameter check n value = .ok sv) :
    ShellText sv (spelledWords kind value) := by
  obtain ⟨ss, rfl, hne, rfl, _⟩ := checkedSelection_ok h
  show ShellText _ ((ss.map Value.string).filterMap Value.asStr)
  rw [filterMap_asStr_map, List.map_congr_left fun s _ => shellQuote_eq_quoted s]
  exact .quoted hne

/-- **An accepted value's shell text spells the value.** -/
theorem validateValue_shellText [UuidCrate] {parameter : ParameterDefinition} {value : Value}
    {sv : Text} (h : validateValue parameter value = .ok sv) :
    ShellText sv (spelledWords parameter.kind value) := by
  unfold validateValue at h
  cases hk : parameter.kind with
  | integer min max =>
      simp only [hk] at h
      split at h
      next => exact absurd h (by simp)
      next n hn =>
        split at h
        next => exact absurd h (by simp)
        next =>
          obtain ⟨k, rfl, rfl⟩ := asI64_eq_some hn
          rw [← Except.ok.inj h]
          exact .bare (bareWord_showInt k.val)
  | boolean =>
      simp only [hk] at h
      split at h
      next => exact absurd h (by simp)
      next b hb =>
        rw [asBool_eq_some hb, ← Except.ok.inj h]
        exact .bare (bareWord_bool b)
  | port =>
      simp only [hk] at h
      split at h
      next => exact absurd h (by simp)
      next n hn =>
        split at h
        next =>
          obtain ⟨k, rfl, hkn⟩ := asU64_eq_some hn
          rw [← Except.ok.inj h]
          show ShellText _ [showInt k.val]
          rw [hkn]
          exact .quote (showNat n)
        next => exact absurd h (by simp)
  | timeRange =>
      simp only [hk] at h
      obtain ⟨object, start, stop, rfl, hs, he, _, _, _, rfl⟩ := checkedTimeRange_ok h
      simp only [spelledWords, hs, he]
      exact .quote _
  | managedId =>
      simp only [hk] at h
      obtain ⟨s, u, rfl, hu, _, rfl⟩ := checkedManagedId_ok h
      simp only [spelledWords, spelledString, if_true, hu]
      exact .quote _
  | multiSelect options maxItems =>
      simp only [hk] at h
      exact shellText_checkedSelection _ h
  | serviceMultiSelect maxItems =>
      simp only [hk] at h
      exact shellText_checkedSelection _ h
  | _ =>
      simp only [hk] at h
      rw [← hk]
      exact shellText_checkedString (by simp [hk]) h

/-- The kinds whose value is a list of choices; every other kind is one word. -/
def ParameterKind.isMultiple : ParameterKind → Bool
  | .multiSelect _ _ => true
  | .serviceMultiSelect _ => true
  | _ => false

theorem spelledWords_single [UuidCrate] {parameter : ParameterDefinition} {value : Value}
    {sv : Text} (h : validateValue parameter value = .ok sv)
    (hkind : parameter.kind.isMultiple = false) :
    ∃ word, spelledWords parameter.kind value = [word] := by
  unfold validateValue at h
  cases hk : parameter.kind with
  | integer min max =>
      simp only [hk] at h
      split at h
      next => exact absurd h (by simp)
      next n hn =>
        obtain ⟨k, rfl, _⟩ := asI64_eq_some hn
        exact ⟨_, rfl⟩
  | boolean =>
      simp only [hk] at h
      split at h
      next => exact absurd h (by simp)
      next b hb =>
        rw [asBool_eq_some hb]
        exact ⟨_, rfl⟩
  | port =>
      simp only [hk] at h
      split at h
      next => exact absurd h (by simp)
      next n hn =>
        obtain ⟨k, rfl, _⟩ := asU64_eq_some hn
        exact ⟨_, rfl⟩
  | timeRange =>
      simp only [hk] at h
      obtain ⟨object, start, stop, rfl, hs, he, _⟩ := checkedTimeRange_ok h
      exact ⟨start ++ '/' :: stop, by simp only [spelledWords, hs, he]⟩
  | managedId =>
      simp only [hk] at h
      obtain ⟨s, u, rfl, _⟩ := checkedManagedId_ok h
      exact ⟨_, rfl⟩
  | multiSelect options maxItems =>
      rw [hk] at hkind
      exact absurd hkind (by simp [ParameterKind.isMultiple])
  | serviceMultiSelect maxItems =>
      rw [hk] at hkind
      exact absurd hkind (by simp [ParameterKind.isMultiple])
  | _ =>
      simp only [hk] at h
      obtain ⟨s, rfl, _⟩ := checkedString_ok h
      exact ⟨_, rfl⟩

/-! ## §7. The entries of an accepted map. -/

/-- An entry that a declaration put into the map. -/
def Declared [UuidCrate] (parameters : List ParameterDefinition)
    (e : Text × ValidatedParameter) : Prop :=
  ∃ d ∈ parameters, d.name = e.1 ∧ validateValue d e.2.value = .ok e.2.shellValue
    ∧ e.2.sensitive = d.sensitive

/-- One declaration: nothing is given and nothing changes, or the given value or
the default is checked and inserted. -/
theorem validateDeclared_cons [UuidCrate] {object : List (Text × Value)}
    {d : ParameterDefinition} {rest : List ParameterDefinition} {start out : ValidatedParameters}
    (h : validateDeclared object (d :: rest) start = .ok out) :
    ∃ next, validateDeclared object rest next = .ok out ∧
      (((Value.getField object d.name).or d.defaultValue = none ∧ next = start) ∨
        ∃ v sv, (Value.getField object d.name).or d.defaultValue = some v
          ∧ validateValue d v = .ok sv
          ∧ next = start.insert d.name
              { value := v, shellValue := sv, sensitive := d.sensitive }) := by
  rw [validateDeclared] at h
  split at h
  next hnone =>
    split at h
    next => exact absurd h (by simp)
    next => exact ⟨start, h, Or.inl ⟨hnone, rfl⟩⟩
  next v hsome =>
    obtain ⟨sv, hsv, h⟩ := bind_eq_ok.mp h
    exact ⟨_, h, Or.inr ⟨v, sv, hsome, hsv, rfl⟩⟩

theorem validateDeclared_entries [UuidCrate] {object : List (Text × Value)}
    {parameters all : List ParameterDefinition} {start out : ValidatedParameters}
    (hsub : ∀ d ∈ parameters, d ∈ all) (hstart : ∀ e ∈ start.entries, Declared all e)
    (h : validateDeclared object parameters start = .ok out) :
    ∀ e ∈ out.entries, Declared all e := by
  induction parameters generalizing start with
  | nil =>
      rw [← Except.ok.inj h]
      exact hstart
  | cons d parameters ih =>
      have hsub' : ∀ p ∈ parameters, p ∈ all := fun p hp => hsub p (List.mem_cons_of_mem d hp)
      obtain ⟨next, hrest, ⟨_, rfl⟩ | ⟨v, sv, _, hsv, rfl⟩⟩ := validateDeclared_cons h
      · exact ih hsub' hstart hrest
      · refine ih hsub' ?_ hrest
        intro e he
        rcases OrdMap.mem_entries_insert he with rfl | he
        · exact ⟨d, hsub d List.mem_cons_self, rfl, hsv, rfl⟩
        · exact hstart e he

theorem validateParameters_ok [UuidCrate] {definition : TaskDefinition} {input : Value}
    {values : ValidatedParameters} (h : validateParameters definition input = .ok values) :
    ∃ object, input = .object object
      ∧ validateDeclared object definition.parameters OrdMap.empty = .ok values
      ∧ validateTaskConstraints definition values = .ok () := by
  cases input with
  | object object =>
      simp only [validateParameters, Value.asObject] at h
      split at h
      next => exact absurd h (by simp)
      next =>
        obtain ⟨out, hd, h⟩ := bind_eq_ok.mp h
        obtain ⟨_, hc, h⟩ := bind_eq_ok.mp h
        rw [Except.ok.inj h] at hc hd
        exact ⟨object, rfl, hd, hc⟩
  | _ => exact absurd h (by simp [validateParameters, Value.asObject])

/-- **Every entry of an accepted map comes from a declaration that accepts it.** -/
theorem validateParameters_declared [UuidCrate] {definition : TaskDefinition} {input : Value}
    {values : ValidatedParameters} (h : validateParameters definition input = .ok values) :
    ∀ e ∈ values.entries, Declared definition.parameters e := by
  obtain ⟨object, _, hd, _⟩ := validateParameters_ok h
  refine validateDeclared_entries (fun d hd => hd) ?_ hd
  intro e he
  exact absurd he (by simp [OrdMap.empty])

/-! ## §8. Displayed values. -/

def redacted : Text := "[REDACTED]".toList

/-- The text of a value that is not masked. -/
def shownValue (value : Value) : Text :=
  match value.asStr with
  | some s => s
  | none => value.toJson

/-- The text that a parameter contributes to summaries and to the history. -/
def shown (parameter : ValidatedParameter) : Text :=
  if parameter.sensitive then redacted else shownValue parameter.value

end QingzhouSSH.Core.Tasks
