/-
  QingzhouSSH.Core.Scripts.Package — scripts as files.

  An export writes the active version of a script as JSON.  An import reads such a file,
  refuses field names that do not belong in it and bodies that look like they hold
  credentials, and makes the draft of a new script.

  Main results:
    * `harmless_package` — no field of a package is a forbidden one;
    * `importScriptPackage_exported` — what an import makes of an exported script.
-/
import QingzhouSSH.Core.Scripts.Validation

namespace QingzhouSSH.Core.Scripts

open String (utf8Len)
open QingzhouSSH.Core.Logs (lines)
open QingzhouSSH.Core.Tasks
open QingzhouSSH.Domain
open QingzhouSSH.Lib.Text (contains)

/-! ## §1. Packages. -/

def scriptPackageSchemaVersion : Nat := 2

def maxScriptPackageBytes : Nat := 2 * 1024 * 1024

structure ScriptPackageExport where
  relativePath : Text
  sha256 : Text
  sizeBytes : Nat
  deriving Repr, DecidableEq

structure ScriptPackageDefinition where
  title : Text
  category : Text
  tags : List Text
  body : Text
  parameters : List ScriptParameter
  shell : Option ScriptShell
  compatibility : Option ScriptCompatibility

structure ScriptPackage where
  schemaVersion : Nat
  exportedAt : Int
  script : ScriptPackageDefinition

/-- What the crates do with a package: print a value, read a text, and read a package from a
value; a text or a value that is refused has a message. -/
structure PackageCrates extends Crates where
  toVecPretty : Value → Text
  fromSlice : Text → Except Text Value
  packageOf : Value → Except Text ScriptPackage

/-! ## §2. The value of a package. -/

/-- The tag of a kind of parameter, with its fields. -/
def kindValue : ParameterKind → Value
  | .string minLength maxLength multiline =>
      .object [("maxLength".toList, jsonInt maxLength), ("minLength".toList, jsonInt minLength),
        ("multiline".toList, .bool multiline), ("type".toList, .string "string".toList)]
  | .integer min max =>
      .object [("max".toList, jsonInt max), ("min".toList, jsonInt min),
        ("type".toList, .string "integer".toList)]
  | .boolean => .object [("type".toList, .string "boolean".toList)]
  | .enum options =>
      .object [("options".toList, textsValue options), ("type".toList, .string "enum".toList)]
  | .absolutePath => .object [("type".toList, .string "absolutePath".toList)]
  | .timezone => .object [("type".toList, .string "timezone".toList)]
  | .serviceName => .object [("type".toList, .string "serviceName".toList)]
  | .timeRange => .object [("type".toList, .string "timeRange".toList)]
  | .host => .object [("type".toList, .string "host".toList)]
  | .port => .object [("type".toList, .string "port".toList)]
  | .interfaceName => .object [("type".toList, .string "interfaceName".toList)]
  | .cidr => .object [("type".toList, .string "cidr".toList)]
  | .containerName => .object [("type".toList, .string "containerName".toList)]
  | .fileMode => .object [("type".toList, .string "fileMode".toList)]
  | .cronExpression => .object [("type".toList, .string "cronExpression".toList)]
  | .managedId => .object [("type".toList, .string "managedId".toList)]
  | .multiSelect options maxItems =>
      .object [("maxItems".toList, jsonInt maxItems), ("options".toList, textsValue options),
        ("type".toList, .string "multiSelect".toList)]
  | .serviceMultiSelect maxItems =>
      .object [("maxItems".toList, jsonInt maxItems),
        ("type".toList, .string "serviceMultiSelect".toList)]

def parameterValue (parameter : ScriptParameter) : Value :=
  .object [("defaultValue".toList, parameter.defaultValue.getD .null),
    ("description".toList, .string parameter.description),
    ("kind".toList, kindValue parameter.kind), ("label".toList, .string parameter.label),
    ("name".toList, .string parameter.name), ("required".toList, .bool parameter.required),
    ("sensitive".toList, .bool parameter.sensitive)]

def parametersValue (parameters : List ScriptParameter) : Value :=
  .array (parameters.map parameterValue)

def ScriptPackageDefinition.toValue (script : ScriptPackageDefinition) : Value :=
  .object [("body".toList, .string script.body), ("category".toList, .string script.category),
    ("compatibility".toList, (script.compatibility.map compatibilityValue).getD .null),
    ("parameters".toList, parametersValue script.parameters),
    ("shell".toList, (script.shell.map fun shell => Value.string shell.asStr).getD .null),
    ("tags".toList, textsValue script.tags), ("title".toList, .string script.title)]

def ScriptPackage.toValue (package : ScriptPackage) : Value :=
  .object [("exportedAt".toList, jsonInt package.exportedAt),
    ("schemaVersion".toList, jsonInt package.schemaVersion),
    ("script".toList, package.script.toValue)]

/-! ## §3. What a file may not hold. -/

def forbiddenFields : List Text :=
  ["server".toList, "servers".toList, "serverid".toList, "serverids".toList,
    "credential".toList, "credentials".toList, "credentialid".toList, "history".toList,
    "run".toList, "runs".toList, "operationruns".toList, "localpath".toList,
    "dataroot".toList, "privatekey".toList, "password".toList, "token".toList,
    "apikey".toList, "secret".toList]

/-- `is_forbidden_field`, of the letters and digits of a key. -/
def isForbiddenKey (key : Text) : Bool :=
  forbiddenFields.contains ((key.filter isAsciiAlphanumeric).map toAsciiLower)

mutual

/-- `reject_forbidden_fields`. -/
def rejectForbiddenFields : Value → Text → AppResult Unit
  | .object fields, path => rejectFields fields path
  | .array items, path => rejectItems 0 items path
  | .null, _ => .ok ()
  | .bool _, _ => .ok ()
  | .int _, _ => .ok ()
  | .float _, _ => .ok ()
  | .string _, _ => .ok ()

def rejectFields : List (Text × Value) → Text → AppResult Unit
  | [], _ => .ok ()
  | (key, nested) :: fields, path =>
      if isForbiddenKey key then
        .error (.forbiddenScriptField (path ++ '.' :: key ++ " 不允许出现在脚本包中".toList))
      else do
        rejectForbiddenFields nested (path ++ '.' :: key)
        rejectFields fields path

def rejectItems : Nat → List Value → Text → AppResult Unit
  | _, [], _ => .ok ()
  | index, nested :: items, path => do
      rejectForbiddenFields nested (path ++ '[' :: showNat index ++ [']'])
      rejectItems (index + 1) items path

end

/-- `to_ascii_uppercase`. -/
def toAsciiUpper (c : Char) : Char := if 'a' ≤ c ∧ c ≤ 'z' then Char.ofNat (c.toNat - 32) else c

/-- `trim_start_matches`, with the length of the text as its bound. -/
def trimStartMatches (pat : Text) : Nat → Text → Text
  | 0, s => s
  | fuel + 1, s =>
      match pat.isPrefixOf? s with
      | some rest => trimStartMatches pat fuel rest
      | none => s

def isQuote (c : Char) : Bool := c == '\'' || c == '"'

/-- The names that end in one of these are taken for names of credentials. -/
def sensitiveSuffixes : List Text :=
  ["PASSWORD".toList, "TOKEN".toList, "API_KEY".toList, "PRIVATE_KEY".toList, "SECRET".toList]

/-- A line that assigns a plain text to the name of a credential. -/
def isSensitiveLine (line : Text) : Bool :=
  match splitOnce '=' (trim line) with
  | none => false
  | some (name, value) =>
      let name := (trimStartMatches "export ".toList name.length (trim name)).map toAsciiUpper
      let value := ((trim value).dropWhile isQuote).rdropWhile isQuote
      (sensitiveSuffixes.any fun suffix => name == suffix || ('_' :: suffix).isSuffixOf name)
        && !value.isEmpty && value.head? != some '$'

/-- `reject_sensitive_body`. -/
def rejectSensitiveBody (body : Text) : AppResult Unit :=
  let upper := body.map toAsciiUpper
  if contains upper "-----BEGIN ".toList && contains upper "PRIVATE KEY-----".toList then
    .error (.unsafeScriptPackage "检测到私钥内容，请删除凭据后再导入".toList)
  else
    match (lines body).findIdx? isSensitiveLine with
    | some index => .error (.unsafeScriptPackage ("第 ".toList ++ showNat (index + 1)
        ++ " 行疑似包含明文凭据赋值，请删除后再导入".toList))
    | none => .ok ()

/-! ## §4. Import and export. -/

variable [UuidCrate] (crates : PackageCrates)

/-- `import_script_package`, of a file that is UTF-8. -/
def importScriptPackage (bytes : Text) : AppResult NewPersonalScript :=
  if maxScriptPackageBytes < utf8Len bytes then
    .error (.validation "脚本包不能超过 2 MiB，请缩小后重试".toList)
  else
    match crates.fromSlice bytes with
    | .error message => .error (.serialization ("脚本包 JSON 无效：".toList ++ message))
    | .ok raw => do
        rejectForbiddenFields raw ['$']
        let schemaVersion := ((raw.asObject.bind fun fields =>
          Value.getField fields "schemaVersion".toList).bind Value.asU64).getD 0
        if ¬ (schemaVersion = 1 ∨ schemaVersion = 2) then
          .error (.unsupportedScriptPackage
            ("仅支持 schemaVersion 1 或 2，当前为 ".toList ++ showNat schemaVersion))
        else
          match crates.packageOf raw with
          | .error message => .error (.serialization ("脚本包结构无效：".toList ++ message))
          | .ok package => do
              let script := package.script
              validateScriptMetadata script.title script.category script.tags
              validateScriptParameters script.parameters
              rejectSensitiveBody script.body
              let shell := script.shell.getD .posixSh
              let scan ← scanScriptBodyFor crates.sha256 shell script.body
              let compatibility := script.compatibility.getD (ScriptCompatibility.forShell shell)
              if compatibility ≠ ScriptCompatibility.forShell shell then
                .error (.validation "脚本包兼容性声明必须与 Shell 一致".toList)
              else
                .ok { title := script.title, category := script.category, tags := script.tags,
                      isFavorite := false, isEnabled := false,
                      version := { body := script.body,
                                   parameters := parametersValue script.parameters,
                                   scanSummary := scan.toValue, timeoutSeconds := 300,
                                   shell := shell, compatibility := compatibility } }

/-- The package of a script. -/
def packageOfDetails (exportedAt : Int) (details : ScriptDetails)
    (parameters : List ScriptParameter) : ScriptPackage where
  schemaVersion := scriptPackageSchemaVersion
  exportedAt := exportedAt
  script :=
    { title := details.definition.title, category := details.definition.category,
      tags := details.definition.tags, body := details.activeVersion.body,
      parameters := parameters, shell := some details.activeVersion.shell,
      compatibility := some details.activeVersion.compatibility }

/-- What an export takes from outside: the clock, the name of the file, whether the directory of
the data is absolute, and what becomes of writing the file. -/
structure ExportWorld where
  now : Int
  fileId : Uuid
  absoluteRoot : Bool
  written : AppResult Unit

/-- `export_script_package`, with the file that it writes. -/
def exportScriptPackage (world : ExportWorld) (details : ScriptDetails) :
    AppResult (Text × ScriptPackageExport) :=
  if !world.absoluteRoot then .error (.validation "项目数据目录必须是绝对路径".toList)
  else do
    validateScriptMetadata details.definition.title details.definition.category
      details.definition.tags
    match crates.parametersOf details.activeVersion.parameters with
    | none => .error (.validation "脚本参数定义格式无效".toList)
    | some parameters => do
        validateScriptParameters parameters
        let _ ← scanScriptBodyFor crates.sha256 details.activeVersion.shell
          details.activeVersion.body
        let bytes := crates.toVecPretty (packageOfDetails world.now details parameters).toValue
        if maxScriptPackageBytes < utf8Len bytes then
          .error (.validation "导出的脚本包超过 2 MiB，无法安全写入".toList)
        else do
          world.written
          .ok (bytes,
            { relativePath := "downloads/scripts/script-".toList ++ world.fileId.text
                ++ ".json".toList,
              sha256 := crates.sha256 bytes, sizeBytes := utf8Len bytes })

/-! ## §5. The fields of an exported package. -/

/-- A value without a forbidden field, wherever it stands. -/
def Harmless (value : Value) : Prop := ∀ path, rejectForbiddenFields value path = .ok ()

omit [UuidCrate]

theorem harmless_object {fields : List (Text × Value)}
    (h : ∀ field ∈ fields, isForbiddenKey field.1 = false ∧ Harmless field.2) :
    Harmless (.object fields) := by
  intro path
  show rejectFields fields path = .ok ()
  induction fields with
  | nil => rfl
  | cons field fields ih =>
      obtain ⟨⟨hkey, hvalue⟩, hrest⟩ := List.forall_mem_cons.mp h
      obtain ⟨key, nested⟩ := field
      unfold rejectFields
      rw [if_neg (Bool.not_eq_true _ ▸ hkey)]
      exact bind_eq_ok.mpr ⟨(), hvalue _, ih hrest⟩

theorem harmless_array {items : List Value} (h : ∀ item ∈ items, Harmless item) :
    Harmless (.array items) := by
  intro path
  show rejectItems 0 items path = .ok ()
  generalize 0 = index
  induction items generalizing index with
  | nil => rfl
  | cons item items ih =>
      obtain ⟨hitem, hrest⟩ := List.forall_mem_cons.mp h
      unfold rejectItems
      exact bind_eq_ok.mpr ⟨(), hitem _, ih hrest (index + 1)⟩

theorem harmless_scalar {value : Value} (h : IsScalar value) : Harmless value := by
  intro path
  cases value with
  | array items => exact h.elim
  | object fields => exact h.elim
  | _ => rfl

theorem harmless_string (s : Text) : Harmless (.string s) := fun _ => rfl

theorem harmless_bool (b : Bool) : Harmless (.bool b) := fun _ => rfl

theorem harmless_jsonInt (n : Int) : Harmless (jsonInt n) := by
  unfold jsonInt
  split
  · exact fun _ => rfl
  · exact fun _ => rfl

theorem harmless_texts (texts : List Text) : Harmless (textsValue texts) := by
  refine harmless_array fun item hitem => ?_
  obtain ⟨s, -, rfl⟩ := List.mem_map.mp hitem
  exact harmless_string s

/-- Fields that are checked one by one. -/
theorem harmless_cons {key : Text} {value : Value} {fields : List (Text × Value)}
    (hkey : isForbiddenKey key = false) (hvalue : Harmless value)
    (h : ∀ field ∈ fields, isForbiddenKey field.1 = false ∧ Harmless field.2) :
    ∀ field ∈ (key, value) :: fields, isForbiddenKey field.1 = false ∧ Harmless field.2 :=
  List.forall_mem_cons.mpr ⟨⟨hkey, hvalue⟩, h⟩

theorem harmless_nil : ∀ field ∈ ([] : List (Text × Value)),
    isForbiddenKey field.1 = false ∧ Harmless field.2 := fun _ h => absurd h List.not_mem_nil

/-- The tag of a kind, alone or after other fields. -/
theorem harmless_tag (tag : Text) : ∀ field ∈ [("type".toList, Value.string tag)],
    isForbiddenKey field.1 = false ∧ Harmless field.2 :=
  harmless_cons (by decide) (harmless_string tag) harmless_nil

/-- The fields of a kind of parameter. -/
theorem harmless_kind (kind : ParameterKind) : Harmless (kindValue kind) := by
  cases kind with
  | string minLength maxLength multiline =>
      exact harmless_object (harmless_cons (by decide) (harmless_jsonInt _)
        (harmless_cons (by decide) (harmless_jsonInt _)
          (harmless_cons (by decide) (harmless_bool _) (harmless_tag _))))
  | integer min max =>
      exact harmless_object (harmless_cons (by decide) (harmless_jsonInt _)
        (harmless_cons (by decide) (harmless_jsonInt _) (harmless_tag _)))
  | enum options =>
      exact harmless_object (harmless_cons (by decide) (harmless_texts _) (harmless_tag _))
  | multiSelect options maxItems =>
      exact harmless_object (harmless_cons (by decide) (harmless_jsonInt _)
        (harmless_cons (by decide) (harmless_texts _) (harmless_tag _)))
  | serviceMultiSelect maxItems =>
      exact harmless_object (harmless_cons (by decide) (harmless_jsonInt _) (harmless_tag _))
  | _ => exact harmless_object (harmless_tag _)

theorem harmless_parameter {parameter : ScriptParameter}
    (h : ∀ default ∈ parameter.defaultValue, IsScalar default) :
    Harmless (parameterValue parameter) := by
  have hdefault : Harmless (parameter.defaultValue.getD .null) := by
    cases hvalue : parameter.defaultValue with
    | none => exact fun _ => rfl
    | some default => exact harmless_scalar (h default hvalue)
  refine harmless_object (harmless_cons (by decide) hdefault
    (harmless_cons (by decide) (harmless_string _)
      (harmless_cons (by decide) (harmless_kind _) ?_)))
  refine harmless_cons (by decide) (harmless_string _)
    (harmless_cons (by decide) (harmless_string _) ?_)
  exact harmless_cons (by decide) (harmless_bool _)
    (harmless_cons (by decide) (harmless_bool _) harmless_nil)

/-- **The fields of a package are none of the forbidden ones.** -/
theorem harmless_package (package : ScriptPackage)
    (h : ∀ parameter ∈ package.script.parameters,
      ∀ default ∈ parameter.defaultValue, IsScalar default) : Harmless package.toValue := by
  have hcompatibility : Harmless ((package.script.compatibility.map compatibilityValue).getD .null) := by
    cases package.script.compatibility with
    | none => exact fun _ => rfl
    | some compatibility =>
        exact harmless_object (harmless_cons (by decide) (harmless_texts _)
          (harmless_cons (by decide) (harmless_texts _) harmless_nil))
  have hshell : Harmless ((package.script.shell.map fun shell =>
      Value.string shell.asStr).getD .null) := by
    cases package.script.shell with
    | none => exact fun _ => rfl
    | some shell => exact harmless_string _
  have hparameters : Harmless (parametersValue package.script.parameters) := by
    refine harmless_array fun item hitem => ?_
    obtain ⟨parameter, hmem, rfl⟩ := List.mem_map.mp hitem
    exact harmless_parameter (h parameter hmem)
  have hscript : Harmless package.script.toValue := by
    refine harmless_object (harmless_cons (by decide) (harmless_string _)
      (harmless_cons (by decide) (harmless_string _)
        (harmless_cons (by decide) hcompatibility ?_)))
    refine harmless_cons (by decide) hparameters (harmless_cons (by decide) hshell ?_)
    exact harmless_cons (by decide) (harmless_texts _)
      (harmless_cons (by decide) (harmless_string _) harmless_nil)
  exact harmless_object (harmless_cons (by decide) (harmless_jsonInt _)
    (harmless_cons (by decide) (harmless_jsonInt _)
      (harmless_cons (by decide) hscript harmless_nil)))

/-! ## §6. The round trip. -/

/-- The crates read a package back that they have printed, and its parameters. -/
structure PackageCrates.ReadsBack (crates : PackageCrates) (package : ScriptPackage) : Prop where
  text : crates.fromSlice (crates.toVecPretty package.toValue) = .ok package.toValue
  value : crates.packageOf package.toValue = .ok package
  parameters : crates.parametersOf (parametersValue package.script.parameters)
    = some package.script.parameters

/-- The draft has what the script has. -/
structure SameScript (crates : PackageCrates) (details : ScriptDetails)
    (draft : NewPersonalScript) : Prop where
  title : draft.title = details.definition.title
  category : draft.category = details.definition.category
  tags : draft.tags = details.definition.tags
  body : draft.version.body = details.activeVersion.body
  parameters : crates.parametersOf draft.version.parameters
    = crates.parametersOf details.activeVersion.parameters
  shell : draft.version.shell = details.activeVersion.shell
  compatibility : draft.version.compatibility = details.activeVersion.compatibility
  timeoutSeconds : draft.version.timeoutSeconds = details.activeVersion.timeoutSeconds

/-- What an export that succeeds has checked, and what it has written. -/
theorem exportScriptPackage_ok [UuidCrate] {crates : PackageCrates} {world : ExportWorld}
    {details : ScriptDetails} {file : Text} {result : ScriptPackageExport}
    (h : exportScriptPackage crates world details = .ok (file, result)) :
    validateScriptMetadata details.definition.title details.definition.category
        details.definition.tags = .ok ()
      ∧ ∃ parameters scan, crates.parametersOf details.activeVersion.parameters = some parameters
        ∧ validateScriptParameters parameters = .ok ()
        ∧ scanScriptBodyFor crates.sha256 details.activeVersion.shell details.activeVersion.body
          = .ok scan
        ∧ file = crates.toVecPretty (packageOfDetails world.now details parameters).toValue
        ∧ utf8Len file ≤ maxScriptPackageBytes := by
  unfold exportScriptPackage at h
  split at h
  next => cases h
  obtain ⟨_, hmetadata, h⟩ := bind_eq_ok.mp h
  split at h
  next => cases h
  next parameters hparameters =>
    obtain ⟨_, hvalid, h⟩ := bind_eq_ok.mp h
    obtain ⟨scan, hscan, h⟩ := bind_eq_ok.mp h
    dsimp only at h
    split at h
    next => cases h
    next hsize =>
      obtain ⟨_, -, h⟩ := bind_eq_ok.mp h
      obtain ⟨rfl, -⟩ := Prod.mk.inj (Except.ok.inj h)
      exact ⟨hmetadata, parameters, scan, hparameters, hvalid, hscan, rfl, Nat.le_of_not_lt hsize⟩

theorem jsonInt_schemaVersion : (jsonInt scriptPackageSchemaVersion).asU64 = some 2 := by
  have hrange : -(2 ^ 63) ≤ (2 : Int) ∧ (2 : Int) < 2 ^ 64 := by omega
  show (if h : -(2 ^ 63) ≤ (2 : Int) ∧ (2 : Int) < 2 ^ 64 then Value.int ⟨2, h⟩ else .null).asU64
    = some 2
  rw [dif_pos hrange]
  rfl

/-- The version that an import reads. -/
theorem schemaVersion_of_package (package : ScriptPackage)
    (h : package.schemaVersion = scriptPackageSchemaVersion) :
    ((package.toValue.asObject.bind fun fields =>
      Value.getField fields "schemaVersion".toList).bind Value.asU64).getD 0 = 2 := by
  have hfound : (package.toValue.asObject.bind fun fields =>
      Value.getField fields "schemaVersion".toList) = some (jsonInt package.schemaVersion) := by
    have hfirst : ("exportedAt".toList == "schemaVersion".toList) = false := by decide
    have hsecond : ("schemaVersion".toList == "schemaVersion".toList) = true := by decide
    simp only [ScriptPackage.toValue, Value.asObject, Option.bind_some, Value.getField,
      List.find?_cons, hfirst, hsecond, Option.map_some]
  rw [hfound, h]
  show ((jsonInt scriptPackageSchemaVersion).asU64).getD 0 = 2
  rw [jsonInt_schemaVersion]
  rfl

/-- The draft that an import makes of an exported script. -/
def importedDraft (details : ScriptDetails) (parameters : List ScriptParameter)
    (scan : ScriptScanSummary) : NewPersonalScript where
  title := details.definition.title
  category := details.definition.category
  tags := details.definition.tags
  isFavorite := false
  isEnabled := false
  version :=
    { body := details.activeVersion.body, parameters := parametersValue parameters,
      scanSummary := scan.toValue, timeoutSeconds := 300,
      shell := details.activeVersion.shell,
      compatibility := details.activeVersion.compatibility }

/-- **An import of what an export has written refuses the body, or makes the draft.** -/
theorem importScriptPackage_exported [UuidCrate] {crates : PackageCrates} {world : ExportWorld}
    {details : ScriptDetails} {parameters : List ScriptParameter} {scan : ScriptScanSummary}
    (hcompatible : details.activeVersion.compatibility
      = ScriptCompatibility.forShell details.activeVersion.shell)
    (hmetadata : validateScriptMetadata details.definition.title details.definition.category
      details.definition.tags = .ok ())
    (hvalid : validateScriptParameters parameters = .ok ())
    (hscan : scanScriptBodyFor crates.sha256 details.activeVersion.shell
      details.activeVersion.body = .ok scan)
    (hreads : crates.ReadsBack (packageOfDetails world.now details parameters))
    (hsize : utf8Len (crates.toVecPretty (packageOfDetails world.now details parameters).toValue)
      ≤ maxScriptPackageBytes) :
    importScriptPackage crates
        (crates.toVecPretty (packageOfDetails world.now details parameters).toValue)
      = (rejectSensitiveBody details.activeVersion.body).map fun _ =>
          importedDraft details parameters scan := by
  have hforbidden := harmless_package (packageOfDetails world.now details parameters)
    (defaults_scalar hvalid) ['$']
  have hversion := schemaVersion_of_package (packageOfDetails world.now details parameters) rfl
  unfold importScriptPackage
  rw [if_neg (Nat.not_lt.mpr hsize), hreads.text]
  dsimp only
  rw [hforbidden]
  dsimp only [bind, Except.bind]
  rw [hversion, if_neg (not_not.mpr (.inr rfl)), hreads.value]
  show (validateScriptMetadata details.definition.title details.definition.category
    details.definition.tags >>= _) = _
  rw [hmetadata]
  show (validateScriptParameters parameters >>= _) = _
  rw [hvalid]
  show (rejectSensitiveBody details.activeVersion.body >>= _) = _
  cases rejectSensitiveBody details.activeVersion.body with
  | error e => rfl
  | ok u =>
      show (scanScriptBodyFor crates.sha256 details.activeVersion.shell
        details.activeVersion.body >>= _) = _
      rw [hscan]
      show (if details.activeVersion.compatibility
        ≠ ScriptCompatibility.forShell details.activeVersion.shell then _ else _) = _
      rw [if_neg (not_not.mpr hcompatible)]
      rfl

end QingzhouSSH.Core.Scripts
