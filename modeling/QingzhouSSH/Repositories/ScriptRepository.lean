/-
  QingzhouSSH.Repositories.ScriptRepository — the tables of personal scripts.

  Every function is one transaction: it returns the new tables, or an error and nothing has
  changed.  A JSON column is modelled as the value it is read back as; the identifiers that
  `Uuid::new_v4` makes are arguments, and one that is taken violates the primary key.

  Main results:
    * `replay_valid` — every version in the tables has passed validation;
    * `getVersion_stable` — a version that exists is never changed.
-/
import QingzhouSSH.Core.Scripts.Validation
import QingzhouSSH.Lib.History
import QingzhouSSH.Lib.Table

namespace QingzhouSSH.Repositories.ScriptRepository

open String (utf8Len)
open QingzhouSSH.Core.Scripts
open QingzhouSSH.Core.Tasks (UuidCrate)
open QingzhouSSH.Domain
open QingzhouSSH.Lib

/-! ## §1. Rows. -/

structure DefinitionRow where
  id : Uuid
  title : Text
  category : Text
  tags : List Text
  isFavorite : Bool
  isEnabled : Bool
  activeVersionId : Uuid
  deleted : Bool
  deriving DecidableEq

structure Tables where
  definitions : List DefinitionRow
  versions : List ScriptVersion

def Tables.empty : Tables := ⟨[], []⟩

/-! ## §2. Checks. -/

variable [UuidCrate] (crates : Crates)

/-- `validate_version`. -/
def validateVersion (draft : NewScriptVersion) : AppResult ScriptScanSummary := do
  validateScriptTimeout draft.timeoutSeconds
  if draft.compatibility ≠ ScriptCompatibility.forShell draft.shell then
    .error (.validation "脚本兼容性声明必须与版本 Shell 一致".toList)
  else
    match crates.parametersOf draft.parameters with
    | none => .error (.validation "脚本参数定义格式无效".toList)
    | some parameters => do
        validateScriptParameters parameters
        scanScriptBodyFor crates.sha256 draft.shell draft.body

/-- `to_bounded_json`. -/
def toBoundedJson (value : Value) (limit : Nat) (name : String) : AppResult Unit :=
  if limit < utf8Len value.toJson then .error (.validation (name.toList ++ "超过大小上限".toList))
  else .ok ()

/-- The CHECK constraints of a definition; its tags are bounded before. -/
def checkDefinition (title category : Text) : AppResult Unit :=
  if 1 ≤ utf8Len title ∧ utf8Len title ≤ 240 ∧ 1 ≤ utf8Len category ∧ utf8Len category ≤ 120 then
    .ok ()
  else .error (.database "CHECK constraint failed".toList)

/-- The row of a new version. -/
def newVersion (versionId definitionId : Uuid) (versionNumber : Nat) (draft : NewScriptVersion) :
    ScriptVersion where
  id := versionId
  definitionId := definitionId
  versionNumber := versionNumber
  body := draft.body
  bodySha256 := crates.sha256 draft.body
  parameters := draft.parameters
  timeoutSeconds := draft.timeoutSeconds
  shell := draft.shell
  compatibility := draft.compatibility

/-- The INSERT of a version, with its keys and the bound of its number. -/
def insertVersion (version : ScriptVersion) (tables : Tables) : AppResult Tables :=
  if tables.versions.any fun other => other.id == version.id
      || (other.definitionId == version.definitionId
        && other.versionNumber == version.versionNumber) then
    .error (.database "UNIQUE constraint failed".toList)
  else if 2147483647 < version.versionNumber then .error (.database "CHECK constraint failed".toList)
  else .ok { tables with versions := tables.versions ++ [version] }

/-! ## §3. Transactions. -/

/-- The JSON columns of a version. -/
def boundVersion (draft : NewScriptVersion) (scan : ScriptScanSummary) : AppResult Unit := do
  toBoundedJson draft.parameters (128 * 1024) "脚本参数"
  toBoundedJson scan.toValue (64 * 1024) "脚本扫描摘要"
  toBoundedJson (compatibilityValue draft.compatibility) (16 * 1024) "脚本兼容性"

def create (definitionId versionId : Uuid) (draft : NewPersonalScript) (tables : Tables) :
    AppResult Tables := do
  validateScriptMetadata draft.title draft.category draft.tags
  let scan ← validateVersion crates draft.version
  toBoundedJson (textsValue draft.tags) (8 * 1024) "脚本标签"
  boundVersion draft.version scan
  if tables.definitions.any fun row => row.id == definitionId then
    .error (.database "UNIQUE constraint failed".toList)
  else do
    checkDefinition draft.title draft.category
    let row : DefinitionRow :=
      { id := definitionId, title := draft.title, category := draft.category, tags := draft.tags,
        isFavorite := draft.isFavorite, isEnabled := draft.isEnabled,
        activeVersionId := versionId, deleted := false }
    insertVersion (newVersion crates versionId definitionId 1 draft.version)
      { tables with definitions := tables.definitions ++ [row] }

/-- The row of a script that has not been deleted. -/
def isLive (id : Uuid) (row : DefinitionRow) : Bool := row.id == id && !row.deleted

/-- `COALESCE(MAX(version_number),0)+1` over the versions of a script that is not deleted. -/
def nextVersion (definitionId : Uuid) (tables : Tables) : Nat :=
  if tables.definitions.any (isLive definitionId) then
    ((tables.versions.filter fun version => version.definitionId == definitionId).map
      ScriptVersion.versionNumber).foldl max 0 + 1
  else 1

def saveVersion (definitionId versionId : Uuid) (draft : NewScriptVersion) (tables : Tables) :
    AppResult Tables := do
  let scan ← validateVersion crates draft
  boundVersion draft scan
  let number := nextVersion definitionId tables
  if number ≤ 1 then .error (.validation "脚本不存在或已删除".toList)
  else do
    let tables ← insertVersion (newVersion crates versionId definitionId number draft) tables
    let definitions ← updateOne (isLive definitionId)
      (fun row => { row with activeVersionId := versionId })
      (.validation "脚本不存在或已删除".toList) tables.definitions
    .ok { tables with definitions := definitions }

/-- An UPDATE of the one row of a script. -/
def updateDefinition (id : Uuid) (refusal : String) (update : DefinitionRow → DefinitionRow)
    (tables : Tables) : AppResult Tables := do
  let definitions ← updateOne (isLive id) update (.validation refusal.toList) tables.definitions
  .ok { tables with definitions := definitions }

def updateMetadata (id : Uuid) (title category : Text) (tags : List Text) (tables : Tables) :
    AppResult Tables := do
  validateScriptMetadata title category tags
  toBoundedJson (textsValue tags) (8 * 1024) "脚本标签"
  checkDefinition title category
  updateDefinition id "脚本不存在或已删除"
    (fun row => { row with title := title, category := category, tags := tags }) tables

def setFavorite (id : Uuid) (favorite : Bool) : Tables → AppResult Tables :=
  updateDefinition id "脚本不存在或已删除" fun row => { row with isFavorite := favorite }

def setEnabled (id : Uuid) (enabled : Bool) : Tables → AppResult Tables :=
  updateDefinition id "脚本不存在或已删除" fun row => { row with isEnabled := enabled }

def softDelete (id : Uuid) : Tables → AppResult Tables :=
  updateDefinition id "脚本不存在或已经删除" fun row =>
    { row with deleted := true, isEnabled := false }

/-- `get_for_editor`. -/
def getForEditor (id : Uuid) (tables : Tables) : Option ScriptDetails := do
  let row ← tables.definitions.find? (isLive id)
  let version ← tables.versions.find? fun version =>
    version.id == row.activeVersionId && version.definitionId == row.id
  some { definition := { id := row.id, title := row.title, category := row.category,
                         tags := row.tags, isEnabled := row.isEnabled },
         activeVersion := version }

/-- `get_version`. -/
def getVersion (definitionId : Uuid) (versionNumber : Nat) (tables : Tables) :
    AppResult ScriptVersion :=
  match tables.versions.find? fun version =>
    version.definitionId == definitionId && version.versionNumber == versionNumber with
  | some version => .ok version
  | none => .error (.validation "脚本版本不存在".toList)

/-- The check of `record_run`: the version is one of the script, and the run is one of a
script. -/
def recordRun (definitionId versionId : Uuid) (runTask : Option Text) (tables : Tables) :
    AppResult Unit :=
  if (tables.definitions.any fun row => row.id == definitionId)
      && (tables.versions.any fun version =>
        version.id == versionId && version.definitionId == definitionId)
      && runTask == some "script.personal".toList then .ok ()
  else .error (.validation "脚本运行引用与脚本版本或运维运行不匹配".toList)

/-! ## §4. Runs of the repository. -/

inductive Call where
  | create (definitionId versionId : Uuid) (draft : NewPersonalScript)
  | saveVersion (definitionId versionId : Uuid) (draft : NewScriptVersion)
  | updateMetadata (id : Uuid) (title category : Text) (tags : List Text)
  | setFavorite (id : Uuid) (favorite : Bool)
  | setEnabled (id : Uuid) (enabled : Bool)
  | softDelete (id : Uuid)

def Call.run (tables : Tables) : Call → AppResult Tables
  | .create definitionId versionId draft =>
      ScriptRepository.create crates definitionId versionId draft tables
  | .saveVersion definitionId versionId draft =>
      ScriptRepository.saveVersion crates definitionId versionId draft tables
  | .updateMetadata id title category tags =>
      ScriptRepository.updateMetadata id title category tags tables
  | .setFavorite id favorite => ScriptRepository.setFavorite id favorite tables
  | .setEnabled id enabled => ScriptRepository.setEnabled id enabled tables
  | .softDelete id => ScriptRepository.softDelete id tables

/-- A call that is refused leaves the tables as they are. -/
def apply (call : Call) (tables : Tables) : Tables :=
  match call.run crates tables with
  | .ok tables => tables
  | .error _ => tables

/-- The tables after these calls, the latest first. -/
def stored (calls : List Call) : Tables := History.replay (apply crates) Tables.empty calls

/-- A version that has passed validation. -/
def Accepted (version : ScriptVersion) : Prop :=
  ∃ draft scan, validateVersion crates draft = .ok scan
    ∧ version = newVersion crates version.id version.definitionId version.versionNumber draft

/-- What a call does to the versions. -/
def Extends (tables tables' : Tables) : Prop :=
  tables'.versions = tables.versions
    ∨ ∃ version, Accepted crates version ∧ tables'.versions = tables.versions ++ [version]

variable {crates}

omit [UuidCrate] in
theorem insertVersion_ok {version : ScriptVersion} {tables tables' : Tables}
    (h : insertVersion version tables = .ok tables') :
    tables'.versions = tables.versions ++ [version] := by
  unfold insertVersion at h
  split at h
  next => cases h
  split at h
  next => cases h
  obtain rfl := Except.ok.inj h
  rfl

omit [UuidCrate] in
theorem updateDefinition_ok {id : Uuid} {refusal : String} {update : DefinitionRow → DefinitionRow}
    {tables tables' : Tables} (h : updateDefinition id refusal update tables = .ok tables') :
    tables'.versions = tables.versions := by
  unfold updateDefinition at h
  obtain ⟨definitions, -, h⟩ := bind_eq_ok.mp h
  obtain rfl := Except.ok.inj h
  rfl

theorem create_extends {definitionId versionId : Uuid} {draft : NewPersonalScript}
    {tables tables' : Tables} (h : create crates definitionId versionId draft tables = .ok tables') :
    Extends crates tables tables' := by
  unfold create at h
  obtain ⟨-, -, h⟩ := bind_eq_ok.mp h
  obtain ⟨scan, hscan, h⟩ := bind_eq_ok.mp h
  obtain ⟨-, -, h⟩ := bind_eq_ok.mp h
  obtain ⟨-, -, h⟩ := bind_eq_ok.mp h
  split at h
  next => cases h
  obtain ⟨-, -, h⟩ := bind_eq_ok.mp h
  have hinserted := insertVersion_ok h
  exact .inr ⟨_, ⟨draft.version, scan, hscan, rfl⟩, hinserted⟩

theorem saveVersion_extends {definitionId versionId : Uuid} {draft : NewScriptVersion}
    {tables tables' : Tables}
    (h : saveVersion crates definitionId versionId draft tables = .ok tables') :
    Extends crates tables tables' := by
  unfold saveVersion at h
  obtain ⟨scan, hscan, h⟩ := bind_eq_ok.mp h
  obtain ⟨-, -, h⟩ := bind_eq_ok.mp h
  dsimp only at h
  split at h
  next => cases h
  obtain ⟨inserted, hinserted, h⟩ := bind_eq_ok.mp h
  obtain ⟨definitions, -, h⟩ := bind_eq_ok.mp h
  obtain rfl := Except.ok.inj h
  have happended := insertVersion_ok hinserted
  exact .inr ⟨_, ⟨draft, scan, hscan, rfl⟩, happended⟩

/-- **A call leaves the versions as they are, or adds one that has passed validation.** -/
theorem apply_extends (call : Call) (tables : Tables) :
    Extends crates tables (apply crates call tables) := by
  unfold apply
  split
  next tables' h =>
    cases call with
    | create definitionId versionId draft => exact create_extends h
    | saveVersion definitionId versionId draft => exact saveVersion_extends h
    | updateMetadata id title category tags =>
        obtain ⟨-, -, h⟩ := bind_eq_ok.mp h
        obtain ⟨-, -, h⟩ := bind_eq_ok.mp h
        obtain ⟨-, -, h⟩ := bind_eq_ok.mp h
        exact .inl (updateDefinition_ok h)
    | setFavorite id favorite => exact .inl (updateDefinition_ok h)
    | setEnabled id enabled => exact .inl (updateDefinition_ok h)
    | softDelete id => exact .inl (updateDefinition_ok h)
  next => exact .inl rfl

/-- **Every version in the tables has passed validation.** -/
theorem replay_valid (calls : List Call) :
    ∀ version ∈ (stored crates calls).versions, Accepted crates version := by
  refine History.replay_keeps (P := fun tables : Tables => ∀ version ∈ tables.versions,
    Accepted crates version) (fun _ h => absurd h List.not_mem_nil) ?_ calls
  intro call tables hvalid version hversion
  rcases apply_extends call tables with hsame | ⟨added, hadded, happended⟩
  · exact hvalid version (hsame ▸ hversion)
  · rw [happended] at hversion
    rcases List.mem_append.mp hversion with hold | hnew
    · exact hvalid version hold
    · exact List.mem_singleton.mp hnew ▸ hadded

/-- **A version that exists is never changed.** -/
theorem getVersion_stable {definitionId : Uuid} {versionNumber : Nat} {tables : Tables}
    {version : ScriptVersion} (h : getVersion definitionId versionNumber tables = .ok version)
    (call : Call) : getVersion definitionId versionNumber (apply crates call tables)
      = .ok version := by
  unfold getVersion at h ⊢
  split at h
  next found hfound =>
    obtain rfl := Except.ok.inj h
    have hlater : (apply crates call tables).versions.find? (fun version =>
        version.definitionId == definitionId && version.versionNumber == versionNumber)
        = some found := by
      rcases apply_extends call tables with hsame | ⟨added, -, happended⟩
      · rw [hsame, hfound]
      · rw [happended, List.find?_append, hfound]
        rfl
    rw [hlater]
  next => cases h

omit [UuidCrate] in
/-- The script that an editor is given is in the tables. -/
theorem getForEditor_mem {id : Uuid} {tables : Tables} {details : ScriptDetails}
    (h : getForEditor id tables = some details) : details.activeVersion ∈ tables.versions := by
  unfold getForEditor at h
  obtain ⟨row, -, h⟩ := Option.bind_eq_some_iff.mp h
  obtain ⟨version, hversion, h⟩ := Option.bind_eq_some_iff.mp h
  obtain rfl := Option.some.inj h
  exact List.mem_of_find?_eq_some hversion

/-! ## §6. The keys of a version. -/

/-- No two versions have one identifier, or one number of one script. -/
def Keyed (tables : Tables) : Prop :=
  tables.versions.Pairwise fun a b =>
    a.id ≠ b.id ∧ ¬ (a.definitionId = b.definitionId ∧ a.versionNumber = b.versionNumber)

omit [UuidCrate] in
theorem insertVersion_keyed {version : ScriptVersion} {tables tables' : Tables}
    (hkeyed : Keyed tables) (h : insertVersion version tables = .ok tables') : Keyed tables' := by
  have happended := insertVersion_ok h
  unfold insertVersion at h
  split at h
  next => cases h
  next hfresh =>
    simp only [List.any_eq_true, Bool.or_eq_true, beq_iff_eq, Bool.and_eq_true, not_exists,
      not_and, not_or] at hfresh
    unfold Keyed
    rw [happended]
    refine List.pairwise_append.mpr ⟨hkeyed, List.pairwise_singleton _ _, ?_⟩
    intro other hother added hadded
    obtain rfl := List.mem_singleton.mp hadded
    obtain ⟨hid, hnumber⟩ := hfresh other hother
    exact ⟨hid, fun hboth => hnumber hboth.1 hboth.2⟩

omit [UuidCrate] in
theorem Keyed.congr {tables tables' : Tables} (h : Keyed tables)
    (hversions : tables'.versions = tables.versions) : Keyed tables' := by
  unfold Keyed
  rw [hversions]
  exact h

/-- **Every call keeps the keys.** -/
theorem apply_keyed {tables : Tables} (hkeyed : Keyed tables) (call : Call) :
    Keyed (apply crates call tables) := by
  unfold apply
  split
  next tables' h =>
    cases call with
    | create definitionId versionId draft =>
        replace h : create crates definitionId versionId draft tables = .ok tables' := h
        unfold create at h
        obtain ⟨-, -, h⟩ := bind_eq_ok.mp h
        obtain ⟨scan, -, h⟩ := bind_eq_ok.mp h
        obtain ⟨-, -, h⟩ := bind_eq_ok.mp h
        obtain ⟨-, -, h⟩ := bind_eq_ok.mp h
        split at h
        next => cases h
        obtain ⟨-, -, h⟩ := bind_eq_ok.mp h
        refine insertVersion_keyed ?_ h
        exact hkeyed
    | saveVersion definitionId versionId draft =>
        replace h : saveVersion crates definitionId versionId draft tables = .ok tables' := h
        unfold saveVersion at h
        obtain ⟨scan, -, h⟩ := bind_eq_ok.mp h
        obtain ⟨-, -, h⟩ := bind_eq_ok.mp h
        dsimp only at h
        split at h
        next => cases h
        obtain ⟨inserted, hinserted, h⟩ := bind_eq_ok.mp h
        obtain ⟨definitions, -, h⟩ := bind_eq_ok.mp h
        obtain rfl := Except.ok.inj h
        exact (insertVersion_keyed hkeyed hinserted).congr rfl
    | updateMetadata id title category tags =>
        obtain ⟨-, -, h⟩ := bind_eq_ok.mp h
        obtain ⟨-, -, h⟩ := bind_eq_ok.mp h
        obtain ⟨-, -, h⟩ := bind_eq_ok.mp h
        exact hkeyed.congr (updateDefinition_ok h)
    | setFavorite id favorite => exact hkeyed.congr (updateDefinition_ok h)
    | setEnabled id enabled => exact hkeyed.congr (updateDefinition_ok h)
    | softDelete id => exact hkeyed.congr (updateDefinition_ok h)
  next => exact hkeyed

/-- The tables that the calls leave are keyed. -/
theorem stored_keyed (calls : List Call) : Keyed (stored crates calls) := by
  have hempty : Keyed Tables.empty := List.Pairwise.nil
  exact History.replay_keeps hempty (fun call _ h => apply_keyed h call) calls

omit [UuidCrate] in
/-- **The version that an editor is given is the one that its number finds.** -/
theorem getVersion_of_editor {id : Uuid} {tables : Tables} {details : ScriptDetails}
    (hkeyed : Keyed tables) (h : getForEditor id tables = some details) :
    getVersion id details.activeVersion.versionNumber tables = .ok details.activeVersion := by
  have hmem := getForEditor_mem h
  unfold getForEditor at h
  obtain ⟨row, hrow, h⟩ := Option.bind_eq_some_iff.mp h
  obtain ⟨version, hversion, h⟩ := Option.bind_eq_some_iff.mp h
  obtain rfl := Option.some.inj h
  have hlive := List.find?_some hrow
  have hof := List.find?_some hversion
  simp only [isLive, Bool.and_eq_true, beq_iff_eq] at hlive hof
  unfold getVersion
  have hfound : tables.versions.find? (fun other =>
      other.definitionId == id && other.versionNumber == version.versionNumber)
      = some version := by
    cases hfind : tables.versions.find? (fun other =>
        other.definitionId == id && other.versionNumber == version.versionNumber) with
    | none =>
        have hnone := List.find?_eq_none.mp hfind version hmem
        simp [hof.2, hlive.1] at hnone
    | some found =>
        have hmatch := List.find?_some hfind
        simp only [Bool.and_eq_true, beq_iff_eq] at hmatch
        -- two versions of one number are one version
        by_contra hne
        have hne : found ≠ version := fun heq => hne (by rw [heq])
        have hmemFound := List.mem_of_find?_eq_some hfind
        have hsymm : Std.Symm fun a b : ScriptVersion => a.id ≠ b.id
            ∧ ¬ (a.definitionId = b.definitionId ∧ a.versionNumber = b.versionNumber) :=
          ⟨fun a b hab => ⟨hab.1.symm, fun hboth => hab.2 ⟨hboth.1.symm, hboth.2.symm⟩⟩⟩
        have hdifferent := hkeyed.forall hmemFound hmem hne
        exact hdifferent.2 ⟨by rw [hmatch.1, hof.2, hlive.1], hmatch.2⟩
  rw [hfound]

/-- What validation says of a version. -/
theorem Accepted.facts {version : ScriptVersion} (h : Accepted crates version) :
    (1 ≤ version.timeoutSeconds ∧ version.timeoutSeconds ≤ 3600)
      ∧ version.compatibility = ScriptCompatibility.forShell version.shell := by
  obtain ⟨draft, scan, hvalid, heq⟩ := h
  rw [heq]
  unfold validateVersion at hvalid
  obtain ⟨_, htimeout, hvalid⟩ := bind_eq_ok.mp hvalid
  split at hvalid
  next => cases hvalid
  next hcompatible =>
    refine ⟨?_, not_not.mp hcompatible⟩
    unfold validateScriptTimeout at htimeout
    split at htimeout
    next hrange => exact hrange
    next => cases htimeout

end QingzhouSSH.Repositories.ScriptRepository
