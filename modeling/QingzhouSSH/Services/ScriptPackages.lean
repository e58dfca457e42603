/-
  QingzhouSSH.Services.ScriptPackages — scripts that leave as files and come back.

  An export checks less than an import, and a package has no field for the timeout.

  Main result: `package_round_trip_iff` — when an exported script is imported as it was.
-/
import QingzhouSSH.Core.Scripts.Package
import QingzhouSSH.Repositories.ScriptRepository

namespace QingzhouSSH.Services.ScriptService

open QingzhouSSH.Core.Scripts
open QingzhouSSH.Core.Tasks (UuidCrate hyphenatedUuid)
open QingzhouSSH.Domain
open QingzhouSSH.Repositories
open QingzhouSSH.Repositories.ScriptRepository (Tables Call stored getForEditor getForEditor_mem
  replay_valid)

/-! ## §1. The calls of the service. -/

section

variable [UuidCrate] (crates : PackageCrates)

/-- `import`: the draft is a new script. -/
def importScript (bytes : Text) (definitionId versionId : Uuid) (tables : Tables) :
    AppResult Tables := do
  let draft ← importScriptPackage crates bytes
  ScriptRepository.create crates.toCrates definitionId versionId draft tables

/-- `export`, with the file that it writes. -/
def exportScript (world : ExportWorld) (id : Uuid) (tables : Tables) :
    AppResult (Text × ScriptPackageExport) :=
  match getForEditor id tables with
  | none => .error (.validation "脚本不存在或已删除".toList)
  | some details => exportScriptPackage crates world details

/-! ## §2. The round trip. -/

variable {crates}

/-- **An exported script is imported as it was exactly when its timeout is the one that an import
sets, and its body does not look like it holds credentials.** -/
theorem package_round_trip_iff {calls : List Call} {id : Uuid} {world : ExportWorld}
    {details : ScriptDetails} {file : Text} {result : ScriptPackageExport}
    (hstored : getForEditor id (stored crates.toCrates calls) = some details)
    (hexport : exportScript crates world id (stored crates.toCrates calls) = .ok (file, result))
    (hreads : ∀ parameters, crates.parametersOf details.activeVersion.parameters = some parameters →
      crates.ReadsBack (packageOfDetails world.now details parameters)) :
    (∃ draft, importScriptPackage crates file = .ok draft ∧ SameScript crates details draft)
      ↔ details.activeVersion.timeoutSeconds = 300
        ∧ rejectSensitiveBody details.activeVersion.body = .ok () := by
  have haccepted := replay_valid calls _ (getForEditor_mem hstored)
  obtain ⟨-, hcompatible⟩ := haccepted.facts
  unfold exportScript at hexport
  rw [hstored] at hexport
  obtain ⟨hmetadata, parameters, scan, hparameters, hvalid, hscan, rfl, hsize⟩ :=
    exportScriptPackage_ok hexport
  have hback := hreads parameters hparameters
  rw [importScriptPackage_exported hcompatible hmetadata hvalid hscan hback hsize]
  constructor
  · rintro ⟨draft, himport, hsame⟩
    cases hbody : rejectSensitiveBody details.activeVersion.body with
    | error e =>
        rw [hbody] at himport
        cases himport
    | ok u =>
        rw [hbody] at himport
        obtain rfl := Except.ok.inj himport
        exact ⟨hsame.timeoutSeconds.symm, rfl⟩
  · rintro ⟨htimeout, hbody⟩
    have hsame : crates.parametersOf (parametersValue parameters)
        = crates.parametersOf details.activeVersion.parameters := by
      rw [hparameters]
      exact hback.parameters
    rw [hbody]
    exact ⟨importedDraft details parameters scan, rfl,
      { title := rfl, category := rfl, tags := rfl, body := rfl, parameters := hsame,
        shell := rfl, compatibility := rfl, timeoutSeconds := htimeout.symm }⟩

end

/-! ## §3. Three scripts. -/

def sampleId : Uuid :=
  ⟨"00000000-0000-0000-0000-000000000001".toList, Domain.hyphenated_unversioned⟩

def sampleDraft (body : String) (timeoutSeconds : Nat) : NewPersonalScript where
  title := "t".toList
  category := "c".toList
  tags := []
  isFavorite := false
  isEnabled := false
  version :=
    { body := body.toList, parameters := .array [], scanSummary := .null,
      timeoutSeconds := timeoutSeconds, shell := .posixSh,
      compatibility := ScriptCompatibility.forShell .posixSh }

def sampleWorld : ExportWorld := ⟨0, sampleId, true, .ok ()⟩

def samplePackage (body : String) : ScriptPackage where
  schemaVersion := 2
  exportedAt := 0
  script :=
    { title := "t".toList, category := "c".toList, tags := [], body := body.toList,
      parameters := [], shell := some .posixSh,
      compatibility := some (ScriptCompatibility.forShell .posixSh) }

/-- The crates, of one package. -/
def sampleCrates (body : String) : PackageCrates where
  parametersOf _ := some []
  sha256 _ := List.replicate 64 '0'
  toVecPretty := Value.toJson
  fromSlice text :=
    if text = (samplePackage body).toValue.toJson then .ok (samplePackage body).toValue else .error []
  packageOf value :=
    if value.toJson = (samplePackage body).toValue.toJson then .ok (samplePackage body) else .error []

theorem sampleCrates_readsBack (body : String) :
    (sampleCrates body).ReadsBack (samplePackage body) := by
  generalize hpackage : samplePackage body = package
  constructor
  · dsimp only [sampleCrates]
    rw [hpackage, if_pos rfl]
  · dsimp only [sampleCrates]
    rw [hpackage, if_pos rfl]
  · rw [← hpackage]
    rfl

def sampleCalls (body : String) (timeoutSeconds : Nat) : List Call :=
  [.create sampleId sampleId (sampleDraft body timeoutSeconds)]

/-- What becomes of the timeout of a script that is exported and imported again. -/
def sampleTrip [UuidCrate] (body : String) (timeoutSeconds : Nat) : AppResult Nat := do
  let exported ← exportScript (sampleCrates body) sampleWorld sampleId
    (stored (sampleCrates body).toCrates (sampleCalls body timeoutSeconds))
  let draft ← importScriptPackage (sampleCrates body) exported.1
  .ok draft.version.timeoutSeconds

theorem plain_script_comes_back : let _ : UuidCrate := hyphenatedUuid
    ∃ details file result,
      getForEditor sampleId (stored (sampleCrates "a").toCrates (sampleCalls "a" 300))
          = some details
        ∧ exportScript (sampleCrates "a") sampleWorld sampleId
          (stored (sampleCrates "a").toCrates (sampleCalls "a" 300)) = .ok (file, result)
        ∧ ((∃ draft, importScriptPackage (sampleCrates "a") file = .ok draft
            ∧ SameScript (sampleCrates "a") details draft)
          ↔ details.activeVersion.timeoutSeconds = 300
            ∧ rejectSensitiveBody details.activeVersion.body = .ok ()) := by
  let _ : UuidCrate := hyphenatedUuid
  have hsome : (getForEditor sampleId
      (stored (sampleCrates "a").toCrates (sampleCalls "a" 300))).isSome = true := by
    decide +kernel
  have hok : (exportScript (sampleCrates "a") sampleWorld sampleId
      (stored (sampleCrates "a").toCrates (sampleCalls "a" 300))).toBool = true := by
    decide +kernel
  have hfields : (getForEditor sampleId
      (stored (sampleCrates "a").toCrates (sampleCalls "a" 300))).map (fun details =>
        (details.definition, details.activeVersion.body, details.activeVersion.shell,
          details.activeVersion.compatibility))
      = some (⟨sampleId, "t".toList, "c".toList, [], false⟩, "a".toList, .posixSh,
        ScriptCompatibility.forShell .posixSh) := by
    decide +kernel
  obtain ⟨details, hdetails⟩ := Option.isSome_iff_exists.mp hsome
  obtain ⟨⟨file, result⟩, hexport⟩ := exists_ok_of_toBool hok
  refine ⟨details, file, result, hdetails, hexport, package_round_trip_iff hdetails hexport ?_⟩
  intro parameters hparameters
  obtain rfl := Option.some.inj hparameters
  have hpackage : packageOfDetails sampleWorld.now details [] = samplePackage "a" := by
    rw [hdetails] at hfields
    obtain ⟨hdefinition, hrest⟩ := Prod.mk.inj (Option.some.inj hfields)
    obtain ⟨hbody, hrest⟩ := Prod.mk.inj hrest
    obtain ⟨hshell, hcompatibility⟩ := Prod.mk.inj hrest
    unfold packageOfDetails samplePackage
    rw [hdefinition, hbody, hshell, hcompatibility]
    rfl
  rw [hpackage]
  exact sampleCrates_readsBack "a"

/-- The timeout of a script is not the one it comes back with, and a script whose body assigns a
token is exported but not imported. -/
theorem script_does_not_come_back : let _ : UuidCrate := hyphenatedUuid
    sampleTrip "a" 60 = .ok 300
      ∧ (exportScript (sampleCrates "TOKEN=a") sampleWorld sampleId
          (stored (sampleCrates "TOKEN=a").toCrates (sampleCalls "TOKEN=a" 300))).toBool = true
      ∧ sampleTrip "TOKEN=a" 300
        = .error (.unsafeScriptPackage "第 1 行疑似包含明文凭据赋值，请删除后再导入".toList) := by
  decide +kernel

end QingzhouSSH.Services.ScriptService
