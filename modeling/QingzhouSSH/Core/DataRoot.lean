/-
  QingzhouSSH.Core.DataRoot — which directory holds the data.

  The directory is fixed by the environment, or lies next to a portable program, or is named
  by a pointer of the platform.  A pointer that a migration has moved to a root that is not
  complete is moved back at the next start.

  Main results:
    * `resolvePointers_saved` — a start finds the directory that a pointer was saved with;
    * `resolveRuntimeDataRoot_keeps` — a start ends in a root that may be used.
-/
import QingzhouSSH.Core.DataMigration.Journal
import QingzhouSSH.Core.DataMigration.Retry

namespace QingzhouSSH.Core.DataRoot

open QingzhouSSH.JsonTree
open QingzhouSSH.Core.DataMigration
open QingzhouSSH.Core.Tasks (eqIgnoreAsciiCase toAsciiLower)
open QingzhouSSH.Lib.FileTree
open QingzhouSSH.Lib.Process

/-! ## §1. Directories. -/

structure DataRootInputs where
  envOverride : Option Text
  portableMode : Bool
  portableCustomRoot : Option Text
  portableDefaultRoot : Option Text
  platformRoot : Option Text

structure DataRootResolution where
  source : DataRootSource
  path : Option Text
  isMutable : Bool
  deriving DecidableEq

/-- What the host says of paths and of files; `parseError` is the message of `serde_json`. -/
structure Host where
  isAbsolute : Text → Bool
  canonicalize : Text → Option Text
  windows : Bool
  parseError : Bytes → Text

namespace Host

variable (host : Host)

/-- `same_path`. -/
def samePath (left right : Text) : Bool :=
  match host.canonicalize left, host.canonicalize right with
  | some left, some right => left = right
  | _, _ => left = right

/-- `same_runtime_path`. -/
def sameRuntimePath (left right : Text) : Bool :=
  let left := (host.canonicalize left).getD left
  let right := (host.canonicalize right).getD right
  if host.windows then eqIgnoreAsciiCase left right else left = right

/-- What `same_runtime_path` compares. -/
def runtimeKey (path : Text) : Text :=
  let path := (host.canonicalize path).getD path
  if host.windows then path.map toAsciiLower else path

variable {host} in
theorem sameRuntimePath_iff {left right : Text} :
    host.sameRuntimePath left right = true ↔ host.runtimeKey left = host.runtimeKey right := by
  unfold sameRuntimePath runtimeKey
  cases host.windows with
  | true => exact beq_iff_eq
  | false => simp

variable {host} in
theorem runtimeKey_of_samePath {left right : Text} (h : host.samePath left right = true) :
    host.runtimeKey left = host.runtimeKey right := by
  unfold samePath at h
  unfold runtimeKey
  split at h
  next left' right' hleft hright =>
    rw [hleft, hright, of_decide_eq_true h]
    rfl
  next => rw [of_decide_eq_true h]

def validateRootPath (path : Text) : AppResult Unit :=
  if !host.isAbsolute path then .error (.validation "数据目录必须是绝对路径".toList) else .ok ()

def resolveDataRoot (input : DataRootInputs) : AppResult DataRootResolution :=
  match input.envOverride with
  | some path => do
      host.validateRootPath path
      return { source := .environment, path := some path, isMutable := false }
  | none =>
      if input.portableMode then
        match input.portableCustomRoot with
        | some path => do
            host.validateRootPath path
            return { source := .portableCustom, path := some path, isMutable := true }
        | none =>
            match input.portableDefaultRoot with
            | none => .error (.validation "便携版默认数据目录不可用".toList)
            | some path => do
                host.validateRootPath path
                return { source := .portableDefault, path := some path, isMutable := true }
      else
        match input.platformRoot with
        | some path => do
            host.validateRootPath path
            return { source := .platform, path := some path, isMutable := true }
        | none => .ok { source := .needsSelection, path := none, isMutable := true }

/-- What `fs::canonicalize` promises: its paths are absolute, and its own. -/
structure Canonical (host : Host) : Prop where
  idempotent : ∀ path path', host.canonicalize path = some path' →
    host.canonicalize path' = some path'
  absolute : ∀ path path', host.canonicalize path = some path' → host.isAbsolute path' = true

theorem Canonical.runtimeKey {host : Host} (h : host.Canonical) {path path' : Text}
    (hpath : host.canonicalize path = some path') :
    host.runtimeKey path' = host.runtimeKey path := by
  unfold Host.runtimeKey
  rw [hpath, h.idempotent path path' hpath]
  rfl

theorem Canonical.samePath {host : Host} (h : host.Canonical) {path path' : Text}
    (hpath : host.canonicalize path = some path') : host.samePath path' path = true := by
  unfold Host.samePath
  rw [hpath, h.idempotent path path' hpath]
  exact decide_eq_true rfl

theorem validateRootPath_ok {path : Text} (h : host.isAbsolute path = true) :
    host.validateRootPath path = .ok () := by
  unfold validateRootPath
  rw [h]
  rfl

end Host

/-! ## §2. Pointers. -/

structure DataRootPointer where
  schemaVersion : Nat
  dataRoot : Text
  deriving DecidableEq

abbrev PlatformDataRootPointer := DataRootPointer

abbrev PortableDataRootPointer := DataRootPointer

namespace DataRootPointer

def fieldNames : List Text := ["schemaVersion".toList, "dataRoot".toList]

def fieldValues (pointer : DataRootPointer) : List PlainValue :=
  [.ofU32 pointer.schemaVersion, .string pointer.dataRoot]

def toVecPretty (pointer : DataRootPointer) : Bytes :=
  recordToVec fieldNames pointer.fieldValues

def ofFields : List (Option JsonTree) → Option DataRootPointer
  | [schemaVersion, dataRoot] => do
      return {
        schemaVersion := ← asUnsigned (2 ^ 32) schemaVersion
        dataRoot := ← asText dataRoot }
  | _ => none

def fromSlice (payload : Bytes) : Option DataRootPointer :=
  (recordFromSlice fieldNames payload).bind ofFields

theorem fieldNames_nodup : fieldNames.Nodup := by decide +kernel

/-- **A pointer is read back as it was saved.** -/
theorem fromSlice_toVecPretty (pointer : DataRootPointer) :
    fromSlice pointer.toVecPretty
      = some { pointer with schemaVersion := pointer.schemaVersion % 2 ^ 32 } := by
  unfold fromSlice toVecPretty
  rw [recordFromSlice_recordToVec fieldNames_nodup (List.cons_ne_nil _ _) rfl]
  simp only [fieldValues, List.map_cons, List.map_nil, Option.bind_some, ofFields,
    PlainValue.asUnsigned_ofU32, PlainValue.tree_string, asText, Option.bind_eq_bind,
    Option.pure_def]

end DataRootPointer

/-- Where the platform keeps its pointer: in a file, or in the registry. -/
inductive PlatformStore where
  | file (content : Option Bytes)
  | registry (value : Option Text)
  deriving DecidableEq

/-- The pointers of a computer: the one of the platform, and the one next to the program. -/
structure Pointers where
  platform : PlatformStore
  portable : Option Bytes
  deriving DecidableEq

/-- How the program is started; `defaultRoot` is the directory next to it. -/
structure Installation where
  envOverride : Option Text
  portable : Bool
  defaultRoot : Text

/-- The text of a pointer to a directory. -/
def pointerTo (path : Text) : Bytes :=
  DataRootPointer.toVecPretty { schemaVersion := 1, dataRoot := path }

theorem fromSlice_pointerTo (path : Text) :
    DataRootPointer.fromSlice (pointerTo path) = some { schemaVersion := 1, dataRoot := path } :=
  DataRootPointer.fromSlice_toVecPretty _

def PlatformStore.saved (path : Text) : PlatformStore → PlatformStore
  | .file _ => .file (some (pointerTo path))
  | .registry _ => .registry (some path)

/-- What a root of this mode is remembered by. -/
def Pointers.saved (pointers : Pointers) (path : Text) : DataRootSource → Pointers
  | .platform | .registry => { pointers with platform := pointers.platform.saved path }
  | .portableCustom => { pointers with portable := some (pointerTo path) }
  | .portableDefault => { pointers with portable := none }
  | .environment | .needsSelection => pointers

namespace Host

variable (host : Host)

/-- `FileDataRootStore::load`, and `root_registry::load_data_root`. -/
def loadPlatform : PlatformStore → AppResult (Option Text)
  | .file none => .ok none
  | .file (some payload) =>
      match DataRootPointer.fromSlice payload with
      | none => .error (.serialization (host.parseError payload))
      | some pointer =>
          if pointer.schemaVersion ≠ 1 ∨ host.isAbsolute pointer.dataRoot = false then
            .error (.validation "平台数据目录指针无效".toList)
          else .ok (some pointer.dataRoot)
  | .registry value => .ok value

/-- `portable_root::load`. -/
def loadPortable : Option Bytes → AppResult (Option Text)
  | none => .ok none
  | some payload =>
      match DataRootPointer.fromSlice payload with
      | none => .error (.serialization (host.parseError payload))
      | some pointer =>
          if pointer.schemaVersion ≠ 1 then
            .error (.validation "便携版数据目录指针版本不受支持".toList)
          else if host.isAbsolute pointer.dataRoot = false then
            .error (.validation "便携版数据目录指针必须是绝对路径".toList)
          else .ok (some pointer.dataRoot)

/-- What a pointer is refused for, before it is saved; the registry takes any path. -/
def checkPointer (path : Text) : DataRootSource → AppResult Unit
  | .platform | .registry => if host.windows then .ok () else host.validateRootPath path
  | .portableCustom =>
      if !host.isAbsolute path then
        .error (.validation "便携版数据目录指针必须是绝对路径".toList)
      else .ok ()
  | .portableDefault | .environment | .needsSelection => .ok ()

/-- `resolve_runtime_data_root`, up to the recovery. -/
def resolvePointers (installation : Installation) (pointers : Pointers) :
    AppResult DataRootResolution := do
  let custom ←
    if installation.portable then host.loadPortable pointers.portable else pure none
  let platform ←
    if installation.portable then pure none else host.loadPlatform pointers.platform
  host.resolveDataRoot
    { envOverride := installation.envOverride
      portableMode := installation.portable
      portableCustomRoot := custom
      portableDefaultRoot :=
        if installation.portable then some installation.defaultRoot else none
      platformRoot := platform }

/-- A directory of this mode, in an installation that may change it. -/
structure Fits (installation : Installation) (mode : DataRootSource) (path : Text) : Prop where
  free : installation.envOverride = none
  mode : match mode with
    | .platform | .registry => installation.portable = false
    | .portableCustom => installation.portable = true
    | .portableDefault => installation.portable = true
        ∧ host.isAbsolute installation.defaultRoot = true
        ∧ host.runtimeKey path = host.runtimeKey installation.defaultRoot
    | .environment | .needsSelection => False

/-- The pointers name this root. -/
def PointsTo (installation : Installation) (pointers : Pointers) (root : Text) : Prop :=
  ∃ source path, source ≠ .environment ∧ host.runtimeKey path = host.runtimeKey root
    ∧ host.resolvePointers installation pointers
      = .ok { source := source, path := some path, isMutable := true }

variable {host}

theorem loadPlatform_saved {path : Text} (h : host.isAbsolute path = true)
    (store : PlatformStore) : host.loadPlatform (store.saved path) = .ok (some path) := by
  cases store with
  | registry value => rfl
  | file content =>
      unfold PlatformStore.saved loadPlatform
      dsimp only
      rw [fromSlice_pointerTo]
      dsimp only
      rw [if_neg (by simp [h])]

theorem loadPortable_pointerTo {path : Text} (h : host.isAbsolute path = true) :
    host.loadPortable (some (pointerTo path)) = .ok (some path) := by
  unfold loadPortable
  dsimp only
  rw [fromSlice_pointerTo]
  dsimp only
  rw [if_neg (by simp), if_neg (by simp [h])]

theorem validated_ok {path : Text} (h : host.isAbsolute path = true)
    (resolution : DataRootResolution) :
    (do host.validateRootPath path; pure resolution) = .ok resolution := by
  rw [host.validateRootPath_ok h]
  rfl

/-- **A start finds the directory that a pointer was saved with.** -/
theorem resolvePointers_saved {installation : Installation} {mode : DataRootSource} {path : Text}
    (hfits : host.Fits installation mode path) (habsolute : host.isAbsolute path = true)
    (pointers : Pointers) : host.PointsTo installation (pointers.saved path mode) path := by
  obtain ⟨hfree, hmode⟩ := hfits
  cases mode with
  | environment | needsSelection => exact hmode.elim
  | platform | registry =>
      refine ⟨.platform, path, by simp, rfl, ?_⟩
      unfold resolvePointers
      simp only [hmode, Bool.false_eq_true, if_false, Pointers.saved, hfree,
        loadPlatform_saved habsolute]
      exact validated_ok habsolute _
  | portableCustom =>
      refine ⟨.portableCustom, path, by simp, rfl, ?_⟩
      unfold resolvePointers
      simp only [hmode, if_true, Pointers.saved, hfree, loadPortable_pointerTo habsolute]
      exact validated_ok habsolute _
  | portableDefault =>
      obtain ⟨hportable, hdefault, hkey⟩ := hmode
      refine ⟨.portableDefault, installation.defaultRoot, by simp, hkey.symm, ?_⟩
      unfold resolvePointers
      simp only [hportable, if_true, Pointers.saved, hfree]
      exact validated_ok hdefault _

end Host

/-! ## §3. Starts. -/

/-- What a start asks of the files. -/
inductive StartQuestion where
  | readPointers
  | journalIsFile (root : Text)
  | readJournal (root : Text)
  | readMarker (root : Text)
  | isDir (path : Text)
  | savePointer (mode : DataRootSource) (path : Text)

abbrev StartAnswer : StartQuestion → Type
  | .readPointers => AppResult Pointers
  | .journalIsFile _ | .isDir _ => Bool
  | .readJournal _ | .readMarker _ => AppResult Bytes
  | .savePointer _ _ => AppResult Unit

abbrev StartProcess (α : Type) := ExceptT AppError (Lib.Process Unit StartAnswer) α

namespace Host

variable (host : Host)

/-- `MigrationJournalStore::load`, behind the read. -/
def loadJournal (payload : Bytes) : AppResult DataMigrationJournal :=
  match DataMigrationJournal.fromSlice payload with
  | none => .error (.serialization (host.parseError payload))
  | some journal => do
      journal.validate host.isAbsolute
      return journal

def completionMarkerIsValid (payload : AppResult Bytes) (journal : DataMigrationJournal) : Bool :=
  match payload with
  | .error _ => false
  | .ok payload =>
      match MigrationCompleteMarker.fromSlice payload with
      | none => false
      | some marker =>
          marker.migrationId = journal.migrationId
            && host.samePath marker.previousRoot journal.source

def migrationRecoveryResolution (current : DataRootResolution) (journal : DataMigrationJournal)
    (completionMarkerValid sourceIsDir : Bool) : AppResult (Option DataRootResolution) :=
  match current.path with
  | none => .ok none
  | some currentRoot =>
      if current.source = .environment
          ∨ host.sameRuntimePath currentRoot journal.target = false then
        .ok none
      else if journal.phase = .completed ∧ completionMarkerValid = true then .ok none
      else if host.isAbsolute journal.source = false ∨ sourceIsDir = false
          ∨ host.sameRuntimePath journal.source journal.target = true
          ∨ journal.sourceMode = .environment ∨ journal.sourceMode = .needsSelection then
        .error (.security "迁移目标状态无效，且无法验证旧数据目录".toList)
      else
        .ok (some { source := journal.sourceMode, path := some journal.source, isMutable := true })

def recoverRuntimeResolution (resolution : DataRootResolution) :
    StartProcess DataRootResolution := do
  match resolution.path with
  | none => return resolution
  | some root =>
      let found ← ExceptT.lift (query (.journalIsFile root))
      if found then
        let journal ← tryAsk (.readJournal root) fun payload => payload.bind host.loadJournal
        let marker ← ExceptT.lift (query (.readMarker root))
        let sourceIsDir ← ExceptT.lift (query (.isDir journal.source))
        let recovered ← conclude (host.migrationRecoveryResolution resolution journal
          (host.completionMarkerIsValid marker journal) sourceIsDir)
        match recovered with
        | none => return resolution
        | some recovered => do
            let path := recovered.path.getD []
            conclude (host.checkPointer path recovered.source)
            tryAsk (.savePointer recovered.source path) id
            return recovered
      else return resolution

def resolveRuntimeDataRoot (installation : Installation) : StartProcess DataRootResolution := do
  let resolution ← tryAsk .readPointers fun pointers =>
    pointers.bind (host.resolvePointers installation)
  host.recoverRuntimeResolution resolution

end Host

/-! ## §4. The roots of a migration. -/

/-- The trees of both roots, whether the target has been made, and the pointers. -/
structure Roots (ν : Type) [OsName ν] where
  disk : Disk ν
  targetExists : Bool
  pointers : Pointers
  sourceNamed : disk.source.Named
  targetNamed : disk.target.Named

section Roots

variable {ν : Type} [OsName ν] (host : Host) (journal : DataMigrationJournal)

/-- The roots behind a change of the disk. -/
def Roots.withDisk (w : Roots ν) (d : Disk ν) (h : d.source.Named ∧ d.target.Named) : Roots ν :=
  { w with
    disk := d
    sourceNamed := h.1
    targetNamed := h.2 }

def Roots.withTarget (w : Roots ν) (target : Node ν Bytes) (h : target.Named) : Roots ν :=
  { w with
    disk := { w.disk with target := target }
    targetNamed := h }

/-- The tree at a root of this migration. -/
def Roots.treeAt (w : Roots ν) (root : Text) : Option (Node ν Bytes) :=
  if host.sameRuntimePath root journal.source = true then some w.disk.source
  else if host.sameRuntimePath root journal.target = true ∧ w.targetExists = true then
    some w.disk.target
  else none

/-- Where a marker lies in a root. -/
def markerPath : List ν := [OsName.ofText migrationCompleteFile]

/-- A pointer is saved whole or not at all, whatever is answered. -/
def PointerSaved (mode : DataRootSource) (path : Text) (pointers : Pointers)
    (answer : AppResult Unit) (pointers' : Pointers) : Prop :=
  match answer with
  | .ok () => pointers' = pointers.saved path mode
  | .error _ => pointers' = pointers ∨ pointers' = pointers.saved path mode

/-- A file of a tree, if both are there. -/
def readFile (tree : Option (Node ν Bytes)) (path : List ν) : AppResult Bytes :=
  match tree.bind fun tree => tree.look path with
  | some (.file payload) => .ok payload
  | _ => .error notPossible

/-- What a start may be answered: every read and write may fail. -/
def StartResponds : (question : StartQuestion) → Roots ν → StartAnswer question → Roots ν → Prop
  | .readPointers, w, answer, w' =>
      w' = w ∧ ∀ pointers, answer = .ok pointers → pointers = w.pointers
  | .journalIsFile root, w, answer, w' =>
      w' = w ∧ ∀ tree, w.treeAt host journal root = some tree →
        (answer = true ↔ ∃ payload, tree.look journalPath = some (.file payload))
  | .readJournal root, w, answer, w' =>
      w' = w ∧ ∀ tree, w.treeAt host journal root = some tree → ∀ payload, answer = .ok payload →
        tree.look journalPath = some (.file payload)
  | .readMarker root, w, answer, w' =>
      w' = w ∧ ∀ tree, w.treeAt host journal root = some tree → ∀ payload, answer = .ok payload →
        tree.look markerPath = some (.file payload)
  | .isDir _, w, _, w' => w' = w
  | .savePointer mode path, w, answer, w' =>
      w' = { w with pointers := w'.pointers } ∧ PointerSaved mode path w.pointers answer w'.pointers

/-- A computer that does whatever its roots allow. -/
def serveStart : (question : StartQuestion) → Roots ν → StartAnswer question × Roots ν
  | .readPointers, w => ((.ok w.pointers : AppResult Pointers), w)
  | .journalIsFile root, w => ((readFile (w.treeAt host journal root) journalPath).toBool, w)
  | .readJournal root, w => (readFile (w.treeAt host journal root) journalPath, w)
  | .readMarker root, w => (readFile (w.treeAt host journal root) markerPath, w)
  | .isDir root, w => ((w.treeAt host journal root).isSome, w)
  | .savePointer mode path, w =>
      ((.ok () : AppResult Unit), { w with pointers := w.pointers.saved path mode })

/-- A tree with a journal of this migration. -/
def Recorded (tree : Node ν Bytes) : Prop :=
  ∃ payload journal', tree.look journalPath = some (.file payload)
    ∧ DataMigrationJournal.fromSlice payload = some journal' ∧ SameRun journal journal'

/-- The target has every entry of the source, and no others. -/
def Complete (sha256 : Bytes → Text) (w₀ w : Roots ν) : Prop :=
  ∀ path, Migrated path → (w.disk.target.look path).map (entryOf sha256 path)
    = (w₀.disk.source.look path).map (entryOf sha256 path)

/-- The pointers name the source, or a target that may be used. -/
def Settled (installation : Installation) (sha256 : Bytes → Text) (w₀ w : Roots ν) : Prop :=
  host.PointsTo installation w.pointers journal.source
    ∨ host.PointsTo installation w.pointers journal.target ∧ w.targetExists = true
      ∧ Recorded journal w.disk.target ∧ Complete sha256 w₀ w

/-- **Wherever a migration stops, the files of the source are kept.** -/
structure Safe (installation : Installation) (sha256 : Bytes → Text) (w₀ w : Roots ν) : Prop where
  source : SourceKept w₀.disk w.disk
  recorded : Recorded journal w.disk.source
  settled : Settled host journal installation sha256 w₀ w

/-- What the service makes sure of before it starts a migration. -/
structure Prepared (installation : Installation) : Prop where
  distinct : host.runtimeKey journal.source ≠ host.runtimeKey journal.target
  absolute : host.isAbsolute journal.source = true
  fits : host.Fits installation journal.sourceMode journal.source
  defaultRoot : host.isAbsolute installation.defaultRoot = true

/-- A root that may be used: the source, or a target with everything of the source. -/
def Usable (installation : Installation) (sha256 : Bytes → Text) (w₀ w : Roots ν)
    (resolution : DataRootResolution) : Prop :=
  ∃ root, resolution.path = some root ∧ host.PointsTo installation w.pointers root
    ∧ (host.runtimeKey root = host.runtimeKey journal.source
      ∨ host.runtimeKey root = host.runtimeKey journal.target ∧ Complete sha256 w₀ w)

end Roots

/-! ## §5. Where a start ends. -/

section Starting

variable {ν : Type} [OsName ν] {host : Host} {journal : DataMigrationJournal}
  {installation : Installation} {sha256 : Bytes → Text} {w₀ w w' : Roots ν}

theorem readFile_eq_ok {tree : Node ν Bytes} {path : List ν} {payload : Bytes} :
    readFile (some tree) path = .ok payload ↔ tree.look path = some (.file payload) := by
  unfold readFile
  rw [Option.bind_some]
  constructor
  · intro h
    split at h
    next payload' hlook => rw [hlook, Except.ok.inj h]
    next => cases h
  · intro h
    rw [h]

/-- **A working computer is one of those that answer.** -/
theorem serveStart_responds (question : StartQuestion) (w : Roots ν) :
    StartResponds host journal question w (serveStart host journal question w).1
      (serveStart host journal question w).2 := by
  have hread : ∀ root path tree, w.treeAt host journal root = some tree → ∀ payload,
      readFile (w.treeAt host journal root) path = .ok payload →
      tree.look path = some (.file payload) := by
    intro root path tree htree payload hread
    rw [htree] at hread
    exact readFile_eq_ok.mp hread
  cases question with
  | readPointers => exact ⟨rfl, fun pointers h => (Except.ok.inj h).symm⟩
  | readJournal root => exact ⟨rfl, hread root journalPath⟩
  | readMarker root => exact ⟨rfl, hread root markerPath⟩
  | isDir root => exact rfl
  | savePointer mode path => exact ⟨rfl, rfl⟩
  | journalIsFile root =>
      refine ⟨rfl, fun tree htree => ?_⟩
      show (readFile (w.treeAt host journal root) journalPath).toBool = true ↔ _
      rw [htree]
      constructor
      · intro h
        cases hfile : readFile (some tree) journalPath with
        | error e =>
            rw [hfile] at h
            cases h
        | ok payload => exact ⟨payload, readFile_eq_ok.mp hfile⟩
      · rintro ⟨payload, hlook⟩
        rw [readFile_eq_ok.mpr hlook]
        rfl

theorem Host.PointsTo.congr {pointers : Pointers} {root root' : Text}
    (h : host.PointsTo installation pointers root)
    (hkey : host.runtimeKey root = host.runtimeKey root') :
    host.PointsTo installation pointers root' := by
  obtain ⟨source, path, hsource, hpath, hresolve⟩ := h
  exact ⟨source, path, hsource, hpath.trans hkey, hresolve⟩

theorem treeAt_source {root : Text}
    (hkey : host.runtimeKey root = host.runtimeKey journal.source) :
    w.treeAt host journal root = some w.disk.source :=
  if_pos (Host.sameRuntimePath_iff.mpr hkey)

theorem treeAt_target (hprepared : Prepared host journal installation) {root : Text}
    (hkey : host.runtimeKey root = host.runtimeKey journal.target)
    (hexists : w.targetExists = true) :
    w.treeAt host journal root = some w.disk.target := by
  unfold Roots.treeAt
  rw [if_neg, if_pos ⟨Host.sameRuntimePath_iff.mpr hkey, hexists⟩]
  rw [Host.sameRuntimePath_iff, hkey]
  exact hprepared.distinct.symm

/-- What is read as a journal of the migration. -/
theorem Recorded.loaded {tree : Node ν Bytes} (h : Recorded journal tree) {payload : Bytes}
    (hlook : tree.look journalPath = some (.file payload)) {journal' : DataMigrationJournal}
    (hload : host.loadJournal payload = .ok journal') : SameRun journal journal' := by
  obtain ⟨payload', read, hlook', hread, hsame⟩ := h
  obtain rfl : payload = payload' := Leaf.file.inj (Option.some.inj (hlook.symm.trans hlook'))
  unfold Host.loadJournal at hload
  rw [hread] at hload
  obtain ⟨_, _, hload⟩ := bind_eq_ok.mp hload
  obtain rfl := Except.ok.inj hload
  exact hsame

/-- What is recovered is the source. -/
theorem recovery_source {journal' : DataMigrationJournal} (hsame : SameRun journal journal')
    {current : DataRootResolution} {valid isDir : Bool} {recovered : DataRootResolution}
    (h : host.migrationRecoveryResolution current journal' valid isDir = .ok (some recovered)) :
    recovered.source = journal.sourceMode ∧ recovered.path = some journal.source := by
  unfold Host.migrationRecoveryResolution at h
  split at h
  next => cases Except.ok.inj h
  next root hpath =>
    split_ifs at h
    · cases Except.ok.inj h
    · cases Except.ok.inj h
    · obtain rfl := Option.some.inj (Except.ok.inj h)
      exact ⟨hsame.sourceMode, congrArg some hsame.source⟩

/-- A pointer to the source, however its saving ends. -/
theorem Safe.recovered (hprepared : Prepared host journal installation)
    (h : Safe host journal installation sha256 w₀ w) {answer : AppResult Unit}
    (hresponds : w' = { w with pointers := w'.pointers }
      ∧ PointerSaved journal.sourceMode journal.source w.pointers answer w'.pointers) :
    Safe host journal installation sha256 w₀ w' ∧ w'.disk = w.disk
      ∧ (answer = .ok () → host.PointsTo installation w'.pointers journal.source) := by
  obtain ⟨hw, hsaved⟩ := hresponds
  have hdisk : w'.disk = w.disk := by rw [hw]
  have hpoints := Host.resolvePointers_saved hprepared.fits hprepared.absolute w.pointers
  cases answer with
  | ok u =>
      have hpointers : w'.pointers = w.pointers.saved journal.source journal.sourceMode := hsaved
      rw [← hpointers] at hpoints
      exact ⟨⟨by rw [hdisk]; exact h.source, by rw [hdisk]; exact h.recorded, .inl hpoints⟩,
        hdisk, fun _ => hpoints⟩
  | error e =>
      refine ⟨?_, hdisk, fun herror => by cases herror⟩
      rcases hsaved with hpointers | hpointers
      · obtain rfl : w' = w := by rw [hw, hpointers]
        exact h
      · rw [← hpointers] at hpoints
        exact ⟨by rw [hdisk]; exact h.source, by rw [hdisk]; exact h.recorded, .inl hpoints⟩

/-- A recovery in a root of the migration keeps to it, or goes back to the source. -/
theorem recover_keeps (hprepared : Prepared host journal installation)
    (h : Safe host journal installation sha256 w₀ w) {current : DataRootResolution} {root : Text}
    {tree : Node ν Bytes} (hpath : current.path = some root)
    (htree : w.treeAt host journal root = some tree) (hrecorded : Recorded journal tree)
    (husable : Usable host journal installation sha256 w₀ w current) :
    Keeps (StartResponds host journal)
      (fun _ w' => Safe host journal installation sha256 w₀ w' ∧ w'.disk = w.disk)
      (fun r _ w' => ∀ resolution, r = .ok resolution →
        Usable host journal installation sha256 w₀ w' resolution)
      (host.recoverRuntimeResolution current).run () w := by
  have hkept : ∀ resolution, Except.ok current = (.ok resolution : AppResult _) →
      Usable host journal installation sha256 w₀ w resolution := by
    intro resolution hresolution
    obtain rfl := Except.ok.inj hresolution
    exact husable
  unfold Host.recoverRuntimeResolution
  rw [hpath]
  refine keeps_answer ⟨h, rfl⟩ fun found w₁ hfound => ?_
  obtain ⟨rfl, -⟩ := hfound
  cases found with
  | false => exact ⟨⟨h, rfl⟩, hkept⟩
  | true =>
      -- only a journal of this migration can be read here
      refine keeps_tryAsk ⟨h, rfl⟩ (fun payload w₁ journal' hread hload => ?_)
        fun payload w₁ e hread hload => ⟨⟨hread.1 ▸ h, congrArg _ hread.1⟩, fun _ he => by cases he⟩
      obtain ⟨rfl, hread⟩ := hread
      have hsame : SameRun journal journal' := by
        cases payload with
        | error e => cases hload
        | ok payload => exact hrecorded.loaded (hread _ htree payload rfl) hload
      refine keeps_answer ⟨h, rfl⟩ fun marker w₁ hmarker => ?_
      obtain ⟨rfl, -⟩ := hmarker
      refine keeps_answer ⟨h, rfl⟩ fun isDir w₁ hdir => ?_
      obtain rfl := hdir
      refine keeps_conclude ⟨h, rfl⟩ (fun recovered hrecovered => ?_) fun e _ _ he => by cases he
      cases recovered with
      | none => exact ⟨⟨h, rfl⟩, hkept⟩
      | some recovered =>
          obtain ⟨hmode, hsource⟩ := recovery_source hsame hrecovered
          dsimp only
          rw [hsource, hmode]
          refine keeps_conclude ⟨h, rfl⟩ (fun _ _ => ?_) fun e _ _ he => by cases he
          refine keeps_tryAsk ⟨h, rfl⟩ (fun answer w₂ _ hsaved hok => ?_)
            fun answer w₂ e hsaved _ => ?_
          · obtain ⟨hsafe, hdisk, hpointed⟩ := h.recovered hprepared hsaved
            refine ⟨⟨hsafe, hdisk⟩, fun resolution hresolution => ?_⟩
            obtain rfl := Except.ok.inj hresolution
            exact ⟨journal.source, hsource, hpointed hok, .inl rfl⟩
          · obtain ⟨hsafe, hdisk, -⟩ := h.recovered hprepared hsaved
            exact ⟨⟨hsafe, hdisk⟩, fun _ he => by cases he⟩

/-- **A start ends in a root that may be used, and changes no file.** -/
theorem resolveRuntimeDataRoot_keeps (hprepared : Prepared host journal installation)
    (h : Safe host journal installation sha256 w₀ w) :
    Keeps (StartResponds host journal)
      (fun _ w' => Safe host journal installation sha256 w₀ w' ∧ w'.disk = w.disk)
      (fun r _ w' => ∀ resolution, r = .ok resolution →
        Usable host journal installation sha256 w₀ w' resolution)
      (host.resolveRuntimeDataRoot installation).run () w := by
  refine keeps_tryAsk ⟨h, rfl⟩ (fun pointers w₁ current hread hcurrent => ?_)
    fun pointers w₁ e hread _ => ⟨⟨hread.1 ▸ h, congrArg _ hread.1⟩, fun _ he => by cases he⟩
  obtain ⟨rfl, hread⟩ := hread
  cases pointers with
  | error e => cases hcurrent
  | ok pointers =>
      obtain rfl := hread pointers rfl
      have hresolve : host.resolvePointers installation w₁.pointers = .ok current := hcurrent
      rcases h.settled with hpoints | ⟨hpoints, hexists, hrecorded, hcomplete⟩
      · obtain ⟨source, root, hsource, hkey, hroot⟩ := id hpoints
        obtain rfl := Except.ok.inj (hresolve.symm.trans hroot)
        exact recover_keeps hprepared h rfl (treeAt_source hkey) h.recorded
          ⟨root, rfl, hpoints.congr hkey.symm, .inl hkey⟩
      · obtain ⟨source, root, hsource, hkey, hroot⟩ := id hpoints
        obtain rfl := Except.ok.inj (hresolve.symm.trans hroot)
        exact recover_keeps hprepared h rfl (treeAt_target hprepared hkey hexists) hrecorded
          ⟨root, rfl, hpoints.congr hkey.symm, .inr ⟨hkey, hcomplete⟩⟩

end Starting

end QingzhouSSH.Core.DataRoot
