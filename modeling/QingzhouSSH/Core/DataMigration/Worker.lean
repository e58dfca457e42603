/-
  QingzhouSSH.Core.DataMigration.Worker — the process that moves the data.

  The worker waits for the program, checks both roots again, copies, marks the target, moves
  the pointer, and records that it has.  It may be stopped at any time, and every read and
  write may fail; the next start decides which root is used.

  Main results:
    * `copy_responds`, `harmless_responds` — what the roots have to do with its questions;
    * `serve_responds` — a computer that works is one of those that answer;
    * `foreign_target_untouched` — the data of another target are left alone.
-/
import QingzhouSSH.Core.DataRoot

namespace QingzhouSSH.Core.DataMigration

open QingzhouSSH.Core.DataRoot
open QingzhouSSH.Lib.FileTree
open QingzhouSSH.Lib.Process

/-! ## §1. The checks of a migration. -/

/-- The components of an absolute path; the first one is its root. -/
structure MigrationHost (ν : Type) extends Host where
  components : Text → List ν
  processId : Nat

structure DataMigrationPreview where
  previewId : Text
  confirmationToken : Text
  expiresAt : Int
  source : Text
  target : Text
  fileCount : Nat
  totalBytes : Nat
  requiredBytes : Nat
  availableBytes : Nat
  oldRootWillBeKept : Bool
  retryable : Bool
  deriving DecidableEq

def minimumSpaceReserve : Nat := 64 * 1024 * 1024

def previewTtlMillis : Int := 5 * 60 * 1000

/-- `i64::saturating_add`. -/
def saturatingAddI64 (a b : Int) : Int := max (-(2 ^ 63)) (min (a + b) (2 ^ 63 - 1))

def refuse (condition : Bool) (error : AppError) : AppResult Unit :=
  if condition then .error error else .ok ()

variable {ν : Type}

def validateAbsoluteNonRoot (host : MigrationHost ν) (path label : Text) : AppResult Unit :=
  if !host.isAbsolute path then .error (.validation (label ++ "必须是绝对路径".toList))
  else if (host.components path).length ≤ 1 then
    .error (.validation (label ++ "不能是盘符根目录".toList))
  else .ok ()

section Checks

variable [OsName ν]

def rejectRelatedPaths (source target : List ν) : AppResult Unit :=
  if source = target then .error (.validation "目标目录不能与当前数据目录相同".toList)
  else if source <+: target ∨ target <+: source then
    .error (.validation "目标目录不能是当前数据目录的父目录或子目录".toList)
  else .ok ()

/-- The loop of `validate_retry_target`. -/
def checkRetried (source : DataMigrationManifest ν) :
    List (DataMigrationManifestEntry ν) → AppResult Unit
  | [] => .ok ()
  | existing :: rest =>
      match source.entries.find? fun candidate =>
          candidate.relativePath = existing.relativePath with
      | none => .error (.security "失败迁移目标中存在不属于源数据的文件".toList)
      | some expected =>
          if expected.kind ≠ existing.kind then
            .error (.security "失败迁移目标中的文件类型发生变化".toList)
          else checkRetried source rest

def validateRetryTarget (source target : DataMigrationManifest ν) : AppResult Unit :=
  checkRetried source target.entries

/-- What a preflight says of a target that is there. -/
def validateTarget (source target : DataMigrationManifest ν) (retryable : Bool) :
    AppResult Unit :=
  if target.entries.isEmpty then .ok ()
  else if !retryable then .error (.validation "目标目录不是空目录，不能覆盖其中的数据".toList)
  else validateRetryTarget source target

end Checks

/-! ## §2. What the worker asks. -/

inductive WorkerQuestion (ν : Type) where
  | readJournal (directory : Text)
  | copy (question : CopyQuestion ν)
  | waitForExit (parentPid : Nat)
  | isDir (path : Text)
  | canonicalize (path : Text)
  | pathExists (path : List ν)
  | canonicalAncestor (path : List ν)
  | scanSource (root : List ν)
  | scanTarget (root : List ν)
  | createTarget
  | newUuid
  | createProbe (name : ν)
  | removeProbe (name : ν)
  | availableSpace
  | writeMarker (payload : Bytes)
  | savePointer (mode : DataRootSource) (path : Text)
  | restart

abbrev WorkerAnswer : WorkerQuestion ν → Type
  | .readJournal _ => AppResult Bytes
  | .copy question => CopyAnswer question
  | .canonicalize _ => AppResult Text
  | .canonicalAncestor _ => AppResult (List ν)
  | .isDir _ | .pathExists _ => Bool
  | .scanSource _ | .scanTarget _ => AppResult (DataMigrationManifest ν)
  | .newUuid => Text
  | .availableSpace => AppResult Nat
  | .waitForExit _ | .createTarget | .createProbe _ | .removeProbe _ | .writeMarker _
  | .savePointer _ _ | .restart => AppResult Unit

abbrev WorkerProcess (ν α : Type) :=
  ExceptT AppError (Lib.Process DataMigrationJournal (@WorkerAnswer ν)) α

/-- A part of a copy, as a part of the worker. -/
def copying {α : Type} (p : Lib.Process DataMigrationJournal (@CopyAnswer ν) α) :
    Lib.Process DataMigrationJournal (@WorkerAnswer ν) α :=
  p.widen .copy fun _ answer => answer

def setWorkerJournal (f : DataMigrationJournal → DataMigrationJournal) : WorkerProcess ν Unit :=
  ExceptT.lift (atomic fun journal => ((), f journal))

def inquire (question : WorkerQuestion ν) : WorkerProcess ν (WorkerAnswer question) :=
  ExceptT.lift (query question)

/-! ## §3. The preflight. -/

section Preflight

variable [OsName ν] (host : MigrationHost ν) (environment : MigrationEnvironment ν)

/-- The loop of `normalize_future_path`, up from the path to the first one that is there. -/
def normalizeFuturePath : List ν → List ν → WorkerProcess ν (List ν)
  | [], _ => conclude (.error (.validation "无法解析目标数据目录".toList))
  | name :: above, suffix => do
      let found ← inquire (.pathExists (name :: above).reverse)
      if found then
        let normalized ← tryAsk (.canonicalAncestor (name :: above).reverse) id
        return normalized ++ suffix
      else normalizeFuturePath above (name :: suffix)

def rejectReparseAncestors : List ν → WorkerProcess ν Unit
  | [] => return
  | name :: above => do
      let found ← inquire (.pathExists (name :: above).reverse)
      let linked ← conclude
        (if found then environment.isReparsePoint (name :: above).reverse else .ok false)
      conclude (refuse linked (.security "目标目录或其上级目录不能是链接或重解析点".toList))
      rejectReparseAncestors above

/-- The checks of the paths; the canonical source. -/
def preflightPaths (source target : Text) : WorkerProcess ν Text := do
  conclude (validateAbsoluteNonRoot host source "当前数据目录".toList)
  conclude (validateAbsoluteNonRoot host target "目标数据目录".toList)
  let isDir ← inquire (.isDir source)
  conclude (refuse (!isDir) (.validation "当前数据目录不存在或不是文件夹".toList))
  let normalizedSource ← tryAsk (.canonicalize source) id
  let normalizedTarget ← normalizeFuturePath (host.components target).reverse []
  conclude (rejectRelatedPaths (host.components normalizedSource) normalizedTarget)
  rejectReparseAncestors environment (host.components target).reverse
  let linked ← conclude (environment.isReparsePoint (host.components normalizedSource))
  conclude (refuse linked (.security "当前数据目录不能是链接或重解析点".toList))
  return normalizedSource

/-- A target that is there has nothing, or what an earlier copy has left. -/
def preflightTarget (target : Text) (manifest : DataMigrationManifest ν) (retryable : Bool) :
    WorkerProcess ν Unit := do
  let found ← inquire (.copy .targetExists)
  if found then
    let targetManifest ← tryAsk (.scanTarget (host.components target)) id
    conclude (validateTarget manifest targetManifest retryable)
  else return

/-- `probe_writable`: the probe is removed in either case. -/
def probeWritable : WorkerProcess ν Unit := do
  let id ← inquire .newUuid
  let probe := OsName.ofText (".migration-write-probe-".toList ++ id)
  let result ← inquire (.createProbe probe)
  let cleanup ← inquire (.removeProbe probe)
  conclude result
  conclude cleanup

/-- The target can be written, and has this much space. -/
def preflightSpace (target : Text) (requiredBytes : Nat) : WorkerProcess ν Nat := do
  let linked ← conclude (environment.isReparsePoint (host.components target))
  conclude (refuse linked (.security "目标数据目录不能是链接或重解析点".toList))
  probeWritable
  let availableBytes ← tryAsk .availableSpace id
  conclude (refuse (availableBytes < requiredBytes)
    (.diskSpace ("目标磁盘至少需要 ".toList ++ showNat requiredBytes
      ++ " 字节，当前仅有 ".toList ++ showNat availableBytes ++ " 字节可用".toList)))
  return availableBytes

def preflightInner (source target : Text) (now : Int) (retryable : Bool) :
    WorkerProcess ν (DataMigrationPreview × DataMigrationManifest ν) := do
  let normalizedSource ← preflightPaths host environment source target
  let manifest ← tryAsk (.scanSource (host.components normalizedSource)) id
  preflightTarget host target manifest retryable
  tryAsk .createTarget id
  let reserve := max minimumSpaceReserve (manifest.totalBytes / 10)
  let requiredBytes := saturatingAdd manifest.totalBytes reserve
  let availableBytes ← preflightSpace host environment target requiredBytes
  let previewId ← inquire .newUuid
  let confirmationToken ← inquire .newUuid
  let canonicalTarget ← tryAsk (.canonicalize target) id
  return ({
    previewId := previewId
    confirmationToken := confirmationToken
    expiresAt := saturatingAddI64 now previewTtlMillis
    source := normalizedSource
    target := canonicalTarget
    fileCount := manifest.fileCount
    totalBytes := manifest.totalBytes
    requiredBytes := requiredBytes
    availableBytes := availableBytes
    oldRootWillBeKept := true
    retryable := retryable }, manifest)

/-- `preflight_with`, and `preflight_retry_with` if that fails. -/
def preflightOrRetry (source target : Text) :
    WorkerProcess ν (DataMigrationPreview × DataMigrationManifest ν) := do
  let now ← inquire (.copy .now)
  let first ← ExceptT.lift (preflightInner host environment source target now false).run
  match first with
  | .ok result => return result
  | .error _ => do
      let now ← inquire (.copy .now)
      preflightInner host environment source target now true

end Preflight

/-! ## §4. The worker. -/

inductive RuntimeDataRootPointer where
  | platform
  | portable (defaultRoot : Text)

/-- The mode in which a target is remembered. -/
def RuntimeDataRootPointer.mode (host : Host) (target : Text) :
    RuntimeDataRootPointer → DataRootSource
  | .platform => .platform
  | .portable defaultRoot =>
      if host.samePath target defaultRoot then .portableDefault else .portableCustom

section Worker

variable [OsName ν] (host : MigrationHost ν) (environment : MigrationEnvironment ν)

def RuntimeDataRootPointer.commit (pointer : RuntimeDataRootPointer) (target : Text) :
    WorkerProcess ν Unit := do
  conclude (host.checkPointer target (pointer.mode host.toHost target))
  tryAsk (.savePointer (pointer.mode host.toHost target) target) id

/-- `MigrationJournalStore`: how a journal is checked and printed. -/
def journalFormat : JournalFormat where
  isAbsolute := host.isAbsolute
  toVecPretty := DataMigrationJournal.toVecPretty

def validateWorkerJournal (directory fileName : Text) :
    WorkerProcess ν DataMigrationJournal := do
  conclude (refuse (!host.isAbsolute directory || fileName ≠ migrationJournalFile)
    (.security "数据迁移日志路径无效".toList))
  let journal ← tryAsk (.readJournal directory) fun payload => payload.bind host.loadJournal
  conclude (refuse (!host.samePath directory journal.source || journal.phase ≠ .prepared)
    (.security "数据迁移日志不属于当前源目录或状态无效".toList))
  conclude (refuse (journal.parentPid = 0 || journal.parentPid = host.processId)
    (.security "数据迁移父进程标识无效".toList))
  return journal

/-- The marker of a verified migration; its source is the one of the preview. -/
def completeMarker (preview : DataMigrationPreview) (verified : VerifiedMigration ν) (now : Int) :
    MigrationCompleteMarker where
  migrationId := verified.migrationId
  previousRoot := preview.source
  fileCount := verified.fileCount
  totalBytes := verified.totalBytes
  completedAt := now

def writeCompleteMarker (preview : DataMigrationPreview) (verified : VerifiedMigration ν) :
    WorkerProcess ν Unit := do
  let now ← inquire (.copy .now)
  tryAsk (.writeMarker (completeMarker preview verified now).toVecPretty) id

def copyRequest (preview : DataMigrationPreview) (manifest : DataMigrationManifest ν) :
    CopyAndVerifyRequest ν where
  source := host.components preview.source
  target := host.components preview.target
  manifest := manifest
  retryable := preview.retryable
  store := journalFormat host
  environment := environment

/-- The work up to the marker; the target that is verified. -/
def copyToTarget (journal : DataMigrationJournal) : WorkerProcess ν Text := do
  tryAsk (.waitForExit journal.parentPid) id
  let checked ← preflightOrRetry host environment journal.source journal.target
  let now ← inquire (.copy .now)
  setWorkerJournal fun journal => journal.restarted checked.2.fileCount checked.2.totalBytes now
  ExceptT.mk (copying (save (journalFormat host)).run)
  let verified ← ExceptT.mk (copying (copyAndVerify (copyRequest host environment checked.1
    checked.2)))
  writeCompleteMarker checked.1 verified
  return checked.1.target

/-- The closure in `run_worker_with`. -/
def migrate (pointer : RuntimeDataRootPointer) (journal : DataMigrationJournal) :
    WorkerProcess ν Unit := do
  let target ← copyToTarget host environment journal
  pointer.commit host target
  ExceptT.mk (copying (transition (journalFormat host) .switched).run)
  ExceptT.mk (copying (transition (journalFormat host) .completed).run)

def runWorkerWith (directory fileName : Text) (pointer : RuntimeDataRootPointer) :
    WorkerProcess ν DataMigrationPhase := do
  let journal ← validateWorkerJournal host directory fileName
  setWorkerJournal fun _ => journal
  let result ← ExceptT.lift (migrate host environment pointer journal).run
  match result with
  | .ok () => do
      tryAsk .restart id
      return .completed
  | .error error => do
      ExceptT.lift (copying (recordFailure (journalFormat host) error))
      tryAsk .restart id
      return .failed

/-- The pointer that a root of this mode is remembered by. -/
def pointerOf (defaultRoot : Text) : DataRootSource → AppResult RuntimeDataRootPointer
  | .platform | .registry => .ok .platform
  | .portableCustom | .portableDefault => .ok (.portable defaultRoot)
  | .environment | .needsSelection =>
      .error (.security "当前数据目录来源不允许迁移".toList)

def runSystemWorker (defaultRoot directory fileName : Text) :
    WorkerProcess ν DataMigrationPhase := do
  let journal ← validateWorkerJournal host directory fileName
  let pointer ← conclude (pointerOf defaultRoot journal.sourceMode)
  runWorkerWith host environment directory fileName pointer

end Worker

/-! ## §5. What the worker may be answered. -/

section Responds

variable [OsName ν] (host : MigrationHost ν) (environment : MigrationEnvironment ν)
  (sha256 : Bytes → Text) (journal : DataMigrationJournal)

/-- A copy as the disk sees it: only its target and its environment matter. -/
def copyView : CopyAndVerifyRequest ν where
  source := []
  target := host.components ((host.canonicalize journal.target).getD journal.target)
  manifest := { entries := [], fileCount := 0, totalBytes := 0 }
  retryable := false
  store := journalFormat host
  environment := environment

/-- Nothing happens before the verification. -/
def Undisturbed (tree : Node ν Bytes) (_ : AppResult Unit) (tree' : Node ν Bytes) : Prop :=
  tree' = tree

/-- The target changes, and nothing else does. -/
structure TargetOnly (w w' : Roots ν) : Prop where
  source : w'.disk.source = w.disk.source
  pointers : w'.pointers = w.pointers
  targetExists : w'.targetExists = w.targetExists

/-- What the worker may be answered: every operation may fail. -/
def WorkerResponds :
    (question : WorkerQuestion ν) → Roots ν → WorkerAnswer question → Roots ν → Prop
  | .readJournal directory, w, answer, w' =>
      w' = w ∧ ∀ tree, w.treeAt host.toHost journal directory = some tree →
        ∀ payload, answer = .ok payload → tree.look journalPath = some (.file payload)
  | .copy .targetExists, w, answer, w' => w' = w ∧ answer = w.targetExists
  | .copy question, w, answer, w' =>
      w'.pointers = w.pointers ∧ w'.targetExists = w.targetExists
        ∧ Responds sha256 (copyView host environment journal) Undisturbed question w.disk answer
          w'.disk
  | .waitForExit _, w, _, w' => w' = w
  | .isDir _, w, _, w' => w' = w
  | .canonicalize path, w, answer, w' =>
      w' = w ∧ ∀ path', answer = .ok path' → host.canonicalize path = some path'
  | .pathExists _, w, _, w' => w' = w
  | .canonicalAncestor _, w, _, w' => w' = w
  | .scanSource root, w, answer, w' =>
      w' = w ∧ ∀ manifest, answer = .ok manifest →
        scanManifest sha256 environment root w.disk.source = .ok manifest
  | .scanTarget root, w, answer, w' =>
      w' = w ∧ ∀ manifest, answer = .ok manifest →
        scanManifest sha256 environment root w.disk.target = .ok manifest
  | .createTarget, w, answer, w' =>
      w'.disk = w.disk ∧ w'.pointers = w.pointers
        ∧ (w.targetExists = true ∨ answer = .ok () → w'.targetExists = true)
  | .newUuid, w, _, w' => w' = w
  | .createProbe name, w, _, w' =>
      TargetOnly w w' ∧ (w'.disk.target = w.disk.target ∨ w.disk.target.look [name] = none
        ∧ ∃ content, w.disk.target.writeFile [name] content = some w'.disk.target)
  | .removeProbe name, w, _, w' =>
      TargetOnly w w'
        ∧ (w'.disk.target = w.disk.target ∨ w'.disk.target = w.disk.target.removeEntry name)
  | .availableSpace, w, _, w' => w' = w
  | .writeMarker payload, w, answer, w' =>
      TargetOnly w w' ∧ FileWritten markerPath payload w.disk.target answer w'.disk.target
  | .savePointer mode path, w, answer, w' =>
      w' = { w with pointers := w'.pointers }
        ∧ PointerSaved mode path w.pointers answer w'.pointers
  | .restart, w, _, w' => w' = w

variable {host environment sha256 journal}

/-- A part of a copy is answered by the disk. -/
theorem copy_responds {question : CopyQuestion ν} {w w' : Roots ν} {answer : CopyAnswer question}
    (h : WorkerResponds host environment sha256 journal (.copy question) w answer w') :
    w'.pointers = w.pointers ∧ w'.targetExists = w.targetExists
      ∧ Responds sha256 (copyView host environment journal) Undisturbed question w.disk answer
        w'.disk := by
  cases question with
  | targetExists =>
      obtain ⟨rfl, -⟩ := h
      exact ⟨rfl, rfl, rfl⟩
  | _ => exact h

/-- The disk does not see the manifest of a copy. -/
theorem responds_congr {request request' : CopyAndVerifyRequest ν}
    {beforeVerify : Node ν Bytes → AppResult Unit → Node ν Bytes → Prop}
    (henvironment : request.environment = request'.environment)
    (htarget : request.target = request'.target) {question : CopyQuestion ν} {w w' : Disk ν}
    {answer : CopyAnswer question} (h : Responds sha256 request beforeVerify question w answer w') :
    Responds sha256 request' beforeVerify question w answer w' := by
  cases question with
  | scanTarget =>
      obtain ⟨hw, hscan⟩ := h
      refine ⟨hw, fun manifest hmanifest => ?_⟩
      rw [← henvironment, ← htarget]
      exact hscan manifest hmanifest
  | _ => exact h

end Responds

/-! ## §6. A computer that works. -/

section Working

variable [OsName ν]

/-- What a computer has besides its roots. -/
structure Computer where
  time : Int
  space : Nat
  uuid : Text

omit [OsName ν] in
theorem perform_named {effect : Option (Node ν Bytes)} {tree : Node ν Bytes}
    (heffect : ∀ tree', effect = some tree' → tree'.Named) (hnamed : tree.Named) :
    (perform effect tree).2.Named := by
  cases effect with
  | none => exact hnamed
  | some tree' => exact heffect tree' rfl

theorem work_named (sha256 : Bytes → Text) (request : CopyAndVerifyRequest ν) (time : Int)
    (question : CopyQuestion ν) (w : Roots ν) :
    (work sha256 request time question w.disk).2.source.Named
      ∧ (work sha256 request time question w.disk).2.target.Named := by
  have hsource := w.sourceNamed
  have htarget := w.targetNamed
  cases question with
  | now | scanTarget | targetExists | fileExists path | beforeVerify => exact ⟨hsource, htarget⟩
  | saveSource payload => exact ⟨perform_named (fun _ h => hsource.writeFile h) hsource, htarget⟩
  | saveTarget payload => exact ⟨hsource, perform_named (fun _ h => htarget.writeFile h) htarget⟩
  | createDirAll path =>
      exact ⟨hsource, perform_named (fun _ h => htarget.createDirAll h) htarget⟩
  | hashFile path =>
      unfold work
      dsimp only
      split
      · exact ⟨hsource, htarget⟩
      · exact ⟨hsource, htarget⟩
  | copyFileAtomic path =>
      unfold work
      dsimp only
      split
      · split
        next hwrite => exact ⟨hsource, htarget.writeFile hwrite⟩
        next => exact ⟨hsource, htarget⟩
      · exact ⟨hsource, htarget⟩

/-- A part of a copy, on a disk that works. -/
def serveCopy (sha256 : Bytes → Text) (request : CopyAndVerifyRequest ν) (time : Int)
    (question : CopyQuestion ν) (w : Roots ν) : CopyAnswer question × Roots ν :=
  ((work sha256 request time question w.disk).1,
    w.withDisk (work sha256 request time question w.disk).2
      (work_named sha256 request time question w))

theorem writeTarget_named (w : Roots ν) (path : List ν) (payload : Bytes) :
    (perform (w.disk.target.writeFile path payload) w.disk.target).2.Named :=
  perform_named (fun _ h => w.targetNamed.writeFile h) w.targetNamed

/-- A file of the target is written, if its tree allows it. -/
def writeTarget (w : Roots ν) (path : List ν) (payload : Bytes) : AppResult Unit × Roots ν :=
  ((perform (w.disk.target.writeFile path payload) w.disk.target).1,
    w.withTarget _ (writeTarget_named w path payload))

theorem removeTarget_named (w : Roots ν) (name : ν) : (w.disk.target.removeEntry name).Named :=
  w.targetNamed.removeEntry name

variable (host : MigrationHost ν) (environment : MigrationEnvironment ν) (sha256 : Bytes → Text)
  (journal : DataMigrationJournal) (computer : Computer)

/-- A computer that does whatever its roots allow. -/
def serve : (question : WorkerQuestion ν) → Roots ν → WorkerAnswer question × Roots ν
  | .readJournal directory, w =>
      (readFile (w.treeAt host.toHost journal directory) journalPath, w)
  | .copy .targetExists, w => (w.targetExists, w)
  | .copy question, w =>
      serveCopy sha256 (copyView host environment journal) computer.time question w
  | .waitForExit _, w | .restart, w => ((.ok () : AppResult Unit), w)
  | .isDir _, w | .pathExists _, w => (true, w)
  | .canonicalize path, w =>
      ((match host.canonicalize path with
        | some path => .ok path
        | none => .error notPossible : AppResult Text), w)
  | .canonicalAncestor path, w => ((.ok path : AppResult (List ν)), w)
  | .scanSource root, w => (scanManifest sha256 environment root w.disk.source, w)
  | .scanTarget root, w => (scanManifest sha256 environment root w.disk.target, w)
  | .createTarget, w => ((.ok () : AppResult Unit), { w with targetExists := true })
  | .newUuid, w => (computer.uuid, w)
  | .createProbe name, w =>
      if w.disk.target.look [name] = none then writeTarget w [name] []
      else ((.error notPossible : AppResult Unit), w)
  | .removeProbe name, w =>
      ((.ok () : AppResult Unit), w.withTarget _ (removeTarget_named w name))
  | .availableSpace, w => ((.ok computer.space : AppResult Nat), w)
  | .writeMarker payload, w =>
      writeTarget w markerPath payload
  | .savePointer mode path, w =>
      ((.ok () : AppResult Unit), { w with pointers := w.pointers.saved path mode })

variable {host environment sha256 journal computer}

theorem serveCopy_responds (question : CopyQuestion ν) (w : Roots ν) :
    Responds sha256 (copyView host environment journal) Undisturbed question w.disk
      (serveCopy sha256 (copyView host environment journal) computer.time question w).1
      (serveCopy sha256 (copyView host environment journal) computer.time question w).2.disk :=
  work_responds computer.time question w.disk

/-- **A working computer is one of those that answer.** -/
theorem serve_responds (question : WorkerQuestion ν) (w : Roots ν) :
    WorkerResponds host environment sha256 journal question w
      (serve host environment sha256 journal computer question w).1
      (serve host environment sha256 journal computer question w).2 := by
  cases question with
  | readJournal directory =>
      refine ⟨rfl, fun tree htree payload hread => ?_⟩
      have hread : readFile (w.treeAt host.toHost journal directory) journalPath = .ok payload :=
        hread
      rw [htree] at hread
      exact readFile_eq_ok.mp hread
  | copy question =>
      cases question with
      | targetExists => exact ⟨rfl, rfl⟩
      | _ => exact ⟨rfl, rfl, serveCopy_responds _ w⟩
  | canonicalize path =>
      refine ⟨rfl, fun path' h => ?_⟩
      unfold serve at h
      dsimp only at h
      split at h
      next hpath => rw [hpath, Except.ok.inj h]
      next => cases h
  | scanSource root | scanTarget root => exact ⟨rfl, fun manifest h => h⟩
  | createTarget => exact ⟨rfl, rfl, fun _ => rfl⟩
  | createProbe name =>
      unfold serve
      dsimp only
      split
      next hnone =>
        refine ⟨⟨rfl, rfl, rfl⟩, ?_⟩
        show (perform _ _).2 = _ ∨ _ ∧ ∃ content, _ = some (perform _ _).2
        cases hwrite : w.disk.target.writeFile [name] [] with
        | none => exact .inl rfl
        | some tree' => exact .inr ⟨hnone, [], hwrite⟩
      next => exact ⟨⟨rfl, rfl, rfl⟩, .inl rfl⟩
  | removeProbe name => exact ⟨⟨rfl, rfl, rfl⟩, .inr rfl⟩
  | writeMarker payload =>
      exact ⟨⟨rfl, rfl, rfl⟩, perform_written markerPath payload w.disk.target⟩
  | savePointer mode path => exact ⟨rfl, rfl⟩
  | _ => exact rfl

end Working

/-! ## §7. Questions that change nothing. -/

/-- Reads, and what concerns other processes. -/
def Harmless : WorkerQuestion ν → Prop
  | .copy .now | .copy .targetExists | .readJournal _ | .waitForExit _ | .isDir _
  | .canonicalize _ | .pathExists _ | .canonicalAncestor _ | .scanSource _ | .scanTarget _
  | .newUuid | .availableSpace | .restart => True
  | _ => False

section Harmless

variable [OsName ν] {host : MigrationHost ν} {environment : MigrationEnvironment ν}
  {sha256 : Bytes → Text} {journal : DataMigrationJournal} {w w' : Roots ν}

/-- The clock changes nothing. -/
theorem now_responds {now : Int}
    (h : WorkerResponds host environment sha256 journal (.copy .now) w now w') : w' = w := by
  obtain ⟨hpointers, hexists, hdisk⟩ := h
  obtain ⟨disk, exists_, pointers, hsource, htarget⟩ := w
  obtain ⟨disk', exists', pointers', hsource', htarget'⟩ := w'
  obtain rfl : disk' = disk := hdisk
  obtain rfl : pointers' = pointers := hpointers
  obtain rfl : exists' = exists_ := hexists
  rfl

theorem harmless_responds {question : WorkerQuestion ν} (hharmless : Harmless question)
    {answer : WorkerAnswer question}
    (h : WorkerResponds host environment sha256 journal question w answer w') : w' = w := by
  cases question with
  | copy question =>
      cases question with
      | now => exact now_responds h
      | targetExists => exact h.1
      | _ => exact hharmless.elim
  | readJournal directory | canonicalize path | scanSource root | scanTarget root => exact h.1
  | waitForExit _ | isDir _ | pathExists _ | canonicalAncestor _ | newUuid | availableSpace
  | restart => exact h
  | _ => exact hharmless.elim

variable {J : DataMigrationJournal → Prop} {P : WorkerQuestion ν → Prop}

omit [OsName ν] in
theorem within_inquire {question : WorkerQuestion ν} (h : P question) :
    Within J P (inquire question).run := within_answer h

omit [OsName ν] in
theorem within_normalizeFuturePath (hP : ∀ question, Harmless question → P question)
    (path suffix : List ν) : Within J P (normalizeFuturePath path suffix).run := by
  induction path generalizing suffix with
  | nil => exact within_conclude _
  | cons name above ih =>
      refine within_andThen (within_inquire (hP _ (by trivial))) fun found => ?_
      cases found with
      | true => exact within_andThen (within_tryAsk (hP _ (by trivial)) _) fun _ => trivial
      | false => exact ih (name :: suffix)

omit [OsName ν] in
theorem within_rejectReparseAncestors (hP : ∀ question, Harmless question → P question)
    (path : List ν) : Within J P (rejectReparseAncestors environment path).run := by
  induction path with
  | nil => trivial
  | cons name above ih =>
      refine within_andThen (within_inquire (hP _ (by trivial))) fun found => ?_
      refine within_andThen (within_conclude _) fun linked => ?_
      exact within_andThen (within_conclude _) fun _ => ih

theorem within_preflightPaths (hP : ∀ question, Harmless question → P question)
    (source target : Text) : Within J P (preflightPaths host environment source target).run := by
  refine within_andThen (within_conclude _) fun _ => ?_
  refine within_andThen (within_conclude _) fun _ => ?_
  refine within_andThen (within_inquire (hP _ (by trivial))) fun isDir => ?_
  refine within_andThen (within_conclude _) fun _ => ?_
  refine within_andThen (within_tryAsk (hP _ (by trivial)) _) fun path => ?_
  refine within_andThen (within_normalizeFuturePath hP _ _) fun normalized => ?_
  refine within_andThen (within_conclude _) fun _ => ?_
  refine within_andThen (within_rejectReparseAncestors hP _) fun _ => ?_
  refine within_andThen (within_conclude _) fun linked => ?_
  exact within_andThen (within_conclude _) fun _ => trivial

theorem within_preflightTarget (hP : ∀ question, Harmless question → P question) (target : Text)
    (manifest : DataMigrationManifest ν) (retryable : Bool) :
    Within J P (preflightTarget host target manifest retryable).run := by
  refine within_andThen (within_inquire (hP _ (by trivial))) fun found => ?_
  cases found with
  | true => exact within_andThen (within_tryAsk (hP _ (by trivial)) _) fun _ => within_conclude _
  | false => trivial

omit [OsName ν] in
theorem within_validateWorkerJournal (hP : ∀ question, Harmless question → P question)
    (directory fileName : Text) :
    Within J P (validateWorkerJournal host directory fileName : WorkerProcess ν _).run := by
  refine within_andThen (within_conclude _) fun _ => ?_
  refine within_andThen (within_tryAsk (hP _ (by trivial)) _) fun journal => ?_
  refine within_andThen (within_conclude _) fun _ => ?_
  exact within_andThen (within_conclude _) fun _ => trivial

end Harmless

/-! ## §8. The target of somebody else. -/

section Foreign

variable [OsName ν] {host : MigrationHost ν} {environment : MigrationEnvironment ν}
  {sha256 : Bytes → Text} {journal : DataMigrationJournal} {w₀ w w' : Roots ν}

/-- The target is there, and has something that no copy of the source has left. -/
structure Foreign (w : Roots ν) : Prop where
  targetExists : w.targetExists = true
  entry : (∃ path leaf, Migrated path ∧ w.disk.target.look path = some leaf
      ∧ ∀ leaf', w.disk.source.look path = some leaf' → kindOf leaf' ≠ kindOf leaf)
    ∨ ∃ name leaf, w.disk.target.look [name] = some leaf
      ∧ OsName.toStringLossy name ∉ allowedRootEntries

/-- Only the journals of both roots may have changed. -/
structure Untouched (w₀ w : Roots ν) : Prop where
  pointers : w.pointers = w₀.pointers
  targetExists : w.targetExists = w₀.targetExists
  source : ∀ path, path ≠ journalPath → w.disk.source.look path = w₀.disk.source.look path
  target : ∀ path, path ≠ journalPath → w.disk.target.look path = w₀.disk.target.look path

/-- What is asked as long as the target is not accepted. -/
def Wary : WorkerQuestion ν → Prop
  | .copy question => CopyAsks { entries := [], fileCount := 0, totalBytes := 0 } question
  | .createTarget | .createProbe _ | .removeProbe _ | .writeMarker _ | .savePointer _ _ => False
  | _ => True

omit [OsName ν] in
theorem wary_of_harmless (question : WorkerQuestion ν) (h : Harmless question) : Wary question := by
  cases question with
  | copy question =>
      cases question with
      | now => trivial
      | targetExists => trivial
      | _ => exact h.elim
  | _ => first | exact trivial | exact h.elim

/-- A written journal is not seen elsewhere. -/
theorem look_written {payload : Bytes} {tree tree' : Node ν Bytes} {answer : AppResult Unit}
    (h : FileWritten journalPath payload tree answer tree') {path : List ν}
    (hpath : path ≠ journalPath) : tree'.look path = tree.look path := by
  cases answer with
  | ok u => rw [Node.look_writeFile h, if_neg hpath]
  | error e =>
      rcases h with hsame | hwritten
      · rw [hsame]
      · rw [Node.look_writeFile hwritten, if_neg hpath]

theorem Untouched.step (question : WorkerQuestion ν) (hwary : Wary question) (w : Roots ν)
    (answer : WorkerAnswer question) (w' : Roots ν)
    (hresponds : WorkerResponds host environment sha256 journal question w answer w')
    (h : Untouched w₀ w) : Untouched w₀ w' := by
  by_cases hharmless : Harmless question
  · rw [harmless_responds hharmless hresponds]
    exact h
  cases question with
  | copy question =>
      obtain ⟨hpointers, hexists, hdisk⟩ := copy_responds hresponds
      refine ⟨hpointers.trans h.pointers, hexists.trans h.targetExists, fun path hpath => ?_,
        fun path hpath => ?_⟩
      · rw [← h.source path hpath]
        cases question with
        | now | targetExists => rw [show w'.disk = w.disk from hdisk]
        | saveSource payload => exact look_written hdisk.2 hpath
        | createDirAll path => exact absurd hwary.choose_spec.1 List.not_mem_nil
        | copyFileAtomic path => exact absurd hwary.choose_spec.1 List.not_mem_nil
        | _ => rw [hdisk.1]
      · rw [← h.target path hpath]
        cases question with
        | now | targetExists => rw [show w'.disk = w.disk from hdisk]
        | saveTarget payload => exact look_written hdisk.2 hpath
        | createDirAll path => exact absurd hwary.choose_spec.1 List.not_mem_nil
        | copyFileAtomic path => exact absurd hwary.choose_spec.1 List.not_mem_nil
        | beforeVerify => rw [show w'.disk.target = w.disk.target from hdisk.2]
        | _ => rw [hdisk.1]
  | _ => first | exact hwary.elim | exact (hharmless (by trivial)).elim

/-- The target stays one of somebody else. -/
theorem Foreign.kept (hforeign : Foreign w₀) (h : Untouched w₀ w) : Foreign w where
  targetExists := h.targetExists.trans hforeign.targetExists
  entry := by
    rcases hforeign.entry with ⟨path, leaf, hmigrated, hlook, hother⟩ | ⟨name, leaf, hlook, hname⟩
    · refine .inl ⟨path, leaf, hmigrated, ?_, fun leaf' hsource => hother leaf' ?_⟩
      · rw [h.target path hmigrated.ne_journal, hlook]
      · rw [← h.source path hmigrated.ne_journal, hsource]
    · have hpath : [name] ≠ journalPath := by
        intro hjournal
        rw [List.singleton_inj.mp hjournal, OsName.toStringLossy_ofText] at hname
        exact hname (by decide +kernel)
      exact .inr ⟨name, leaf, by rw [h.target _ hpath, hlook], hname⟩

/-- What `validate_retry_target` accepts. -/
theorem checkRetried_ok {source : DataMigrationManifest ν}
    {entries : List (DataMigrationManifestEntry ν)} (h : checkRetried source entries = .ok ()) :
    ∀ existing ∈ entries, ∃ expected ∈ source.entries,
      expected.relativePath = existing.relativePath ∧ expected.kind = existing.kind := by
  induction entries with
  | nil => simp
  | cons existing rest ih =>
      unfold checkRetried at h
      split at h
      next => cases h
      next expected hfind =>
        by_cases hkind : expected.kind = existing.kind
        · rw [if_neg (not_not.mpr hkind)] at h
          rw [List.forall_mem_cons]
          have hpath := List.find?_some hfind
          rw [decide_eq_true_eq] at hpath
          exact ⟨⟨expected, List.mem_of_find?_eq_some hfind, hpath, hkind⟩, ih h⟩
        · rw [if_pos hkind] at h
          cases h

/-- **A foreign target is not accepted.** -/
theorem Foreign.validateTarget (hforeign : Foreign w) {tree : Node ν Bytes} (hnamed : tree.Named)
    (hlook : ∀ path, path ≠ journalPath → tree.look path = w.disk.source.look path)
    {root root' : List ν} {manifest existing : DataMigrationManifest ν}
    (hsource : scanManifest sha256 environment root tree = .ok manifest)
    (htarget : scanManifest sha256 environment root' w.disk.target = .ok existing)
    (retryable : Bool) :
    DataMigration.validateTarget manifest existing retryable ≠ .ok () := by
  intro h
  rcases hforeign.entry with ⟨path, leaf, hmigrated, hfound, hother⟩ | ⟨name, leaf, hfound, hname⟩
  · have hmem := (mem_scanManifest htarget w.targetNamed _).mpr
      ⟨path, leaf, hmigrated, hfound, rfl⟩
    have hentries : existing.entries.isEmpty = false := by
      rw [Bool.eq_false_iff, Ne, List.isEmpty_iff]
      intro hempty
      rw [hempty] at hmem
      exact absurd hmem List.not_mem_nil
    unfold DataMigration.validateTarget at h
    rw [if_neg (by simp [hentries])] at h
    cases retryable with
    | false => simp at h
    | true =>
        rw [if_neg (by simp)] at h
        obtain ⟨expected, hexpected, hpath, hkind⟩ := checkRetried_ok h _ hmem
        obtain ⟨path', leaf', _, hlook', rfl⟩ :=
          (mem_scanManifest hsource hnamed expected).mp hexpected
        rw [entryOf_path, entryOf_path] at hpath
        rw [entryOf_kind, entryOf_kind] at hkind
        subst hpath
        rw [hlook _ hmigrated.ne_journal] at hlook'
        exact hother leaf' hlook' hkind
  · exact hname ((scanManifest_declared htarget).2 name leaf hfound)

/-- Up to here nothing is touched, and the end is never a success. -/
abbrev Refuses {α : Type} (host : MigrationHost ν) (environment : MigrationEnvironment ν)
    (sha256 : Bytes → Text) (journal : DataMigrationJournal) (w₀ : Roots ν)
    (p : WorkerProcess ν α) (s : DataMigrationJournal) (w : Roots ν) : Prop :=
  Keeps (WorkerResponds host environment sha256 journal) (fun _ w => Untouched w₀ w)
    (fun r _ _ => ∀ a, r ≠ .ok a) p.run s w

/-- A part that is wary. -/
theorem keeps_wary {α : Type} {p : Lib.Process DataMigrationJournal (@WorkerAnswer ν) α}
    (hp : p.Within (fun _ => True) Wary) (s : DataMigrationJournal) (h : Untouched w₀ w) :
    p.Keeps (WorkerResponds host environment sha256 journal) (fun _ w => Untouched w₀ w)
      (fun _ _ _ => True) s w :=
  (keeps_of_within hp Untouched.step trivial h).mono (fun _ _ hc => hc.2) fun _ _ _ _ _ => trivial

theorem wary_part {α β : Type} {Q : AppResult α → DataMigrationJournal → Roots ν → Prop}
    {p : WorkerProcess ν β} {f : β → WorkerProcess ν α} (hp : Within (fun _ => True) Wary p.run)
    (s : DataMigrationJournal) (h : Untouched w₀ w)
    (hok : ∀ b s' w', Untouched w₀ w' →
      Keeps (WorkerResponds host environment sha256 journal) (fun _ w => Untouched w₀ w) Q
        (f b).run s' w')
    (herror : ∀ e s' w', Q (.error e) s' w') :
    Keeps (WorkerResponds host environment sha256 journal) (fun _ w => Untouched w₀ w) Q
      (p >>= f).run s w :=
  keeps_part (keeps_wary hp s h) (fun b s' w' hb _ => hok b s' w' hb)
    fun e s' w' _ _ => herror e s' w'

theorem preflightInner_refuses (hforeign : Foreign w₀) (s : DataMigrationJournal)
    (h : Untouched w₀ w) (source target : Text) (now : Int) (retryable : Bool) :
    Refuses host environment sha256 journal w₀
      (preflightInner host environment source target now retryable) s w := by
  have herror : ∀ (e : AppError) (a : DataMigrationPreview × DataMigrationManifest ν),
      (.error e : AppResult _) ≠ .ok a := fun e a he => by cases he
  refine wary_part (within_preflightPaths wary_of_harmless source target) s h
    (fun normalized s w h => ?_) fun e _ _ => herror e
  refine keeps_tryAsk h (fun answer w₁ manifest hscan hok => ?_)
    fun answer w₁ e hscan _ => ⟨hscan.1 ▸ h, herror e⟩
  obtain ⟨rfl, hscan⟩ := hscan
  have hmanifest := hscan manifest hok
  have hrefused : Keeps (WorkerResponds host environment sha256 journal)
      (fun _ w => Untouched w₀ w) (fun r _ _ => ∀ u, r ≠ .ok u)
      (preflightTarget host target manifest retryable).run s w₁ := by
    refine keeps_answer h fun found w₂ hfound => ?_
    obtain ⟨rfl, rfl⟩ := hfound
    rw [(hforeign.kept h).targetExists]
    refine keeps_tryAsk h (fun answer w₃ existing htarget hok => ?_)
      fun answer w₃ e htarget _ => ⟨htarget.1 ▸ h, fun u he => by cases he⟩
    obtain ⟨rfl, htarget⟩ := htarget
    exact ⟨h, fun u hok' => (hforeign.kept h).validateTarget w₃.sourceNamed (fun _ _ => rfl)
      hmanifest (htarget existing hok) retryable hok'⟩
  exact keeps_part hrefused (fun u _ _ _ hne => absurd rfl (hne u)) fun e _ _ _ _ => herror e

theorem preflightOrRetry_refuses (hforeign : Foreign w₀) (s : DataMigrationJournal)
    (h : Untouched w₀ w) (source target : Text) :
    Refuses host environment sha256 journal w₀
      (preflightOrRetry host environment source target) s w := by
  have herror : ∀ (e : AppError) (a : DataMigrationPreview × DataMigrationManifest ν),
      (.error e : AppResult _) ≠ .ok a := fun e a he => by cases he
  refine wary_part (within_inquire (by trivial)) s h (fun now s w h => ?_) fun e _ _ => herror e
  refine keeps_lifted (preflightInner_refuses hforeign s h source target now false)
    fun first s w h hfirst => ?_
  cases first with
  | ok checked => exact absurd rfl (hfirst checked)
  | error e =>
      refine wary_part (within_inquire (by trivial)) s h (fun now s w h => ?_)
        fun e _ _ => herror e
      exact preflightInner_refuses hforeign s h source target now true

theorem migrate_refuses (hforeign : Foreign w₀) (s : DataMigrationJournal) (h : Untouched w₀ w)
    (pointer : RuntimeDataRootPointer) (journal' : DataMigrationJournal) :
    Refuses host environment sha256 journal w₀ (migrate host environment pointer journal') s w := by
  have hcopy : Refuses host environment sha256 journal w₀
      (copyToTarget host environment journal') s w := by
    refine wary_part (within_tryAsk (by trivial) _) s h (fun _ s w h => ?_)
      fun e _ _ _ he => by cases he
    exact keeps_part (preflightOrRetry_refuses hforeign s h journal'.source journal'.target)
      (fun checked _ _ _ hne => absurd rfl (hne checked)) fun e _ _ _ _ _ he => by cases he
  exact keeps_part hcopy (fun target _ _ _ hne => absurd rfl (hne target))
    fun e _ _ _ _ _ he => by cases he

omit [OsName ν] in
theorem wary_recordFailure (error : AppError) :
    (copying (recordFailure (journalFormat host) error) :
      Lib.Process DataMigrationJournal (@WorkerAnswer ν) Unit).Within (fun _ => True) Wary := by
  refine within_widen (within_of_asks ?_) fun _ hasked => hasked
  refine asks_bind (p := query CopyQuestion.now) ⟨trivial, fun _ => trivial⟩ fun now => ?_
  refine asks_bind (p := atomic _) (fun _ => trivial) fun _ => ?_
  exact asks_bind asks_save fun _ => trivial

theorem runWorkerWith_untouched (hforeign : Foreign w₀) (s : DataMigrationJournal)
    (h : Untouched w₀ w) (directory fileName : Text) (pointer : RuntimeDataRootPointer) :
    Keeps (WorkerResponds host environment sha256 journal) (fun _ w => Untouched w₀ w)
      (fun r _ _ => r ≠ .ok .completed)
      (runWorkerWith host environment directory fileName pointer).run s w := by
  have herror : ∀ e : AppError, (.error e : AppResult DataMigrationPhase) ≠ .ok .completed :=
    fun e he => by cases he
  refine wary_part (within_validateWorkerJournal wary_of_harmless directory fileName) s h
    (fun journal' s w h => ?_) fun e _ _ => herror e
  refine wary_part (p := setWorkerJournal fun _ => journal') (fun _ _ => ⟨trivial, trivial⟩) s h
    (fun _ s w h => ?_) fun e _ _ => herror e
  refine keeps_lifted (migrate_refuses hforeign s h pointer journal') fun result s w h hresult => ?_
  cases result with
  | ok u => exact absurd rfl (hresult u)
  | error error =>
      refine keeps_lifted (keeps_wary (wary_recordFailure error) s h) fun _ s w h _ => ?_
      refine wary_part (within_tryAsk (by trivial) _) s h (fun _ s w h => ?_)
        fun e _ _ => herror e
      exact ⟨h, fun he => by cases he⟩

/-- **The data of another target are left alone**: whatever fails, and wherever the worker
stops, only journals are written, and the migration is not completed. -/
theorem foreign_target_untouched (hforeign : Foreign w₀) {defaultRoot directory fileName : Text}
    {s s' : DataMigrationJournal}
    {p : Lib.Process DataMigrationJournal (@WorkerAnswer ν) (AppResult DataMigrationPhase)}
    (hworker : ReachesWith (WorkerResponds host environment sha256 journal)
      ((runSystemWorker host environment defaultRoot directory fileName).run, s, w₀) (p, s', w)) :
    Untouched w₀ w ∧ p ≠ .done (.ok .completed) := by
  have hstart : Untouched w₀ w₀ := ⟨rfl, rfl, fun _ _ => rfl, fun _ _ => rfl⟩
  have hkeeps : Keeps (WorkerResponds host environment sha256 journal)
      (fun _ w => Untouched w₀ w) (fun r _ _ => r ≠ .ok .completed)
      (runSystemWorker host environment defaultRoot directory fileName).run s w₀ := by
    refine wary_part (within_validateWorkerJournal wary_of_harmless directory fileName) s hstart
      (fun journal' s w h => ?_) fun e _ _ he => by cases he
    refine keeps_conclude h (fun pointer _ => ?_) fun e _ he => by cases he
    exact runWorkerWith_untouched hforeign s h directory fileName pointer
  obtain ⟨huntouched, hend⟩ := keeps_iff.mp hkeeps _ _ _ hworker
  exact ⟨huntouched, fun hdone => hend _ hdone rfl⟩

end Foreign

/-! ## §9. A migration to a directory of photos. -/

attribute [local instance] textNames

def sampleHost : MigrationHost Text where
  isAbsolute path := path.head? = some '/'
  canonicalize path := if path.head? = some '/' then some path else none
  windows := false
  parseError _ := []
  components path := ["/".toList, path]
  processId := 1

def sampleEnvironment : MigrationEnvironment Text where
  isReparsePoint _ := .ok false

def sampleInstallation : Installation where
  envOverride := none
  portable := false
  defaultRoot := "/d".toList

def preparedJournal : DataMigrationJournal :=
  { sampleJournal with migrationId := "00000000-0000-0000-0000-000000000000".toList }

def preparedSource : Node Text Bytes :=
  .dir [("logs".toList, .dir [("a".toList, .file [1, 2])]), ("app.db".toList, .file [3]),
    (migrationJournalFile, .file preparedJournal.toVecPretty)]

theorem preparedSource_named : preparedSource.Named := by
  refine .dir (by decide +kernel) fun e he => ?_
  simp only [List.mem_cons, List.not_mem_nil, or_false] at he
  rcases he with rfl | rfl | rfl
  · refine .dir (by decide) fun e he => ?_
    obtain rfl := List.mem_singleton.mp he
    exact .file _
  · exact .file _
  · exact .file _

/-- The roots of a migration that has been prepared. -/
def preparedRoots (target : Node Text Bytes) (htarget : target.Named) : Roots Text where
  disk := ⟨preparedSource, target, []⟩
  targetExists := true
  pointers := { platform := .registry (some "/s".toList), portable := none }
  sourceNamed := preparedSource_named
  targetNamed := htarget

def photos : Node Text Bytes := .dir [("photo".toList, .file [9])]

theorem photos_named : photos.Named := by
  refine .dir (by decide) fun e he => ?_
  obtain rfl := List.mem_singleton.mp he
  exact .file _

/-- A worker on a computer that works, to its end. -/
def runPrepared (w : Roots Text) :
    AppResult DataMigrationPhase × DataMigrationJournal × Roots Text :=
  runThrough (serve sampleHost sampleEnvironment sampleHash preparedJournal ⟨2, 2 ^ 40, []⟩)
    (runSystemWorker sampleHost sampleEnvironment sampleInstallation.defaultRoot "/s".toList
      migrationJournalFile).run preparedJournal w

theorem runPrepared_reached (w : Roots Text) {a : AppResult DataMigrationPhase}
    (h : (runPrepared w).1 = a) :
    ReachesWith (WorkerResponds sampleHost sampleEnvironment sampleHash preparedJournal)
      ((runSystemWorker sampleHost sampleEnvironment sampleInstallation.defaultRoot "/s".toList
        migrationJournalFile).run, preparedJournal, w)
      (.done a, (runPrepared w).2.1, (runPrepared w).2.2) :=
  runThrough_ends serve_responds h

theorem photos_foreign : Foreign (preparedRoots photos photos_named) where
  targetExists := rfl
  entry := .inr ⟨"photo".toList, .file [9], rfl, by decide +kernel⟩

theorem photos_untouched :
    Untouched (preparedRoots photos photos_named)
        (runPrepared (preparedRoots photos photos_named)).2.2
      ∧ (.done (runPrepared (preparedRoots photos photos_named)).1 :
          Lib.Process DataMigrationJournal (@WorkerAnswer Text) _) ≠ .done (.ok .completed) :=
  foreign_target_untouched photos_foreign (runPrepared_reached _ rfl)

end QingzhouSSH.Core.DataMigration
