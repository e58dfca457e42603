/-
  QingzhouSSH.Services.UpdateManager — checking, downloading, installing and clearing updates.

  The manager, its download service and their callers: a state holds what the locks protect
  (lifecycle, reason, staged package, pending package), the stored state, the files, and where
  every call stands.  A step is one section under a lock, one load or save, one operation on a
  file or the return of the checker or the adapter; any number of calls take their steps in any
  order.  The state also remembers how often the lifecycle was reset, which packages have been
  taken out, what was saved and what the adapter was given to install.

  Main results:
    * `advance_cases` — a step of a call is a step of its operation;
    * `advance_stores` — only a save changes the stored state.
-/
import Mathlib.Logic.Function.Basic
import QingzhouSSH.Core.Updates.StateStore

namespace QingzhouSSH.Services.UpdateManager

open QingzhouSSH.Domain
open QingzhouSSH.Core.Updates

abbrev Bytes := List UInt8

/-- The digest of the `sha2` crate, printed in hexadecimal. -/
class Sha256Crate where
  digest : Bytes → Text

/-! ## §1. Values and errors. -/

structure StagedUpdate where
  version : Text
  relativePath : Text
  sha256 : Text
  size : Nat
  deriving Repr, DecidableEq

/-- A package that has been downloaded; `package` tells two downloads of one release apart. -/
structure PendingUpdate where
  release : UpdateRelease
  staged : StagedUpdate
  package : Nat
  deriving Repr, DecidableEq

inductive ManifestDecision where
  | upToDate
  | available (release : UpdateRelease)
  deriving Repr, DecidableEq

structure SourceSelection where
  source : UpdateSource
  decision : ManifestDecision
  fallbackReason : Option Text
  deriving Repr, DecidableEq

inductive SourceFailureKind where
  | network
  | notFound
  | server
  | invalidManifest
  | security
  deriving Repr, DecidableEq

inductive UpdateAdapterError where
  | network
  | signature
  | manifest
  | install
  deriving Repr, DecidableEq

inductive UpdateServiceError where
  | adapter (error : UpdateAdapterError)
  | integrity
  | notDownloaded
  | confirmationRequired
  | store (error : UpdateStateStoreError)
  | io (message : Text)
  deriving Repr, DecidableEq

inductive UpdateManagerError where
  | source (kind : SourceFailureKind)
  | transition (error : UpdateTransitionError)
  | store (error : UpdateStateStoreError)
  | service (error : UpdateServiceError)
  deriving Repr, DecidableEq

/-- `public_source_error`. -/
def publicSourceError : SourceFailureKind → Text
  | .network => "更新网络暂时不可用".toList
  | .notFound => "更新源尚未发布版本清单".toList
  | .server => "更新服务暂时不可用".toList
  | .invalidManifest => "更新清单格式或内容无效".toList
  | .security => "更新源安全校验失败".toList

/-- `public_service_error`. -/
def publicServiceError : UpdateServiceError → Text
  | .adapter .network => "更新网络暂时不可用".toList
  | .adapter .signature => "更新签名验证失败".toList
  | .adapter .manifest => "更新清单校验失败".toList
  | .adapter .install => "更新安装器启动失败".toList
  | .integrity => "更新包完整性校验失败".toList
  | .notDownloaded => "更新包尚未完成下载".toList
  | .confirmationRequired => "安装更新前必须明确确认".toList
  | .store _ => "更新状态存储失败".toList
  | .io _ => "更新文件操作失败".toList

/-- `source_label`. -/
def sourceLabel : UpdateSource → Text
  | .github => "GitHub Releases".toList
  | .modelscope => "ModelScope 国内镜像".toList

structure AvailableUpdate where
  version : Text
  notes : Text
  publishedAt : Option Text
  size : Nat
  buildId : Text
  source : UpdateSource
  sourceLabel : Text
  deriving Repr, DecidableEq

def AvailableUpdate.ofRelease (release : UpdateRelease) : AvailableUpdate :=
  { version := release.version,
    notes := release.notes,
    publishedAt := release.publishedAt,
    size := release.size,
    buildId := release.buildId,
    source := release.source,
    sourceLabel := UpdateManager.sourceLabel release.source }

structure UpdateStatus where
  currentVersion : Text
  phase : UpdatePhase
  autoCheck : Bool
  lastCheckedAt : Option Nat
  lastResult : Option StoredCheckResult
  release : Option AvailableUpdate
  fallbackReason : Option Text
  staged : Option StagedUpdate
  lastError : Option Text
  deriving Repr, DecidableEq

/-- `staged_relative_path`. -/
def stagedRelativePath (release : UpdateRelease) : Except UpdateServiceError Text :=
  let path := fun suffix : Text => "staged/".toList ++ release.version ++ "/QingzhouSSH-".toList
    ++ release.version ++ '-' :: release.platform ++ '.' :: suffix
  if ["windows-x86_64".toList, "windows-x86_64-nsis".toList,
      "windows-aarch64-nsis".toList].contains release.platform then
    .ok (path "exe".toList)
  else if ["macos-x86_64-dmg".toList, "macos-aarch64-dmg".toList].contains release.platform then
    .ok (path "app.tar.gz".toList)
  else if ["linux-x86_64-appimage".toList,
      "linux-aarch64-appimage".toList].contains release.platform then
    .ok (path "AppImage".toList)
  else .error .integrity

variable [Sha256Crate] [PathCrate]

/-- `verify_bytes`. -/
def verifyBytes (release : UpdateRelease) (bytes : Bytes) : Except UpdateServiceError Unit :=
  if bytes.length ≠ release.size then .error .integrity
  else if Sha256Crate.digest bytes ≠ release.sha256 then .error .integrity
  else .ok ()

/-- What a download leaves before its file is written: the package and where its file goes. -/
def stage (release : UpdateRelease) (bytes : Bytes) : Except UpdateServiceError StagedUpdate := do
  verifyBytes release bytes
  let relativePath ← stagedRelativePath release
  (validateStagedFile (some relativePath)).mapError .store
  return { version := release.version, relativePath := relativePath, sha256 := release.sha256,
           size := release.size }

/-! ## §2. States. -/

/-- One of the saves, by the fields that its call sets. -/
inductive FieldWrite where
  | autoCheck (enabled : Bool)
  | lastCheck (now : Nat) (result : StoredCheckResult)
  | stagedFile (path : Option Text)
  deriving Repr, DecidableEq

/-- What a call makes of the state that it has loaded. -/
def FieldWrite.apply : FieldWrite → UpdatePersistentState → UpdatePersistentState
  | .autoCheck enabled, state => { state with autoCheck := enabled }
  | .lastCheck now result, state =>
      { state with lastCheckedAt := some now, lastResult := some result }
  | .stagedFile path, state => { state with stagedFile := path }

/-- A call of the adapter's `install`: the pending update, the bytes, the release that the
lifecycle held when the installation was confirmed, and the packages that calls of
`clear_downloaded` had discarded when they returned. -/
structure Installation where
  pending : PendingUpdate
  bytes : Bytes
  confirmed : Option UpdateRelease
  discarded : List Nat
  deriving Repr, DecidableEq

/-- All that the calls share. -/
structure Shared where
  currentVersion : Text
  lifecycle : UpdateLifecycle
  fallbackReason : Option Text
  staged : Option StagedUpdate
  pending : Option PendingUpdate
  stored : UpdatePersistentState
  files : Text → Option Bytes
  resets : Nat
  packages : Nat
  taken : List Nat
  discarded : List Nat
  saves : List FieldWrite
  installations : List Installation

inductive Request where
  | check (manual : Bool) (now : Nat)
  | download
  | install (confirmed : Bool)
  | clearDownloaded
  | setAutoCheck (enabled : Bool)
  deriving Repr, DecidableEq

/-- Where a call stands: before the step that is named. -/
inductive Phase where
  | unstarted
  | loadingCheck (manual : Bool) (now : Nat)
  | beginningCheck (now : Nat)
  | droppingReason (now : Nat)
  | checking (now : Nat)
  | keepingReason (now : Nat) (selection : SourceSelection)
  | deciding (now : Nat) (selection : SourceSelection)
  | failingCheck (now : Nat) (kind : SourceFailureKind)
  | loadingResult (now : Nat) (result : StoredCheckResult) (failure : Option SourceFailureKind)
  | savingResult (now : Nat) (result : StoredCheckResult) (failure : Option SourceFailureKind)
      (loaded : UpdatePersistentState)
  | beginningDownload
  | panicked
  | downloading (release : UpdateRelease)
  | writingFile (release : UpdateRelease) (bytes : Bytes)
  | loadingStaged (release : UpdateRelease) (staged : StagedUpdate)
  | savingStaged (release : UpdateRelease) (staged : StagedUpdate) (loaded : UpdatePersistentState)
  | keepingPending (release : UpdateRelease) (staged : StagedUpdate)
  | keepingStaged (release : UpdateRelease) (staged : StagedUpdate)
  | finishingDownload (release : UpdateRelease)
  | failingDownload (error : UpdateServiceError)
  | beginningInstall (confirmed : Bool)
  | readingPending (confirmed : Option UpdateRelease)
  | readingFile (pending : PendingUpdate) (confirmed : Option UpdateRelease)
  | verifying (pending : PendingUpdate) (bytes : Bytes) (confirmed : Option UpdateRelease)
  | installing
  | failingInstall (error : UpdateServiceError)
  | takingPending
  | loadingCleared (taken : Option PendingUpdate)
  | removingFile (taken : Option PendingUpdate) (loaded : UpdatePersistentState)
  | savingCleared (taken : Option PendingUpdate) (loaded : UpdatePersistentState)
  | droppingStaged (taken : Option PendingUpdate)
  | clearingReason (taken : Option PendingUpdate)
  | resetting (taken : Option PendingUpdate)
  | loadingAutoCheck (enabled : Bool)
  | savingAutoCheck (enabled : Bool) (loaded : UpdatePersistentState)
  | loadingStatus (cleared : Option PendingUpdate)
  | readingStatus (cleared : Option PendingUpdate) (loaded : UpdatePersistentState)
  | returned (result : Except UpdateManagerError UpdateStatus)

/-- A call, and how often the lifecycle had been reset and how many packages had been taken out
when its own part of the lifecycle began. -/
structure UpdateCall where
  phase : Phase
  began : Nat
  takenBefore : Nat

structure UpdateState extends Shared where
  call : Nat → UpdateCall

/-- What comes from outside with a step. -/
inductive Answer where
  | done
  | storeFailed (error : UpdateStateStoreError)
  | ioFailed (message : Text)
  | checked (result : Except SourceFailureKind SourceSelection)
  | downloaded (result : Except UpdateAdapterError Bytes)
  | installed (result : Except UpdateAdapterError Unit)

inductive UpdateEvent where
  | start (id : Nat) (request : Request)
  | step (id : Nat) (answer : Answer)
  | disk (path : Text) (contents : Option Bytes)

/-! ## §3. Steps. -/

def automaticCheckInterval : Nat := 6 * 60 * 60

def Request.phase : Request → Phase
  | .check manual now => .loadingCheck manual now
  | .download => .beginningDownload
  | .install confirmed => .beginningInstall confirmed
  | .clearDownloaded => .takingPending
  | .setAutoCheck enabled => .loadingAutoCheck enabled

/-- The stored state as a call loads it. -/
def Shared.load (sh : Shared) : Answer → Option (Except UpdateStateStoreError UpdatePersistentState)
  | .done => some (Core.Updates.load sh.stored)
  | .storeFailed error => some (.error error)
  | _ => none

/-- A save of what a call makes of the state that it has loaded. -/
def Shared.save (sh : Shared) (write : FieldWrite) (loaded : UpdatePersistentState) :
    Answer → Option (Except UpdateStateStoreError Shared)
  | .done =>
      match Core.Updates.save (write.apply loaded) with
      | .ok stored => some (.ok { sh with stored := stored, saves := sh.saves ++ [write] })
      | .error error => some (.error error)
  | .storeFailed error => some (.error error)
  | _ => none

/-- What is kept of a check. -/
def checkResult (currentVersion : Text) (selection : SourceSelection) : StoredCheckResult :=
  match selection.decision with
  | .upToDate =>
      { status := .upToDate, version := some currentVersion, source := some selection.source,
        message := some "当前已是最新版本".toList }
  | .available release =>
      { status := .available, version := some release.version, source := some selection.source,
        message := some "发现可用更新".toList }

/-- What is kept of a check that failed. -/
def failedResult (kind : SourceFailureKind) : StoredCheckResult :=
  { status := .failed, version := none, source := none, message := some (publicSourceError kind) }

/-- The transition that a decision asks for. -/
def decide (decision : ManifestDecision) (l : UpdateLifecycle) :
    Except UpdateTransitionError UpdateLifecycle :=
  match decision with
  | .upToDate => l.setUpToDate
  | .available release => l.setAvailable release

/-- A call of `clear_downloaded` returns, with what it has taken out. -/
def Shared.discard (taken : Option PendingUpdate) (sh : Shared) : Shared :=
  { sh with discarded := (taken.map PendingUpdate.package).toList ++ sh.discarded }

/-- `status`, under the locks. -/
def Shared.status (sh : Shared) (persistent : UpdatePersistentState) : UpdateStatus :=
  { currentVersion := sh.currentVersion,
    phase := sh.lifecycle.phase,
    autoCheck := persistent.autoCheck,
    lastCheckedAt := persistent.lastCheckedAt,
    lastResult := persistent.lastResult,
    release := sh.lifecycle.release.map AvailableUpdate.ofRelease,
    fallbackReason := sh.fallbackReason,
    staged := sh.staged,
    lastError := sh.lifecycle.lastError }

/-- A call whose part of the lifecycle begins. -/
def Shared.begin (sh : Shared) (phase : Phase) : UpdateCall :=
  { phase := phase, began := sh.resets, takenBefore := sh.taken.length }

def UpdateCall.move (phase : Phase) (c : UpdateCall) : UpdateCall := { c with phase := phase }

/-- A call that ends in an error. -/
def UpdateCall.refuse (error : UpdateManagerError) (c : UpdateCall) : UpdateCall :=
  c.move (.returned (.error error))

/-- The steps of `check`. -/
def advanceCheck (c : UpdateCall) (sh : Shared) (answer : Answer) : Option (UpdateCall × Shared) :=
  match c.phase, answer with
  | .loadingCheck manual now, answer =>
      match sh.load answer with
      | none => none
      | some (.error error) => some (c.refuse (.store error), sh)
      | some (.ok persistent) =>
          if !manual && !persistent.automaticCheckDue now automaticCheckInterval then
            some (c.move (.loadingStatus none), sh)
          else some (c.move (.beginningCheck now), sh)
  | .beginningCheck now, .done =>
      match sh.lifecycle.beginCheck with
      | .error error => some (c.refuse (.transition error), sh)
      | .ok lifecycle =>
          some (sh.begin (.droppingReason now), { sh with lifecycle := lifecycle })
  | .droppingReason now, .done =>
      some (c.move (.checking now), { sh with fallbackReason := none })
  | .checking now, .checked (.ok selection) => some (c.move (.keepingReason now selection), sh)
  | .checking now, .checked (.error kind) => some (c.move (.failingCheck now kind), sh)
  | .keepingReason now selection, .done =>
      some (c.move (.deciding now selection),
        { sh with fallbackReason := selection.fallbackReason })
  | .deciding now selection, .done =>
      match decide selection.decision sh.lifecycle with
      | .error error => some (c.refuse (.transition error), sh)
      | .ok lifecycle =>
          some (c.move (.loadingResult now (checkResult sh.currentVersion selection) none),
            { sh with lifecycle := lifecycle })
  | .failingCheck now kind, .done =>
      some (c.move (.loadingResult now (failedResult kind) (some kind)),
        { sh with lifecycle := sh.lifecycle.fail (publicSourceError kind) })
  | .loadingResult now result failure, answer =>
      match sh.load answer with
      | none => none
      | some (.error error) => some (c.refuse (.store error), sh)
      | some (.ok loaded) => some (c.move (.savingResult now result failure loaded), sh)
  | .savingResult now result failure loaded, answer =>
      match sh.save (.lastCheck now result) loaded answer with
      | none => none
      | some (.error error) => some (c.refuse (.store error), sh)
      | some (.ok sh') =>
          match failure with
          | none => some (c.move (.loadingStatus none), sh')
          | some kind => some (c.refuse (.source kind), sh')
  | _, _ => none

/-- The steps of `download`, of the manager and of the service. -/
def advanceDownload (c : UpdateCall) (sh : Shared) (answer : Answer) :
    Option (UpdateCall × Shared) :=
  match c.phase, answer with
  | .beginningDownload, .done =>
      match sh.lifecycle.beginDownload with
      | .error error => some (c.refuse (.transition error), sh)
      | .ok lifecycle =>
          match lifecycle.release with
          | none => some (c.move .panicked, { sh with lifecycle := lifecycle })
          | some release =>
              some (sh.begin (.downloading release), { sh with lifecycle := lifecycle })
  | .downloading release, .downloaded (.ok bytes) => some (c.move (.writingFile release bytes), sh)
  | .downloading _, .downloaded (.error error) =>
      some (c.move (.failingDownload (.adapter error)), sh)
  | .writingFile release bytes, .done =>
      match stage release bytes with
      | .error error => some (c.move (.failingDownload error), sh)
      | .ok staged =>
          some (c.move (.loadingStaged release staged),
            { sh with files := Function.update sh.files staged.relativePath (some bytes) })
  | .writingFile release bytes, .ioFailed message =>
      match stage release bytes with
      | .error error => some (c.move (.failingDownload error), sh)
      | .ok _ => some (c.move (.failingDownload (.io message)), sh)
  | .loadingStaged release staged, answer =>
      match sh.load answer with
      | none => none
      | some (.error error) => some (c.move (.failingDownload (.store error)), sh)
      | some (.ok loaded) => some (c.move (.savingStaged release staged loaded), sh)
  | .savingStaged release staged loaded, answer =>
      match sh.save (.stagedFile (some staged.relativePath)) loaded answer with
      | none => none
      | some (.error error) => some (c.move (.failingDownload (.store error)), sh)
      | some (.ok sh') => some (c.move (.keepingPending release staged), sh')
  | .keepingPending release staged, .done =>
      some (c.move (.keepingStaged release staged),
        { sh with pending := some { release := release, staged := staged, package := sh.packages },
                  packages := sh.packages + 1 })
  | .keepingStaged release staged, .done =>
      some (c.move (.finishingDownload release), { sh with staged := some staged })
  | .finishingDownload _, .done =>
      match sh.lifecycle.setDownloaded with
      | .error error => some (c.refuse (.transition error), sh)
      | .ok lifecycle => some (c.move (.loadingStatus none), { sh with lifecycle := lifecycle })
  | .failingDownload error, .done =>
      some (c.refuse (.service error),
        { sh with lifecycle := sh.lifecycle.fail (publicServiceError error) })
  | _, _ => none

/-- The steps of `install`, of the manager and of the service. -/
def advanceInstall (c : UpdateCall) (sh : Shared) (answer : Answer) :
    Option (UpdateCall × Shared) :=
  match c.phase, answer with
  | .beginningInstall confirmed, .done =>
      if !confirmed then some (c.refuse (.service .confirmationRequired), sh)
      else
        match sh.lifecycle.beginInstall with
        | .error error => some (c.refuse (.transition error), sh)
        | .ok lifecycle =>
            some (sh.begin (.readingPending lifecycle.release), { sh with lifecycle := lifecycle })
  | .readingPending confirmed, .done =>
      match sh.pending with
      | none => some (c.move (.failingInstall .notDownloaded), sh)
      | some pending => some (c.move (.readingFile pending confirmed), sh)
  | .readingFile pending confirmed, .done =>
      match validateStagedFile (some pending.staged.relativePath) with
      | .error error => some (c.move (.failingInstall (.store error)), sh)
      | .ok _ =>
          match sh.files pending.staged.relativePath with
          | none => some (c.move (.failingInstall (.io "NotFound".toList)), sh)
          | some bytes => some (c.move (.verifying pending bytes confirmed), sh)
  | .readingFile _ _, .ioFailed message => some (c.move (.failingInstall (.io message)), sh)
  | .verifying pending bytes confirmed, .done =>
      match verifyBytes pending.release bytes with
      | .error error => some (c.move (.failingInstall error), sh)
      | .ok _ =>
          -- the adapter is called
          some (c.move .installing,
            { sh with installations := sh.installations
                ++ [{ pending := pending, bytes := bytes, confirmed := confirmed,
                      discarded := sh.discarded }] })
  | .installing, .installed (.ok _) => some (c.move (.loadingStatus none), sh)
  | .installing, .installed (.error error) => some (c.move (.failingInstall (.adapter error)), sh)
  | .failingInstall error, .done =>
      some (c.refuse (.service error),
        { sh with lifecycle := sh.lifecycle.fail (publicServiceError error) })
  | _, _ => none

/-- The file that `clear_downloaded` removes, if there is one. -/
def clearedPath (taken : Option PendingUpdate) (loaded : UpdatePersistentState) : Option Text :=
  (taken.map fun pending => pending.staged.relativePath).or loaded.stagedFile

/-- The steps of `clear_downloaded`, of the manager and of the service. -/
def advanceClear (c : UpdateCall) (sh : Shared) (answer : Answer) : Option (UpdateCall × Shared) :=
  match c.phase, answer with
  | .takingPending, .done =>
      some (c.move (.loadingCleared sh.pending),
        { sh with pending := none,
                  taken := (sh.pending.map PendingUpdate.package).toList ++ sh.taken })
  | .loadingCleared taken, answer =>
      match sh.load answer with
      | none => none
      | some (.error error) => some (c.refuse (.service (.store error)), sh.discard taken)
      | some (.ok loaded) => some (c.move (.removingFile taken loaded), sh)
  | .removingFile taken loaded, .done =>
      match clearedPath taken loaded with
      | none => some (c.move (.savingCleared taken loaded), sh)
      | some path =>
          match validateStagedFile (some path) with
          | .error error => some (c.refuse (.service (.store error)), sh.discard taken)
          | .ok _ =>
              -- a file that is not there is no error
              some (c.move (.savingCleared taken loaded),
                { sh with files := Function.update sh.files path none })
  | .removingFile taken loaded, .ioFailed message =>
      match clearedPath taken loaded with
      | none => none
      | some _ => some (c.refuse (.service (.io message)), sh.discard taken)
  | .savingCleared taken loaded, answer =>
      match sh.save (.stagedFile none) loaded answer with
      | none => none
      | some (.error error) => some (c.refuse (.service (.store error)), sh.discard taken)
      | some (.ok sh') => some (c.move (.droppingStaged taken), sh')
  | .droppingStaged taken, .done => some (c.move (.clearingReason taken), { sh with staged := none })
  | .clearingReason taken, .done =>
      some (c.move (.resetting taken), { sh with fallbackReason := none })
  | .resetting taken, .done =>
      some (c.move (.loadingStatus taken),
        { sh with lifecycle := .default, resets := sh.resets + 1 })
  | _, _ => none

/-- The steps of `set_auto_check` and of `status`. -/
def advanceStatus (c : UpdateCall) (sh : Shared) (answer : Answer) : Option (UpdateCall × Shared) :=
  match c.phase, answer with
  | .loadingAutoCheck enabled, answer =>
      match sh.load answer with
      | none => none
      | some (.error error) => some (c.refuse (.store error), sh)
      | some (.ok loaded) => some (c.move (.savingAutoCheck enabled loaded), sh)
  | .savingAutoCheck enabled loaded, answer =>
      match sh.save (.autoCheck enabled) loaded answer with
      | none => none
      | some (.error error) => some (c.refuse (.store error), sh)
      | some (.ok sh') => some (c.move (.loadingStatus none), sh')
  | .loadingStatus cleared, answer =>
      match sh.load answer with
      | none => none
      | some (.error error) => some (c.refuse (.store error), sh.discard cleared)
      | some (.ok loaded) => some (c.move (.readingStatus cleared loaded), sh)
  | .readingStatus cleared loaded, .done =>
      some (c.move (.returned (.ok (sh.status loaded))), sh.discard cleared)
  | _, _ => none

/-- The next step of a call. -/
def advance (c : UpdateCall) (sh : Shared) (answer : Answer) : Option (UpdateCall × Shared) :=
  (((advanceCheck c sh answer).or (advanceDownload c sh answer)).or
    (advanceInstall c sh answer)).or ((advanceClear c sh answer).or (advanceStatus c sh answer))

def step (event : UpdateEvent) (s : UpdateState) : Option UpdateState :=
  match event with
  | .start id request =>
      match (s.call id).phase with
      | .unstarted =>
          some { s with call := Function.update s.call id (s.toShared.begin request.phase) }
      | _ => none
  | .step id answer =>
      (advance (s.call id) s.toShared answer).map fun next =>
        { toShared := next.2, call := Function.update s.call id next.1 }
  | .disk path contents => some { s with files := Function.update s.files path contents }

/-- A run of the manager. -/
def run : List UpdateEvent → UpdateState → Option UpdateState
  | [], s => some s
  | event :: rest, s => (step event s).bind (run rest)

/-- A manager that has just been made, over a state that is stored already. -/
def started (currentVersion : Text) (stored : UpdatePersistentState) (files : Text → Option Bytes) :
    UpdateState :=
  { currentVersion := currentVersion,
    lifecycle := .default,
    fallbackReason := none,
    staged := none,
    pending := none,
    stored := stored,
    files := files,
    resets := 0,
    packages := 0,
    taken := [],
    discarded := [],
    saves := [],
    installations := [],
    call := fun _ => { phase := .unstarted, began := 0, takenBefore := 0 } }

/-! ## §4. Runs. -/

theorem run_append (first second : List UpdateEvent) (s : UpdateState) :
    run (first ++ second) s = (run first s).bind (run second) := by
  induction first generalizing s with
  | nil => rfl
  | cons event first ih =>
      show (step event s).bind (run (first ++ second)) = ((step event s).bind (run first)).bind _
      cases step event s with
      | none => rfl
      | some next => exact ih next

/-- The last step of a run. -/
theorem run_snoc {events : List UpdateEvent} {event : UpdateEvent} {s s' : UpdateState} :
    run (events ++ [event]) s = some s'
      ↔ ∃ before, run events s = some before ∧ step event before = some s' := by
  rw [run_append, Option.bind_eq_some_iff]
  simp [run]

theorem step_start {id : Nat} {request : Request} {s s' : UpdateState}
    (h : step (.start id request) s = some s') :
    (s.call id).phase = .unstarted ∧ s'.toShared = s.toShared
      ∧ s'.call = Function.update s.call id (s.toShared.begin request.phase) := by
  dsimp only [step] at h
  split at h
  next hphase =>
    obtain rfl := Option.some.inj h
    exact ⟨hphase, rfl, rfl⟩
  next => cases h

/-- The steps of a call are those of the operation that it is in. -/
theorem advance_cases {c c' : UpdateCall} {sh sh' : Shared} {answer : Answer}
    (h : advance c sh answer = some (c', sh')) :
    advanceCheck c sh answer = some (c', sh') ∨ advanceDownload c sh answer = some (c', sh')
      ∨ advanceInstall c sh answer = some (c', sh') ∨ advanceClear c sh answer = some (c', sh')
      ∨ advanceStatus c sh answer = some (c', sh') := by
  unfold advance at h
  simp only [Option.or_eq_some_iff] at h
  tauto

/-! ## §5. What is saved. -/

/-- What a call is about to save, and what it has loaded. -/
def Phase.saving : Phase → Option (FieldWrite × UpdatePersistentState)
  | .savingResult now result _ loaded => some (.lastCheck now result, loaded)
  | .savingStaged _ staged loaded => some (.stagedFile (some staged.relativePath), loaded)
  | .savingCleared _ loaded => some (.stagedFile none, loaded)
  | .savingAutoCheck enabled loaded => some (.autoCheck enabled, loaded)
  | _ => none

omit [Sha256Crate] in
theorem Shared.save_eq_ok {sh sh' : Shared} {write : FieldWrite} {loaded : UpdatePersistentState}
    {answer : Answer} (h : sh.save write loaded answer = some (.ok sh')) :
    sh' = { sh with stored := write.apply loaded, saves := sh.saves ++ [write] } := by
  unfold Shared.save at h
  cases answer with
  | done =>
      cases hsave : Core.Updates.save (write.apply loaded) with
      | error error => simp [hsave] at h
      | ok stored =>
          simp only [hsave, Option.some.injEq, Except.ok.injEq] at h
          rw [← h, Core.Updates.save_eq_ok hsave]
  | storeFailed error => simp at h
  | ioFailed message => simp at h
  | checked result => simp at h
  | downloaded result => simp at h
  | installed result => simp at h

/-- The stored state stays as it is, or the call makes the save that it is about to make. -/
inductive Stores (c : UpdateCall) (sh : Shared) (answer : Answer) : Shared → Prop where
  | same {sh' : Shared} (stored : sh'.stored = sh.stored) (saves : sh'.saves = sh.saves) :
      Stores c sh answer sh'
  | saved {sh' : Shared} {write : FieldWrite} {loaded : UpdatePersistentState}
      (saving : c.phase.saving = some (write, loaded))
      (save : sh.save write loaded answer = some (.ok sh')) : Stores c sh answer sh'

/-- **Only a save changes the stored state.** -/
theorem advance_stores {c c' : UpdateCall} {sh sh' : Shared} {answer : Answer}
    (h : advance c sh answer = some (c', sh')) : Stores c sh answer sh' := by
  rcases advance_cases h with h | h | h | h | h
  · unfold advanceCheck at h
    repeat' split at h
    all_goals first
      | contradiction
      | (obtain ⟨-, rfl⟩ := Prod.mk.inj (Option.some.inj h)
         exact .same rfl rfl)
      | (obtain ⟨-, rfl⟩ := Prod.mk.inj (Option.some.inj h)
         exact .saved (by rw [‹c.phase = _›]; rfl) ‹sh.save _ _ _ = _›)
  · unfold advanceDownload at h
    repeat' split at h
    all_goals first
      | contradiction
      | (obtain ⟨-, rfl⟩ := Prod.mk.inj (Option.some.inj h)
         exact .same rfl rfl)
      | (obtain ⟨-, rfl⟩ := Prod.mk.inj (Option.some.inj h)
         exact .saved (by rw [‹c.phase = _›]; rfl) ‹sh.save _ _ _ = _›)
  · unfold advanceInstall at h
    repeat' split at h
    all_goals first
      | contradiction
      | (obtain ⟨-, rfl⟩ := Prod.mk.inj (Option.some.inj h)
         exact .same rfl rfl)
  · unfold advanceClear at h
    repeat' split at h
    all_goals first
      | contradiction
      | (obtain ⟨-, rfl⟩ := Prod.mk.inj (Option.some.inj h)
         exact .same rfl rfl)
      | (obtain ⟨-, rfl⟩ := Prod.mk.inj (Option.some.inj h)
         exact .saved (by rw [‹c.phase = _›]; rfl) ‹sh.save _ _ _ = _›)
  · unfold advanceStatus at h
    repeat' split at h
    all_goals first
      | contradiction
      | (obtain ⟨-, rfl⟩ := Prod.mk.inj (Option.some.inj h)
         exact .same rfl rfl)
      | (obtain ⟨-, rfl⟩ := Prod.mk.inj (Option.some.inj h)
         exact .saved (by rw [‹c.phase = _›]; rfl) ‹sh.save _ _ _ = _›)

/-! ## §6. What a run on fixed inputs needs. -/

/-- The components of a path on a Unix host. -/
@[reducible] def unixPath : PathCrate where
  components path :=
    (if path.head? = some '/' then [.other] else [])
      ++ ((path.splitOn '/').filter fun name => !name.isEmpty && name != ['.']).map fun name =>
        if name = ['.', '.'] then .other else .normal name

/-- The digest, on the texts of one byte that are used below. -/
@[reducible] def sampleSha256 : Sha256Crate where
  digest bytes :=
    if bytes = [1] then
      "4bf5122f344554c53bde2ebb8cd2b7e3d1600ad631c385a5d7cce23c7785459a".toList
    else if bytes = [2] then
      "dbc1b4c900ffe48d575b5da5c638040125f65db0fe3e24494b76ea986457d986".toList
    else []

def done (id : Nat) : UpdateEvent := .step id .done

/-- The call has returned, and not with an error. -/
def Phase.succeeded : Phase → Bool
  | .returned (.ok _) => true
  | _ => false

end QingzhouSSH.Services.UpdateManager
