/-
  QingzhouSSH.Core.DataMigration.Copy — copying a data directory.

  The directories and files of a manifest are copied into a target in their order, and the
  target is scanned before and after.  A copy may fail at every operation, and may stop at
  any time; a later one finds the target as it was left.

  Main results:
    * `Improves.look` — what a copy leaves at a path is what was there or what the source has;
    * `Started.of_improves` — a copy can be started again wherever it has stopped;
    * `copyAndVerify_improves`, `copyAndVerify_ok` — copies that may fail.
-/
import QingzhouSSH.Core.DataMigration.Manifest
import QingzhouSSH.Lib.World

namespace QingzhouSSH.Core.DataMigration

open QingzhouSSH.Lib.FileTree
open QingzhouSSH.Lib.Process

/-! ## §1. The journal. -/

inductive DataMigrationPhase where
  | prepared
  | copying
  | verifying
  | switched
  | completed
  | failed
  deriving DecidableEq

inductive DataRootSource where
  | environment
  | portableCustom
  | portableDefault
  | platform
  | registry
  | needsSelection
  deriving DecidableEq

/-- The paths of a journal are read from JSON, so they are texts. -/
structure DataMigrationJournal where
  schemaVersion : Nat
  migrationId : Text
  source : Text
  target : Text
  sourceMode : DataRootSource
  parentPid : Nat
  fileCount : Nat
  totalBytes : Nat
  copiedFiles : Nat
  copiedBytes : Nat
  phase : DataMigrationPhase
  errorSummary : Option Text
  startedAt : Int
  updatedAt : Int
  acknowledged : Bool
  deriving DecidableEq

/-- `u64::saturating_add`. -/
def saturatingAdd (a b : Nat) : Nat := min (a + b) (2 ^ 64 - 1)

namespace DataMigrationJournal

def transition (journal : DataMigrationJournal) (phase : DataMigrationPhase) (now : Int) :
    DataMigrationJournal :=
  { journal with
    phase := phase
    updatedAt := now
    errorSummary := if phase = .failed then journal.errorSummary else none }

/-- The summary keeps 512 characters. -/
def fail (journal : DataMigrationJournal) (error : AppError) (now : Int) : DataMigrationJournal :=
  { journal with
    phase := .failed
    updatedAt := now
    errorSummary := some (error.message.take 512) }

def validate (isAbsolute : Text → Bool) (journal : DataMigrationJournal) : AppResult Unit :=
  if journal.schemaVersion ≠ 1 then
    .error (.validation "数据迁移事务版本不受支持".toList)
  else if !isAbsolute journal.source || !isAbsolute journal.target
      || journal.source = journal.target then
    .error (.security "数据迁移事务路径无效".toList)
  else .ok ()

/-- The counters behind a file. -/
def copied (journal : DataMigrationJournal) (sizeBytes : Nat) (now : Int) :
    DataMigrationJournal :=
  { journal with
    copiedFiles := saturatingAdd journal.copiedFiles 1
    copiedBytes := saturatingAdd journal.copiedBytes sizeBytes
    updatedAt := now }

end DataMigrationJournal

/-! ## §2. The copy. -/

variable {ν : Type}

/-- What a copy asks of the clock, the disk and its caller. -/
inductive CopyQuestion (ν : Type) where
  | now
  | scanTarget
  | saveSource (payload : Bytes)
  | targetExists
  | saveTarget (payload : Bytes)
  | createDirAll (path : List ν)
  | fileExists (path : List ν)
  | hashFile (path : List ν)
  | copyFileAtomic (path : List ν)
  | beforeVerify

abbrev CopyAnswer : CopyQuestion ν → Type
  | .now => Int
  | .scanTarget => AppResult (DataMigrationManifest ν)
  | .saveSource _ | .saveTarget _ | .createDirAll _ | .copyFileAtomic _ | .beforeVerify =>
      AppResult Unit
  | .targetExists | .fileExists _ => Bool
  | .hashFile _ => AppResult (Nat × Text)

abbrev CopyProcess (ν α : Type) :=
  ExceptT AppError (Lib.Process DataMigrationJournal (@CopyAnswer ν)) α

def ask (question : CopyQuestion ν) : CopyProcess ν (CopyAnswer question) :=
  ExceptT.lift (query question)

/-- An operation that fails ends the copy. -/
def attempt {α : Type} (question : CopyQuestion ν) (result : CopyAnswer question → AppResult α) :
    CopyProcess ν α := do
  let answer ← ask question
  ExceptT.mk (pure (result answer))

def require {α : Type} (result : AppResult α) : CopyProcess ν α := ExceptT.mk (pure result)

def getJournal : CopyProcess ν DataMigrationJournal := ExceptT.lift (read id)

def setJournal (f : DataMigrationJournal → DataMigrationJournal) : CopyProcess ν Unit :=
  ExceptT.lift (atomic fun journal => ((), f journal))

/-- `Path::is_absolute`, and `serde_json::to_vec_pretty` of a journal. -/
structure JournalFormat where
  isAbsolute : Text → Bool
  toVecPretty : DataMigrationJournal → Bytes

structure CopyAndVerifyRequest (ν : Type) where
  source : List ν
  target : List ν
  manifest : DataMigrationManifest ν
  retryable : Bool
  store : JournalFormat
  environment : MigrationEnvironment ν

structure VerifiedMigration (ν : Type) where
  migrationId : Text
  source : List ν
  target : List ν
  fileCount : Nat
  totalBytes : Nat

/-- `MigrationJournalStore::save`: into the source, and into the target if it is there. -/
def save (store : JournalFormat) : CopyProcess ν Unit := do
  let journal ← getJournal
  require (journal.validate store.isAbsolute)
  attempt (.saveSource (store.toVecPretty journal)) id
  let targetExists ← ask .targetExists
  if targetExists then attempt (.saveTarget (store.toVecPretty journal)) id

def transition (store : JournalFormat) (phase : DataMigrationPhase) : CopyProcess ν Unit := do
  let now ← ask .now
  setJournal fun journal => journal.transition phase now
  save store

section Checks

variable [OsName ν]

/-- The loop of `validate_existing_target`. -/
def checkExisting (manifest : DataMigrationManifest ν) :
    List (DataMigrationManifestEntry ν) → AppResult Unit
  | [] => .ok ()
  | entry :: rest =>
      match manifest.entries.find? fun candidate =>
          candidate.relativePath = entry.relativePath with
      | none => .error (.security "失败目标包含迁移清单以外的文件".toList)
      | some expected =>
          if expected.kind ≠ entry.kind then
            .error (.security "失败目标中的文件类型发生变化".toList)
          else checkExisting manifest rest

def validateExistingTarget (manifest : DataMigrationManifest ν) (retryable : Bool)
    (existing : DataMigrationManifest ν) : AppResult Unit :=
  if existing.entries.isEmpty then .ok ()
  else if !retryable then
    .error (.validation "目标目录在确认后出现了文件，请重新选择空目录".toList)
  else checkExisting manifest existing.entries

end Checks

def shouldCopyFile (entry : DataMigrationManifestEntry ν) (retryable : Bool) :
    CopyProcess ν Bool := do
  let found ← ask (.fileExists entry.relativePath)
  if !found then return true
  if !retryable then throw (.validation "目标文件已存在".toList)
  let hashed ← attempt (.hashFile entry.relativePath) id
  return hashed.1 ≠ entry.sizeBytes ∨ some hashed.2 ≠ entry.sha256

def copyFile (entry : DataMigrationManifestEntry ν) (retryable : Bool) : CopyProcess ν Unit := do
  let copies ← shouldCopyFile entry retryable
  if copies then
    -- every path below a root has a parent
    attempt (.createDirAll entry.relativePath.dropLast) id
    attempt (.copyFileAtomic entry.relativePath) id

def copyEntry (store : JournalFormat) (retryable : Bool) (entry : DataMigrationManifestEntry ν) :
    CopyProcess ν Unit :=
  match entry.kind with
  | .directory => attempt (.createDirAll entry.relativePath) id
  | .file => do
      copyFile entry retryable
      let now ← ask .now
      setJournal fun journal => journal.copied entry.sizeBytes now
      save store

def copyEntries (store : JournalFormat) (retryable : Bool) :
    List (DataMigrationManifestEntry ν) → CopyProcess ν Unit
  | [] => return
  | entry :: rest => do
      copyEntry store retryable entry
      copyEntries store retryable rest

section Copy

variable [OsName ν]

def verifyManifest (expected : DataMigrationManifest ν) : CopyProcess ν Unit := do
  let actual ← attempt .scanTarget id
  if actual ≠ expected then
    throw (.integrity "目标目录的文件路径、大小或 SHA-256 与源清单不一致".toList)

def copyAndVerifyInner (request : CopyAndVerifyRequest ν) :
    CopyProcess ν (VerifiedMigration ν) := do
  let existing ← attempt .scanTarget id
  require (validateExistingTarget request.manifest request.retryable existing)
  transition request.store .copying
  copyEntries request.store request.retryable request.manifest.entries
  transition request.store .verifying
  attempt .beforeVerify id
  verifyManifest request.manifest
  let journal ← getJournal
  return {
    migrationId := journal.migrationId
    source := request.source
    target := request.target
    fileCount := request.manifest.fileCount
    totalBytes := request.manifest.totalBytes }

/-- The journal of a failed copy is saved if it can be. -/
def recordFailure (store : JournalFormat) (error : AppError) :
    Lib.Process DataMigrationJournal (@CopyAnswer ν) Unit := do
  let now ← query .now
  atomic fun journal => ((), journal.fail error now)
  let _ ← (save store).run

def copyAndVerify (request : CopyAndVerifyRequest ν) :
    Lib.Process DataMigrationJournal (@CopyAnswer ν) (AppResult (VerifiedMigration ν)) := do
  let result ← (copyAndVerifyInner request).run
  match result with
  | .ok verified => return .ok verified
  | .error error => do
      recordFailure request.store error
      return .error error

end Copy

/-! ## §3. The disk. -/

/-- The two data directories, and the files that have been copied. -/
structure Disk (ν : Type) where
  source : Node ν Bytes
  target : Node ν Bytes
  written : List (List ν)

section Disk

variable [OsName ν] (sha256 : Bytes → Text)

/-- Where a journal lies in a root. -/
def journalPath : List ν := [OsName.ofText migrationJournalFile]

/-- A file is written whole or not at all, whatever is answered. -/
def FileWritten (path : List ν) (content : Bytes) (tree : Node ν Bytes) (answer : AppResult Unit)
    (tree' : Node ν Bytes) : Prop :=
  match answer with
  | .ok () => tree.writeFile path content = some tree'
  | .error _ => tree' = tree ∨ tree.writeFile path content = some tree'

/-- Directories are created one after the other. -/
def DirectoriesCreated (path : List ν) (tree : Node ν Bytes) (answer : AppResult Unit)
    (tree' : Node ν Bytes) : Prop :=
  match answer with
  | .ok () => tree.createDirAll path = some tree'
  | .error _ => tree' = tree ∨ ∃ above, above <+: path ∧ tree.createDirAll above = some tree'

/-- `copy_file_atomic`. -/
def FileCopied (path : List ν) (w : Disk ν) (answer : AppResult Unit) (w' : Disk ν) : Prop :=
  (w' = w ∧ answer ≠ .ok ())
    ∨ ∃ content target, w.source.look path = some (.file content)
      ∧ w.target.writeFile path content = some target
      ∧ w' = { w with target := target, written := path :: w.written }

/-- What a disk may answer: every operation may fail. -/
def Responds (request : CopyAndVerifyRequest ν)
    (beforeVerify : Node ν Bytes → AppResult Unit → Node ν Bytes → Prop) :
    (question : CopyQuestion ν) → Disk ν → CopyAnswer question → Disk ν → Prop
  | .now, w, _, w' => w' = w
  | .scanTarget, w, answer, w' =>
      w' = w ∧ ∀ manifest, answer = .ok manifest →
        scanManifest sha256 request.environment request.target w.target = .ok manifest
  | .saveSource payload, w, answer, w' =>
      w' = { w with source := w'.source }
        ∧ FileWritten journalPath payload w.source answer w'.source
  | .targetExists, w, _, w' => w' = w
  | .saveTarget payload, w, answer, w' =>
      w' = { w with target := w'.target }
        ∧ FileWritten journalPath payload w.target answer w'.target
  | .createDirAll path, w, answer, w' =>
      w' = { w with target := w'.target } ∧ DirectoriesCreated path w.target answer w'.target
  | .fileExists path, w, answer, w' => w' = w ∧ (answer = true → w.target.look path ≠ none)
  | .hashFile path, w, answer, w' =>
      w' = w ∧ ∀ hashed, answer = .ok hashed →
        ∃ content, w.target.look path = some (.file content) ∧ hashed = hashFile sha256 content
  | .copyFileAtomic path, w, answer, w' => FileCopied path w answer w'
  | .beforeVerify, w, answer, w' =>
      w' = { w with target := w'.target } ∧ beforeVerify w.target answer w'.target

/-- What the system reports of an operation that the tree does not allow. -/
def notPossible : AppError := .io "Invalid argument (os error 22)".toList

def perform (effect : Option (Node ν Bytes)) (tree : Node ν Bytes) :
    AppResult Unit × Node ν Bytes :=
  match effect with
  | some tree' => (.ok (), tree')
  | none => (.error notPossible, tree)

/-- A disk that does whatever its trees allow, and a caller that does nothing. -/
def work (request : CopyAndVerifyRequest ν) (time : Int) :
    (question : CopyQuestion ν) → Disk ν → CopyAnswer question × Disk ν
  | .now, w => (time, w)
  | .scanTarget, w =>
      (scanManifest sha256 request.environment request.target w.target, w)
  | .saveSource payload, w =>
      let (answer, source) := perform (w.source.writeFile journalPath payload) w.source
      (answer, { w with source := source })
  | .targetExists, w => (true, w)
  | .saveTarget payload, w =>
      let (answer, target) := perform (w.target.writeFile journalPath payload) w.target
      (answer, { w with target := target })
  | .createDirAll path, w =>
      let (answer, target) := perform (w.target.createDirAll path) w.target
      (answer, { w with target := target })
  | .fileExists path, w => ((w.target.look path).isSome, w)
  | .hashFile path, w =>
      match w.target.look path with
      | some (.file content) => ((.ok (hashFile sha256 content) : AppResult _), w)
      | _ => ((.error notPossible : AppResult _), w)
  | .copyFileAtomic path, w =>
      match w.source.look path with
      | some (.file content) =>
          match w.target.writeFile path content with
          | some target =>
              ((.ok () : AppResult _), { w with target := target, written := path :: w.written })
          | none => ((.error notPossible : AppResult _), w)
      | _ => ((.error notPossible : AppResult _), w)
  | .beforeVerify, w => ((.ok () : AppResult _), w)

/-- Such a disk, with a clock that shows any time. -/
def Works (request : CopyAndVerifyRequest ν) (question : CopyQuestion ν) (w : Disk ν)
    (answer : CopyAnswer question) (w' : Disk ν) : Prop :=
  ∃ time, work sha256 request time question w = (answer, w')

end Disk

section Working

variable [OsName ν] {sha256 : Bytes → Text} {request : CopyAndVerifyRequest ν}

theorem perform_written (path : List ν) (content : Bytes) (tree : Node ν Bytes) :
    FileWritten path content tree (perform (tree.writeFile path content) tree).1
      (perform (tree.writeFile path content) tree).2 := by
  cases hwrite : tree.writeFile path content with
  | none => exact Or.inl rfl
  | some tree' => exact hwrite

/-- **A working disk is one of those that answer.** -/
theorem work_responds (time : Int) (question : CopyQuestion ν) (w : Disk ν) :
    Responds sha256 request (fun tree _ tree' => tree' = tree) question w
      (work sha256 request time question w).1 (work sha256 request time question w).2 := by
  cases question with
  | now | targetExists => exact rfl
  | scanTarget => exact ⟨rfl, fun manifest h => h⟩
  | saveSource payload => exact ⟨rfl, perform_written _ _ _⟩
  | saveTarget payload => exact ⟨rfl, perform_written _ _ _⟩
  | createDirAll path =>
      refine ⟨rfl, ?_⟩
      show DirectoriesCreated path w.target (perform _ _).1 (perform _ _).2
      cases hcreate : w.target.createDirAll path with
      | none => exact Or.inl rfl
      | some tree' => exact hcreate
  | fileExists path =>
      refine ⟨rfl, fun hfound => ?_⟩
      rw [← Option.isSome_iff_ne_none]
      exact hfound
  | hashFile path =>
      unfold work Responds
      dsimp only
      split
      next content hlook =>
        exact ⟨rfl, fun hashed h => ⟨content, hlook, (Except.ok.inj h).symm⟩⟩
      next => exact ⟨rfl, fun hashed h => by cases h⟩
  | copyFileAtomic path =>
      unfold work Responds FileCopied
      dsimp only
      split
      next content hlook =>
        split
        next target hwrite => exact Or.inr ⟨content, target, hlook, hwrite, rfl⟩
        next => exact Or.inl ⟨rfl, by simp⟩
      next => exact Or.inl ⟨rfl, by simp⟩
  | beforeVerify => exact ⟨rfl, rfl⟩

end Working

/-! ## §4. What a copy changes. -/

section Improves

variable [OsName ν] {sha256 : Bytes → Text}

/-- Both trees keep their entries apart from the journals, but the target has more of the
source. -/
structure Improves (w₀ w : Disk ν) : Prop where
  sourceNamed : w.source.Named
  targetNamed : w.target.Named
  source : ∀ path, path ≠ journalPath → w.source.look path = w₀.source.look path
  target : ∀ path, path ≠ journalPath → w.target.look path = w₀.target.look path
    ∨ ∃ leaf, w₀.source.look path = some leaf ∧ w.target.look path = some leaf
  sourceJournal : w.source.look journalPath ≠ some .dir
  targetJournal : w.target.look journalPath ≠ some .dir

theorem isMigrationFile_journal : isMigrationFile (OsName.ofText migrationJournalFile : ν) :=
  Or.inl (OsName.toStringLossy_ofText _)

theorem Migrated.not_journal {path : List ν} (h : Migrated path) : ¬ journalPath <+: path := by
  rintro ⟨rest, rfl⟩
  obtain ⟨name, hname, hfile⟩ := h
  obtain rfl : OsName.ofText migrationJournalFile = name := Option.some.inj hname
  exact hfile isMigrationFile_journal

theorem Migrated.ne_journal {path : List ν} (h : Migrated path) : path ≠ journalPath := by
  rintro rfl
  exact h.not_journal (List.prefix_refl _)

namespace Improves

variable {w₀ w : Disk ν}

theorem savedSource (h : Improves w₀ w) {payload : Bytes} {source : Node ν Bytes}
    (hwrite : w.source.writeFile journalPath payload = some source) :
    Improves w₀ { w with source := source } where
  sourceNamed := h.sourceNamed.writeFile hwrite
  targetNamed := h.targetNamed
  source path hpath := by
    show source.look path = _
    rw [Node.look_writeFile hwrite, if_neg hpath]
    exact h.source path hpath
  target := h.target
  sourceJournal := by
    show source.look journalPath ≠ _
    rw [Node.look_writeFile hwrite, if_pos rfl]
    exact nofun
  targetJournal := h.targetJournal

theorem savedTarget (h : Improves w₀ w) {payload : Bytes} {target : Node ν Bytes}
    (hwrite : w.target.writeFile journalPath payload = some target) :
    Improves w₀ { w with target := target } where
  sourceNamed := h.sourceNamed
  targetNamed := h.targetNamed.writeFile hwrite
  source := h.source
  target path hpath := by
    show target.look path = _ ∨ ∃ leaf, _ ∧ target.look path = _
    rw [Node.look_writeFile hwrite, if_neg hpath]
    exact h.target path hpath
  sourceJournal := h.sourceJournal
  targetJournal := by
    show target.look journalPath ≠ _
    rw [Node.look_writeFile hwrite, if_pos rfl]
    exact nofun

/-- Directories of the source. -/
theorem created (h : Improves w₀ w) {path : List ν} {target : Node ν Bytes}
    (hdir : w₀.source.look path = some .dir) (hplain : ¬ journalPath <+: path)
    (hcreate : w.target.createDirAll path = some target) :
    Improves w₀ { w with target := target } where
  sourceNamed := h.sourceNamed
  targetNamed := h.targetNamed.createDirAll hcreate
  source := h.source
  target other hother := by
    show target.look other = _ ∨ ∃ leaf, _ ∧ target.look other = _
    rw [Node.look_createDirAll hcreate]
    by_cases hbegins : other <+: path
    · rw [if_pos hbegins]
      refine Or.inr ⟨.dir, ?_, rfl⟩
      by_cases hsame : other = path
      · rw [hsame, hdir]
      · exact Node.look_above hdir hbegins hsame
    · rw [if_neg hbegins]
      exact h.target other hother
  sourceJournal := h.sourceJournal
  targetJournal := by
    show target.look journalPath ≠ _
    rw [Node.look_createDirAll hcreate, if_neg hplain]
    exact h.targetJournal

/-- A file of the source. -/
theorem copied (h : Improves w₀ w) {path : List ν} {content : Bytes} {target : Node ν Bytes}
    (hpath : path ≠ journalPath) (hlook : w.source.look path = some (.file content))
    (hwrite : w.target.writeFile path content = some target) (written : List (List ν)) :
    Improves w₀ { w with target := target, written := written } where
  sourceNamed := h.sourceNamed
  targetNamed := h.targetNamed.writeFile hwrite
  source := h.source
  target other hother := by
    show target.look other = _ ∨ ∃ leaf, _ ∧ target.look other = _
    rw [Node.look_writeFile hwrite]
    by_cases hsame : other = path
    · rw [if_pos hsame]
      refine Or.inr ⟨.file content, ?_, rfl⟩
      rw [hsame, ← h.source path hpath, hlook]
    · rw [if_neg hsame]
      exact h.target other hother
  sourceJournal := h.sourceJournal
  targetJournal := by
    show target.look journalPath ≠ _
    rw [Node.look_writeFile hwrite, if_neg (Ne.symm hpath)]
    exact h.targetJournal

/-- **What a copy leaves at a path is what was there or what the source has.** -/
theorem look (h : Improves w₀ w) {path : List ν} {leaf : Leaf Bytes} (hpath : path ≠ journalPath)
    (hlook : w.target.look path = some leaf) :
    w₀.target.look path = some leaf ∨ w₀.source.look path = some leaf := by
  rcases h.target path hpath with hsame | ⟨leaf', hsource, hleaf⟩
  · exact Or.inl (hsame ▸ hlook)
  · rw [hlook] at hleaf
    exact Or.inr (Option.some.inj hleaf ▸ hsource)

end Improves

/-! ## §5. What a copy may find. -/

def kindOf : Leaf Bytes → ManifestEntryKind
  | .file _ => .file
  | .dir => .directory

/-- A disk on which a copy has been started: the target has nothing that the source has not. -/
structure Started (w : Disk ν) : Prop where
  sourceNamed : w.source.Named
  targetNamed : w.target.Named
  sourceRoot : w.source.look [] = some .dir
  targetRoot : w.target.look [] = some .dir
  sourceAllowed : ∀ name leaf, w.source.look [name] = some leaf →
    OsName.toStringLossy name ∈ allowedRootEntries
  targetAllowed : ∀ name leaf, w.target.look [name] = some leaf →
    OsName.toStringLossy name ∈ allowedRootEntries
  within : ∀ path leaf, Migrated path → w.target.look path = some leaf →
    ∃ leaf', w.source.look path = some leaf' ∧ kindOf leaf' = kindOf leaf
  sourceJournal : w.source.look journalPath ≠ some .dir
  targetJournal : w.target.look journalPath ≠ some .dir

theorem Started.improves {w : Disk ν} (h : Started w) : Improves w w where
  sourceNamed := h.sourceNamed
  targetNamed := h.targetNamed
  source _ _ := rfl
  target _ _ := Or.inl rfl
  sourceJournal := h.sourceJournal
  targetJournal := h.targetJournal

theorem allowed_journal :
    OsName.toStringLossy (OsName.ofText migrationJournalFile : ν) ∈ allowedRootEntries := by
  rw [OsName.toStringLossy_ofText]
  simp [allowedRootEntries]

theorem journalPath_ne_nil : (journalPath : List ν) ≠ [] := nofun

/-- **A copy can be started again wherever it has stopped.** -/
theorem Started.of_improves {w₀ w : Disk ν} (h : Started w₀) (himproves : Improves w₀ w) :
    Started w where
  sourceNamed := himproves.sourceNamed
  targetNamed := himproves.targetNamed
  sourceRoot := (himproves.source [] journalPath_ne_nil.symm).trans h.sourceRoot
  targetRoot := by
    rcases himproves.target [] journalPath_ne_nil.symm with hsame | ⟨leaf, hsource, hleaf⟩
    · exact hsame.trans h.targetRoot
    · rw [hleaf, ← hsource, h.sourceRoot]
  sourceAllowed name leaf hlook := by
    by_cases hname : [name] = journalPath
    · obtain rfl := List.singleton_inj.mp hname
      exact allowed_journal
    · exact h.sourceAllowed name leaf (himproves.source _ hname ▸ hlook)
  targetAllowed name leaf hlook := by
    by_cases hname : [name] = journalPath
    · obtain rfl := List.singleton_inj.mp hname
      exact allowed_journal
    · rcases himproves.look hname hlook with hold | hsource
      · exact h.targetAllowed name leaf hold
      · exact h.sourceAllowed name leaf hsource
  within path leaf hmigrated hlook := by
    rw [himproves.source path hmigrated.ne_journal]
    rcases himproves.look hmigrated.ne_journal hlook with hold | hsource
    · exact h.within path leaf hmigrated hold
    · exact ⟨leaf, hsource, rfl⟩
  sourceJournal := himproves.sourceJournal
  targetJournal := himproves.targetJournal

omit [OsName ν] in
theorem entryOf_kind (path : List ν) (leaf : Leaf Bytes) :
    (entryOf sha256 path leaf).kind = kindOf leaf := by
  cases leaf with
  | file content => rfl
  | dir => rfl

section Validation

variable {environment environment' : MigrationEnvironment ν} {root root' : List ν}
  {manifest existing : DataMigrationManifest ν} {w : Disk ν}

/-- An entry of the manifest, found by its path. -/
theorem find_entry (hsource : scanManifest sha256 environment root w.source = .ok manifest)
    (hnamed : w.source.Named) {path : List ν} {expected : DataMigrationManifestEntry ν}
    (h : manifest.entries.find? (fun candidate => candidate.relativePath = path) = some expected) :
    ∃ leaf, w.source.look path = some leaf ∧ expected = entryOf sha256 path leaf := by
  obtain ⟨path', leaf, _, hlook, rfl⟩ :=
    (mem_scanManifest hsource hnamed expected).mp (List.mem_of_find?_eq_some h)
  have hpath : path' = path := by
    have hfound := List.find?_some h
    rw [entryOf_path, decide_eq_true_eq] at hfound
    exact hfound
  subst hpath
  exact ⟨leaf, hlook, rfl⟩

theorem checkExisting_iff (hsource : scanManifest sha256 environment root w.source = .ok manifest)
    (hnamed : w.source.Named) {entries : List (DataMigrationManifestEntry ν)}
    (hentries : ∀ entry ∈ entries, Migrated entry.relativePath) :
    checkExisting manifest entries = .ok () ↔ ∀ entry ∈ entries,
      ∃ leaf, w.source.look entry.relativePath = some leaf ∧ kindOf leaf = entry.kind := by
  induction entries with
  | nil => exact ⟨fun _ entry hentry => absurd hentry List.not_mem_nil, fun _ => rfl⟩
  | cons entry rest ih =>
      obtain ⟨hentry, hrest⟩ := List.forall_mem_cons.mp hentries
      unfold checkExisting
      rw [List.forall_mem_cons]
      cases hfind : manifest.entries.find? fun candidate =>
          candidate.relativePath = entry.relativePath with
      | none =>
          constructor
          · intro h
            cases h
          · rintro ⟨⟨leaf, hlook, _⟩, _⟩
            have hmem := (mem_scanManifest hsource hnamed _).mpr ⟨_, leaf, hentry, hlook, rfl⟩
            exact absurd (decide_eq_true (entryOf_path _ _))
              (List.find?_eq_none.mp hfind _ hmem)
      | some expected =>
          obtain ⟨leaf, hlook, rfl⟩ := find_entry hsource hnamed hfind
          dsimp only
          rw [entryOf_kind]
          by_cases hkind : kindOf leaf = entry.kind
          · rw [if_neg (not_not.mpr hkind), ih hrest]
            exact ⟨fun hall => ⟨⟨leaf, hlook, hkind⟩, hall⟩, fun hall => hall.2⟩
          · rw [if_pos hkind]
            constructor
            · intro h
              cases h
            · rintro ⟨⟨leaf', hlook', hkind'⟩, _⟩
              rw [hlook] at hlook'
              obtain rfl := Option.some.inj hlook'
              exact absurd hkind' hkind

theorem migrated_entry (htarget : scanManifest sha256 environment' root' w.target = .ok existing)
    (hnamed : w.target.Named) : ∀ entry ∈ existing.entries, Migrated entry.relativePath := by
  intro entry hentry
  obtain ⟨path, leaf, hmigrated, _, rfl⟩ := (mem_scanManifest htarget hnamed entry).mp hentry
  rw [entryOf_path]
  exact hmigrated

/-- **What a target has that is accepted.** -/
theorem validateExistingTarget_within
    (hsource : scanManifest sha256 environment root w.source = .ok manifest)
    (htarget : scanManifest sha256 environment' root' w.target = .ok existing)
    (hsourceNamed : w.source.Named) (htargetNamed : w.target.Named) {retryable : Bool}
    (h : validateExistingTarget manifest retryable existing = .ok ()) (path : List ν)
    (leaf : Leaf Bytes) (hmigrated : Migrated path) (hlook : w.target.look path = some leaf) :
    ∃ leaf', w.source.look path = some leaf' ∧ kindOf leaf' = kindOf leaf := by
  have hmem := (mem_scanManifest htarget htargetNamed _).mpr ⟨path, leaf, hmigrated, hlook, rfl⟩
  unfold validateExistingTarget at h
  cases hentries : existing.entries with
  | nil =>
      rw [hentries] at hmem
      exact absurd hmem List.not_mem_nil
  | cons first rest =>
      rw [hentries, if_neg (by simp)] at h
      cases retryable with
      | false => exact absurd h (by simp)
      | true =>
          rw [if_neg (by simp), ← hentries] at h
          obtain ⟨leaf', hlook', hkind⟩ := (checkExisting_iff hsource hsourceNamed
            (migrated_entry htarget htargetNamed)).mp h _ hmem
          rw [entryOf_path] at hlook'
          rw [entryOf_kind] at hkind
          exact ⟨leaf', hlook', hkind⟩

/-- **A target is accepted again.** -/
theorem Started.validate (h : Started w)
    (hsource : scanManifest sha256 environment root w.source = .ok manifest)
    (htarget : scanManifest sha256 environment' root' w.target = .ok existing) :
    validateExistingTarget manifest true existing = .ok () := by
  unfold validateExistingTarget
  by_cases hempty : existing.entries.isEmpty = true
  · rw [if_pos hempty]
  · rw [if_neg hempty, if_neg (by simp), checkExisting_iff hsource h.sourceNamed
      (migrated_entry htarget h.targetNamed)]
    intro entry hentry
    obtain ⟨path, leaf, hmigrated, hlook, rfl⟩ :=
      (mem_scanManifest htarget h.targetNamed entry).mp hentry
    rw [entryOf_path, entryOf_kind]
    exact h.within path leaf hmigrated hlook

end Validation

end Improves

/-! ## §6. Copies that may fail. -/

/-- What a copy of a manifest does with its trees. -/
def CopyAsks (manifest : DataMigrationManifest ν) : CopyQuestion ν → Prop
  | .createDirAll path => ∃ entry ∈ manifest.entries,
      (entry.kind = .directory ∧ path = entry.relativePath)
        ∨ (entry.kind = .file ∧ path = entry.relativePath.dropLast)
  | .copyFileAtomic path => ∃ entry ∈ manifest.entries,
      entry.kind = .file ∧ path = entry.relativePath
  | _ => True

section Asks

variable {manifest : DataMigrationManifest ν} {store : JournalFormat}

theorem asks_ask {question : CopyQuestion ν} (h : CopyAsks manifest question) :
    Asks (CopyAsks manifest) (ask question).run := ⟨h, fun _ => trivial⟩

theorem asks_attempt {α : Type} {question : CopyQuestion ν}
    {result : CopyAnswer question → AppResult α} (h : CopyAsks manifest question) :
    Asks (CopyAsks manifest) (attempt question result).run := ⟨h, fun _ => trivial⟩

theorem asks_require {α : Type} (result : AppResult α) :
    Asks (CopyAsks manifest) (require result : CopyProcess ν α).run := trivial

theorem asks_getJournal : Asks (CopyAsks manifest) (getJournal : CopyProcess ν _).run :=
  fun _ => trivial

theorem asks_setJournal (f : DataMigrationJournal → DataMigrationJournal) :
    Asks (CopyAsks manifest) (setJournal f : CopyProcess ν _).run := fun _ => trivial

theorem asks_save : Asks (CopyAsks manifest) (save store : CopyProcess ν Unit).run := by
  refine asks_andThen asks_getJournal fun journal => ?_
  refine asks_andThen (asks_require _) fun _ => ?_
  refine asks_andThen (asks_attempt trivial) fun _ => ?_
  refine asks_andThen (asks_ask trivial) fun found => ?_
  cases found with
  | false => exact trivial
  | true => exact asks_attempt trivial

theorem asks_transition {phase : DataMigrationPhase} :
    Asks (CopyAsks manifest) (transition store phase : CopyProcess ν Unit).run := by
  refine asks_andThen (asks_ask trivial) fun now => ?_
  exact asks_andThen (asks_setJournal _) fun _ => asks_save

theorem asks_shouldCopyFile {entry : DataMigrationManifestEntry ν} {retryable : Bool} :
    Asks (CopyAsks manifest) (shouldCopyFile entry retryable).run := by
  refine asks_andThen (asks_ask trivial) fun found => ?_
  cases found with
  | false => exact trivial
  | true =>
      cases retryable with
      | false => exact trivial
      | true => exact asks_andThen (asks_attempt trivial) fun _ => trivial

theorem asks_copyFile {entry : DataMigrationManifestEntry ν} {retryable : Bool}
    (hentry : entry ∈ manifest.entries) (hkind : entry.kind = .file) :
    Asks (CopyAsks manifest) (copyFile entry retryable).run := by
  refine asks_andThen asks_shouldCopyFile fun copies => ?_
  cases copies with
  | false => exact trivial
  | true =>
      refine asks_andThen (asks_attempt ⟨entry, hentry, Or.inr ⟨hkind, rfl⟩⟩) fun _ => ?_
      exact asks_attempt ⟨entry, hentry, hkind, rfl⟩

theorem asks_copyEntry {entry : DataMigrationManifestEntry ν} {retryable : Bool}
    (hentry : entry ∈ manifest.entries) :
    Asks (CopyAsks manifest) (copyEntry store retryable entry).run := by
  unfold copyEntry
  split
  next hkind => exact asks_attempt ⟨entry, hentry, Or.inl ⟨hkind, rfl⟩⟩
  next hkind =>
    refine asks_andThen (asks_copyFile hentry hkind) fun _ => ?_
    refine asks_andThen (asks_ask trivial) fun now => ?_
    exact asks_andThen (asks_setJournal _) fun _ => asks_save

theorem asks_copyEntries {entries : List (DataMigrationManifestEntry ν)} {retryable : Bool}
    (hentries : ∀ entry ∈ entries, entry ∈ manifest.entries) :
    Asks (CopyAsks manifest) (copyEntries store retryable entries).run := by
  induction entries with
  | nil => exact trivial
  | cons entry rest ih =>
      obtain ⟨hentry, hrest⟩ := List.forall_mem_cons.mp hentries
      exact asks_andThen (asks_copyEntry hentry) fun _ => ih hrest

variable [OsName ν]

/-- **A copy asks for what its manifest says.** -/
theorem asks_copyAndVerify (request : CopyAndVerifyRequest ν) :
    (copyAndVerify request).Asks (CopyAsks request.manifest) := by
  have hinner : Asks (CopyAsks request.manifest) (copyAndVerifyInner request).run := by
    refine asks_andThen (asks_attempt trivial) fun existing => ?_
    refine asks_andThen (asks_require _) fun _ => ?_
    refine asks_andThen asks_transition fun _ => ?_
    refine asks_andThen (asks_copyEntries fun _ h => h) fun _ => ?_
    refine asks_andThen asks_transition fun _ => ?_
    refine asks_andThen (asks_attempt trivial) fun _ => ?_
    refine asks_andThen ?_ fun _ => asks_andThen asks_getJournal fun _ => trivial
    refine asks_andThen (asks_attempt trivial) fun actual => ?_
    by_cases h : actual ≠ request.manifest
    · rw [if_pos h]
      exact trivial
    · rw [if_neg h]
      exact trivial
  refine asks_bind hinner fun result => ?_
  cases result with
  | ok verified => exact trivial
  | error error =>
      refine asks_bind ?_ fun _ => trivial
      refine asks_bind ⟨trivial, fun _ => trivial⟩ fun now => ?_
      refine asks_bind (fun _ => trivial) fun _ => ?_
      exact asks_bind asks_save fun _ => trivial

end Asks

section Faults

variable [OsName ν] {sha256 : Bytes → Text} {environment : MigrationEnvironment ν}
  {root : List ν} {request : CopyAndVerifyRequest ν}
  {beforeVerify : Node ν Bytes → AppResult Unit → Node ν Bytes → Prop} {w₀ w : Disk ν}

/-- A directory of the manifest, or the one around a file of it, is one of the source. -/
theorem look_asked (hsource : scanManifest sha256 environment root w₀.source = .ok request.manifest)
    (hnamed : w₀.source.Named) {path : List ν}
    (h : CopyAsks request.manifest (.createDirAll path)) :
    w₀.source.look path = some .dir ∧ ¬ journalPath <+: path := by
  obtain ⟨entry, hentry, h⟩ := h
  obtain ⟨path', leaf, hmigrated, hlook, rfl⟩ :=
    (mem_scanManifest hsource hnamed entry).mp hentry
  rw [entryOf_path, entryOf_kind] at h
  rcases h with ⟨hkind, rfl⟩ | ⟨hkind, rfl⟩
  · cases leaf with
    | file content => exact absurd hkind (by simp [kindOf])
    | dir => exact ⟨hlook, hmigrated.not_journal⟩
  · obtain ⟨name, hname, _⟩ := id hmigrated
    have hne : path' ≠ [] := by
      rintro rfl
      exact absurd hname (by simp)
    have habove := List.dropLast_prefix path'
    refine ⟨Node.look_above hlook habove fun hsame => ?_,
      fun hjournal => hmigrated.not_journal (hjournal.trans habove)⟩
    have hlength := congrArg List.length hsame
    rw [List.length_dropLast] at hlength
    have hpos := List.length_pos_of_ne_nil hne
    omega

/-- **No operation of a copy undoes what has been improved.** -/
theorem Improves.step (hsource : scanManifest sha256 environment root w₀.source
      = .ok request.manifest) (hnamed : w₀.source.Named)
    (htame : ∀ tree answer tree', beforeVerify tree answer tree' → tree' = tree)
    (question : CopyQuestion ν) (hasked : CopyAsks request.manifest question) (w : Disk ν)
    (answer : CopyAnswer question) (w' : Disk ν)
    (hresponds : Responds sha256 request beforeVerify question w answer w')
    (h : Improves w₀ w) : Improves w₀ w' := by
  cases question with
  | now | targetExists =>
      obtain rfl : w' = w := hresponds
      exact h
  | scanTarget | fileExists path | hashFile path =>
      obtain rfl := hresponds.1
      exact h
  | saveSource payload =>
      obtain ⟨hw, hwritten⟩ := hresponds
      rw [hw]
      cases answer with
      | ok u => exact h.savedSource hwritten
      | error e =>
          rcases hwritten with hsame | hwritten
          · rw [hsame]
            exact h
          · exact h.savedSource hwritten
  | saveTarget payload =>
      obtain ⟨hw, hwritten⟩ := hresponds
      rw [hw]
      cases answer with
      | ok u => exact h.savedTarget hwritten
      | error e =>
          rcases hwritten with hsame | hwritten
          · rw [hsame]
            exact h
          · exact h.savedTarget hwritten
  | createDirAll path =>
      obtain ⟨hw, hcreated⟩ := hresponds
      obtain ⟨hdir, hplain⟩ := look_asked hsource hnamed hasked
      rw [hw]
      cases answer with
      | ok u => exact h.created hdir hplain hcreated
      | error e =>
          rcases hcreated with hsame | ⟨above, habove, hcreated⟩
          · rw [hsame]
            exact h
          · refine h.created ?_ (fun hjournal => hplain (hjournal.trans habove)) hcreated
            by_cases hsame : above = path
            · rw [hsame, hdir]
            · exact Node.look_above hdir habove hsame
  | copyFileAtomic path =>
      rcases hresponds with ⟨rfl, _⟩ | ⟨content, target, hlook, hwrite, rfl⟩
      · exact h
      · obtain ⟨entry, hentry, _, rfl⟩ := hasked
        obtain ⟨path, leaf, hmigrated, _, rfl⟩ :=
          (mem_scanManifest hsource hnamed entry).mp hentry
        rw [entryOf_path] at hlook hwrite ⊢
        exact h.copied hmigrated.ne_journal hlook hwrite _
  | beforeVerify =>
      obtain ⟨hw, hbefore⟩ := hresponds
      rw [hw, htame _ _ _ hbefore]
      exact h

/-- **Wherever a copy stops, it has improved the target.** -/
theorem copyAndVerify_improves (hsource : scanManifest sha256 environment root w₀.source
      = .ok request.manifest) (hstarted : Started w₀)
    (htame : ∀ tree answer tree', beforeVerify tree answer tree' → tree' = tree)
    {journal journal' : DataMigrationJournal}
    {p : Lib.Process DataMigrationJournal (@CopyAnswer ν) (AppResult (VerifiedMigration ν))}
    (hreach : ReachesWith (Responds sha256 request beforeVerify)
      (copyAndVerify request, journal, w₀) (p, journal', w)) : Improves w₀ w := by
  have hkeeps : (copyAndVerify request).Keeps (Responds sha256 request beforeVerify)
      (fun _ w => Improves w₀ w) (fun _ _ _ => True) journal w₀ :=
    keeps_of_asks (asks_copyAndVerify request)
      (Improves.step hsource hstarted.sourceNamed htame) hstarted.improves
  exact (keeps_iff.mp hkeeps _ _ _ hreach).1

omit [OsName ν] in
/-- A step that is not the last one. -/
theorem keeps_before {α β : Type} {p : CopyProcess ν β} {f : β → CopyProcess ν α}
    {Q : AppResult α → DataMigrationJournal → Disk ν → Prop}
    {R : (question : CopyQuestion ν) → Disk ν → CopyAnswer question → Disk ν → Prop}
    (hf : ∀ b journal w, Keeps R (fun _ _ => True) Q (f b).run journal w)
    (herror : ∀ e journal w, Q (.error e) journal w) (journal : DataMigrationJournal)
    (w : Disk ν) :
    Keeps R (fun _ _ => True) Q (p >>= f : CopyProcess ν α).run journal w := by
  refine keeps_andThen ((keeps_trivial _ _ _).imp fun r journal' w' _ _ => ?_)
  cases r with
  | ok b => exact hf b journal' w'
  | error e => exact herror e journal' w'

/-- The target of a copy that reports success has the manifest. -/
def VerifiedTarget (sha256 : Bytes → Text) (request : CopyAndVerifyRequest ν)
    {α : Type} (result : AppResult α) (w : Disk ν) : Prop :=
  ∀ verified, result = .ok verified →
    scanManifest sha256 request.environment request.target w.target = .ok request.manifest

theorem verifyManifest_keeps (journal : DataMigrationJournal) (w : Disk ν) :
    Keeps (Responds sha256 request beforeVerify) (fun _ _ => True)
      (fun r _ w' => VerifiedTarget sha256 request r w')
      (verifyManifest request.manifest).run journal w := by
  refine keeps_andThen ⟨trivial, fun answer w' hresponds => ⟨trivial, ?_⟩⟩
  obtain ⟨rfl, hscan⟩ := hresponds
  cases answer with
  | error e => exact nofun
  | ok actual =>
      show Keeps _ _ _ (ExceptT.run (if _ then _ else _)) journal w'
      by_cases h : actual ≠ request.manifest
      · rw [if_pos h]
        exact ⟨trivial, nofun⟩
      · rw [if_neg h]
        obtain rfl := not_not.mp h
        exact ⟨trivial, fun _ _ => hscan _ rfl⟩

/-- **A copy reports success only for a target that has the manifest.** -/
theorem copyAndVerify_ok {journal journal' : DataMigrationJournal}
    {verified : VerifiedMigration ν} (hreach : ReachesWith (Responds sha256 request beforeVerify)
      (copyAndVerify request, journal, w₀) (.done (.ok verified), journal', w)) :
    scanManifest sha256 request.environment request.target w.target = .ok request.manifest := by
  have hinner : Keeps (Responds sha256 request beforeVerify) (fun _ _ => True)
      (fun r _ w' => VerifiedTarget sha256 request r w')
      (copyAndVerifyInner request).run journal w₀ := by
    refine keeps_before (fun existing => keeps_before (fun _ => keeps_before (fun _ =>
      keeps_before (fun _ => keeps_before (fun _ => keeps_before (fun _ journal w => ?_)
        ?_) ?_) ?_) ?_) ?_) ?_ journal w₀
    · refine keeps_andThen ((verifyManifest_keeps journal w).imp fun r journal' w' _ hr => ?_)
      cases r with
      | error e => exact nofun
      | ok u => exact ⟨trivial, trivial, fun _ _ => hr () rfl⟩
    all_goals exact fun _ _ _ => nofun
  have hkeeps : (copyAndVerify request).Keeps (Responds sha256 request beforeVerify)
      (fun _ _ => True) (fun r _ w' => VerifiedTarget sha256 request r w') journal w₀ := by
    refine keeps_bind (hinner.imp fun r journal' w' _ hr => ?_)
    cases r with
    | ok verified => exact ⟨trivial, fun _ _ => hr verified rfl⟩
    | error e =>
        refine keeps_bind ((keeps_trivial _ _ _).imp fun _ _ _ _ _ => ?_)
        exact ⟨trivial, nofun⟩
  exact (keeps_iff.mp hkeeps _ _ _ hreach).2 _ rfl verified rfl

end Faults

end QingzhouSSH.Core.DataMigration
