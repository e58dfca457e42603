/-
  QingzhouSSH.Services.RestorePointService — restore points of a workflow run, and rolling it
  back.

  The procedures act on the rows of one run.  The connection, the files on both sides and
  the clock are answers.  The state also remembers which points have been captured and which
  ones a rollback has begun to restore.

  A run lives through its own operations, captures while it is running, rollbacks,
  clean-ups and restarts of the application; any call can break off between two of its steps.

  Main results:
    * `rollbackRun_spec` — a rollback without unfinished business reports what it has done;
    * `rolled_back_restored` — so does every life of a run without any;
    * `interruptedRollback_forgotten` — a restore that was cut off is never made up for.
-/
import Mathlib.Data.List.Sort
import QingzhouSSH.Lib.Process
import QingzhouSSH.Repositories.WorkflowRepository
import QingzhouSSH.Repositories.WorkflowRestorePoints

namespace QingzhouSSH.Services.RestorePointService

open QingzhouSSH.Domain
open QingzhouSSH.Lib
open QingzhouSSH.Lib.Process
open QingzhouSSH.Repositories
open QingzhouSSH.Repositories.WorkflowRepository (RunTables)
open QingzhouSSH.Repositories.WorkflowRestorePoints

/-! ## §1. Procedures. -/

/-- A backup that has been made of an existing file. -/
structure Backup where
  location : Text
  bytes : Nat
  sha256 : Text

inductive RestoreQuestion where
  | drawId
  | now
  | relativePath (nodeId : Uuid) (remotePath : Text)
  | connect (serverId : Text)
  | backup (remotePath relativePath : Text)
  | deleteRemoteFile (remotePath : Text)
  | localHash (relativePath : Text)
  | upload (relativePath remotePath : Text)
  | removeBackup (relativePath : Text)

/-- A connection is the redactor that comes with it. -/
def RestoreAnswer : RestoreQuestion → Type
  | .drawId => Uuid
  | .now => Int
  | .relativePath _ _ => AppResult Text
  | .connect _ => AppResult (Text → Text)
  | .backup _ _ => AppResult (Option Backup)
  | .deleteRemoteFile _ => AppResult Unit
  | .localHash _ => AppResult Text
  | .upload _ _ => AppResult Text
  | .removeBackup _ => AppResult Unit

structure RestoreState where
  tables : RunTables
  points : Points
  captured : List Uuid
  attempted : List Uuid

abbrev RestoreProcess (α : Type) := ExceptT AppError (Process RestoreState RestoreAnswer) α

def ask (question : RestoreQuestion) : RestoreProcess (RestoreAnswer question) :=
  ExceptT.lift (Process.query question)

def ofResult {α : Type} (result : AppResult α) : RestoreProcess α := ExceptT.mk (pure result)

/-- A statement on the points, with what the state remembers of it. -/
def updatePoints (f : Points → AppResult Points)
    (remember : RestoreState → RestoreState := id) : RestoreProcess Unit :=
  Process.update fun s => (f s.points).map fun points => remember { s with points := points }

/-- `get_run`, and an error when there is none. -/
def requireRun : RestoreProcess (WorkflowRunRecord × Points) :=
  Process.atomic fun s =>
    (match s.tables.run with
      | some run => .ok (run, s.points)
      | none => .error (.validation "工作流运行不存在".toList), s)

def recordFailure (id : Uuid) (message : Text) : RestoreProcess Unit :=
  updatePoints (finishRestorePoint
    { id := id, status := .failed, originalExisted := false, relativePath := none,
      sizeBytes := none, sha256 := none, errorMessage := some message })

/-- `finish_restore_point` with a backup, or with none where there was no file. -/
def recordBackup (id : Uuid) (backup : Option Backup) : RestoreProcess Unit :=
  updatePoints
    (finishRestorePoint
      { id := id, status := .available, originalExisted := backup.isSome,
        relativePath := backup.map Backup.location, sizeBytes := backup.map Backup.bytes,
        sha256 := backup.map Backup.sha256, errorMessage := none })
    fun s => { s with captured := id :: s.captured }

/-- What a restore point applies to. -/
def applicability (serverId remotePath : Text) : Value :=
  .object [("serverId".toList, .string serverId), ("remotePath".toList, .string remotePath),
    ("strategy".toList, .string "restoreExistingOrDeleteCreated".toList)]

def capture (nodeId : Uuid) (serverId remotePath : Text) : RestoreProcess WorkflowRestorePoint := do
  let relativePath ← ask (.relativePath nodeId remotePath)
  let relativePath ← ofResult relativePath
  let id ← ask .drawId
  let now ← ask .now
  updatePoints (createRestorePoint id now
    { nodeId := nodeId, remotePath := remotePath, relativePath := some relativePath,
      applicability := applicability serverId remotePath })
  let connected ← ask (.connect serverId)
  match connected with
  | .error error => do
      recordFailure id error.message
      throw error
  | .ok redact => do
      let outcome ← ask (.backup remotePath relativePath)
      match outcome with
      | .error error => do
          recordFailure id (redact error.message)
          throw error
      | .ok backup => do
          recordBackup id backup
          Process.atomic fun s =>
            (match getRestorePoint id s.points with
              | some point => .ok point
              | none => .error (.database "RowNotFound".toList), s)

/-- `validate_applicability`. -/
def validateApplicability (point : WorkflowRestorePoint) (serverId : Text) : AppResult Unit :=
  let applicable := fun key : String =>
    (point.applicability.asObject.bind fun fields => Value.getField fields key.toList).bind
      Value.asStr
  if applicable "serverId" ≠ some serverId ∨ applicable "remotePath" ≠ some point.remotePath then
    .error (.security "恢复点不适用于当前服务器或远程路径".toList)
  else .ok ()

/-- A value that must be there. -/
def orElse {α : Type} (value : Option α) (message : String) : AppResult α :=
  match value with
  | some a => .ok a
  | none => .error (.integrity message.toList)

/-- `rollback_point`; the answer about the backup says whether it can be read, and its hash. -/
def rollbackPoint (serverId : Text) (point : WorkflowRestorePoint) : RestoreProcess Unit := do
  ofResult (validateApplicability point serverId)
  if !point.originalExisted then do
    let deleted ← ask (.deleteRemoteFile point.remotePath)
    ofResult deleted
  else do
    let relativePath ← ofResult (orElse point.relativePath "恢复点缺少本地备份路径")
    let expectedHash ← ofResult (orElse point.sha256 "恢复点缺少 SHA-256")
    let found ← ask (.localHash relativePath)
    let actualHash ← ofResult found
    if actualHash ≠ expectedHash then
      throw (.integrity ("恢复点 SHA-256 不一致：登记 ".toList ++ expectedHash ++ "，实际 ".toList
        ++ actualHash))
    else do
      let uploaded ← ask (.upload relativePath point.remotePath)
      let restored ← ofResult uploaded
      if restored ≠ expectedHash then throw (.integrity "回滚后的远程文件校验失败".toList)

/-- The statuses from which a run can be rolled back. -/
def mayRollBack (status : WorkflowRunStatus) : Bool :=
  [.paused, .succeeded, .cancelled, .uncertain, .rollbackFailed].contains status

/-- The order of `(created_at, id)`. -/
def createdBefore (a b : WorkflowRestorePoint) : Prop :=
  a.createdAt < b.createdAt ∨ a.createdAt = b.createdAt ∧ ¬ b.id.text < a.id.text

instance : DecidableRel createdBefore := fun _ _ => inferInstanceAs (Decidable (_ ∨ _ ∧ ¬ _))

/-- The points that a rollback restores, the latest first. -/
def availablePoints (points : Points) : Points :=
  ((points.filter fun point => point.status == .available).insertionSort createdBefore).reverse

/-- The loop over the points, which collects what has failed. -/
def rollbackPoints (redact : Text → Text) (serverId : Text) :
    Points → List Text → RestoreProcess (List Text)
  | [], failures => pure failures
  | point :: rest, failures => do
      updatePoints (markRestorePointRollingBack point.id)
        fun s => { s with attempted := point.id :: s.attempted }
      let result ← ExceptT.lift (rollbackPoint serverId point).run
      match result with
      | .ok () => do
          updatePoints (finishRestorePointRollback point.id true none)
          rollbackPoints redact serverId rest failures
      | .error error => do
          let message := redact error.message
          updatePoints (finishRestorePointRollback point.id false (some message))
          rollbackPoints redact serverId rest (failures ++ [message])

def finishRollbackRun (succeeded : Bool) (errorMessage : Option Text) : RestoreProcess Unit :=
  Process.update fun s =>
    (WorkflowRepository.finishRollbackRun succeeded errorMessage s.tables).map
      fun tables => { s with tables := tables }

def rollbackRun (dangerousConfirmed : Bool) : RestoreProcess (WorkflowRunRecord × Points) := do
  if !dangerousConfirmed then throw (.validation "回滚必须二次确认".toList)
  let (run, points) ← requireRun
  if !mayRollBack run.status then throw (.validation "工作流当前状态不允许回滚".toList)
  if availablePoints points = [] then throw (.validation "工作流没有可用恢复点".toList)
  let connected ← ask (.connect run.serverId)
  match connected with
  | .error error => finishRollbackRun false (some error.message)
  | .ok redact => do
      let failures ← rollbackPoints redact run.serverId (availablePoints points) []
      finishRollbackRun failures.isEmpty
        (if failures.isEmpty then none else some ("; ".toList.intercalate failures))
  requireRun

/-- The loop of `cleanup_run`. -/
def cleanupPoints : Points → RestoreProcess Unit
  | [] => pure ()
  | point :: rest => do
      if point.status ≠ .expired then do
        match point.relativePath with
        | none => pure ()
        | some relativePath => do
            let removed ← ask (.removeBackup relativePath)
            ofResult removed
        updatePoints fun points => .ok (expireRestorePoint point.id points).2
      cleanupPoints rest

def cleanupRun : RestoreProcess Unit := do
  let (run, points) ← requireRun
  if run.status = .queued ∨ run.status = .running then
    throw (.validation "运行中的工作流不能清理恢复点".toList)
  cleanupPoints points

/-! ## §2. The life of a run. -/

inductive RestoreCall where
  | capture (nodeId : Uuid) (serverId remotePath : Text)
  | rollbackRun (dangerousConfirmed : Bool)
  | cleanupRun

/-- The procedure of a call, whose result is of no further interest. -/
def RestoreCall.process : RestoreCall → Process RestoreState RestoreAnswer Unit
  | .capture nodeId serverId remotePath => do
      let _ ← (RestorePointService.capture nodeId serverId remotePath).run
  | .rollbackRun dangerousConfirmed => do
      let _ ← (RestorePointService.rollbackRun dangerousConfirmed).run
  | .cleanupRun => do
      let _ ← RestorePointService.cleanupRun.run

def HasStatus (p : WorkflowRunStatus → Prop) (s : RestoreState) : Prop :=
  ∃ run, s.tables.run = some run ∧ p run.status

/-- A point is captured by a node of a running run. -/
def RestoreCall.Admitted : RestoreCall → RestoreState → Prop
  | .capture _ _ _, s => HasStatus (· = .running) s
  | .rollbackRun _, _ | .cleanupRun, _ => True

/-- The other operations of a run: its creation, the steps of its execution, and whatever
concerns its nodes and events only. -/
inductive Advances : RunTables → RunTables → Prop where
  | createRun {tables tables' : RunTables} (id workflowId : Uuid) (workflowVersion : Int)
      (serverId : Text) : tables.run = none →
      WorkflowRepository.createRun id workflowId workflowVersion serverId tables = .ok tables' →
      Advances tables tables'
  | markRunRunning {tables tables' : RunTables} (currentNodeId : Uuid) :
      WorkflowRepository.markRunRunning currentNodeId tables = .ok tables' →
      Advances tables tables'
  | finishRun {tables tables' : RunTables} (finish : FinishWorkflowRun) :
      WorkflowRepository.finishRun finish tables = .ok tables' → Advances tables tables'
  | resumePausedRun {tables tables' : RunTables} :
      WorkflowRepository.resumePausedRun tables = .ok tables' → Advances tables tables'
  | nodes {tables tables' : RunTables} : tables'.run = tables.run → Advances tables tables'

/-- A call in the life of a run; it has returned or broken off. -/
structure Episode where
  call : RestoreCall
  before : RestoreState
  after : RestoreState
  returned : Bool

/-- Everything that can happen to a run and its points; the latest call comes first. -/
inductive Life : List Episode → RestoreState → Prop where
  | installed :
      Life [] { tables := { run := none, nodeRuns := [], events := [] }, points := [],
                captured := [], attempted := [] }
  | advanced {episodes : List Episode} {s : RestoreState} {tables : RunTables} :
      Life episodes s → Advances s.tables tables → Life episodes { s with tables := tables }
  | brokenOff {episodes : List Episode} {s s' : RestoreState}
      {p : Process RestoreState RestoreAnswer Unit} (call : RestoreCall) :
      Life episodes s → call.Admitted s → Reaches (call.process, s) (p, s') →
      Life ({ call := call, before := s, after := s', returned := false } :: episodes) s'
  | returned {episodes : List Episode} {s s' : RestoreState} (call : RestoreCall) :
      Life episodes s → call.Admitted s → Reaches (call.process, s) (.done (), s') →
      Life ({ call := call, before := s, after := s', returned := true } :: episodes) s'
  | restarted {episodes : List Episode} {s : RestoreState} :
      Life episodes s →
      Life episodes { s with tables := WorkflowRepository.recoverInterrupted s.tables }

/-- There is nothing left to restore. -/
def Settled (status : WorkflowRestorePointStatus) : Prop :=
  status = .rolledBack ∨ status = .expired

/-- A run that is reported as rolled back has all its captured points restored. -/
def RestoredWhenReported (s : RestoreState) : Prop :=
  HasStatus (· = .rolledBack) s → ∀ point ∈ s.points, point.id ∈ s.captured → Settled point.status

/-- A restore of a captured point that has failed, or has been cut off. -/
def Unfinished (s : RestoreState) (point : WorkflowRestorePoint) : Prop :=
  point.id ∈ s.captured ∧ (point.status = .failed ∨ point.status = .rollingBack)

/-- A rollback that has not been refused from the start. -/
def Episode.RollsBack (episode : Episode) : Prop :=
  episode.call = .rollbackRun true ∧ HasStatus (mayRollBack · = true) episode.before

/-- Every rollback that returns has attempted the restores that were unfinished. -/
def Reattempted (episodes : List Episode) : Prop :=
  ∀ episode ∈ episodes, episode.RollsBack → episode.returned = true →
    ∀ point ∈ episode.before.points, Unfinished episode.before point →
      episode.before.attempted.count point.id < episode.after.attempted.count point.id

/-- No rollback begins with unfinished restores. -/
def NothingUnfinished (episodes : List Episode) : Prop :=
  ∀ episode ∈ episodes, episode.RollsBack →
    ∀ point ∈ episode.before.points, ¬ Unfinished episode.before point

/-! ## §3. What every step keeps. -/

structure Kept (s : RestoreState) : Prop where
  unique : (s.points.map WorkflowRestorePoint.id).Nodup
  stored : ∀ id ∈ s.captured, id ∈ s.points.map WorkflowRestorePoint.id
  created : ∀ point ∈ s.points, point.id ∈ s.captured → point.status ≠ .creating
  restored : RestoredWhenReported s

theorem Kept.eq_of_id {s : RestoreState} (h : Kept s) {point other : WorkflowRestorePoint}
    (hpoint : point ∈ s.points) (hother : other ∈ s.points) (hid : point.id = other.id) :
    point = other :=
  List.inj_on_of_nodup_map h.unique hpoint hother hid

/-- The tables of a run whose status is not that of a reported rollback. -/
theorem Kept.of_tables {s : RestoreState} {tables : RunTables} (h : Kept s)
    (hrun : ∀ run, tables.run = some run → run.status = .rolledBack →
      HasStatus (· = .rolledBack) s) : Kept { s with tables := tables } where
  unique := h.unique
  stored := h.stored
  created := h.created
  restored := by
    rintro ⟨run, hsome, hstatus⟩
    exact h.restored (hrun run hsome hstatus)

/-- An update of one point of a run that is not reported as rolled back, or that settles it. -/
theorem Kept.of_update {s : RestoreState} (h : Kept s) {id : Uuid}
    {guard : WorkflowRestorePoint → Bool} {f : WorkflowRestorePoint → WorkflowRestorePoint}
    {message : String} {points : Points}
    (hupdate : updatePoint id guard f message s.points = .ok points)
    (hid : ∀ point, (f point).id = point.id) (hcreated : ∀ point, (f point).status ≠ .creating)
    (hopen : ¬ HasStatus (· = .rolledBack) s) : Kept { s with points := points } where
  unique := by
    show (points.map WorkflowRestorePoint.id).Nodup
    rw [updatePoint_ids hid hupdate]
    exact h.unique
  stored other hother := by
    show other ∈ points.map WorkflowRestorePoint.id
    rw [updatePoint_ids hid hupdate]
    exact h.stored other hother
  created point hpoint hcaptured := by
    obtain ⟨before, hbefore, ⟨_, _, rfl⟩ | ⟨_, rfl⟩⟩ := mem_updatePoint hupdate hpoint
    · exact hcreated before
    · exact h.created point hbefore hcaptured
  restored hreported := absurd hreported hopen

/-- What is true of a run between two steps of a call. -/
def keeping (P : RestoreState → Prop) : Assertion Undisturbed Kept :=
  .undisturbed (fun s => Kept s ∧ P s) fun _ h => h.1

abbrev kept : Assertion Undisturbed Kept := .undisturbed Kept fun _ h => h

def Any : (question : RestoreQuestion) → RestoreAnswer question → Prop := fun _ _ => True

variable {P : RestoreState → Prop}

theorem ask_spec {question : RestoreQuestion} :
    Triple Any (keeping P) (ask question).run (outcome (fun _ => keeping P) kept) :=
  triple_lift (triple_query fun _ _ _ hs => hs)

theorem ofResult_spec {α : Type} (result : AppResult α) :
    Triple Any (keeping P) (ofResult result).run (outcome (fun _ => keeping P) kept) :=
  triple_result (fun _ _ _ hs => hs) fun _ _ _ hs => hs.1

theorem requireRun_spec :
    Triple Any (keeping P) requireRun.run
      (outcome (fun details => keeping fun s =>
        P s ∧ s.tables.run = some details.1 ∧ s.points = details.2) kept) := by
  refine triple_atomic fun s hs => ?_
  cases hrun : s.tables.run with
  | none => exact hs.1
  | some run => exact ⟨hs.1, hs.2, hrun, rfl⟩

/-- A statement on the points that leaves them well kept. -/
theorem updatePoints_spec {Q : RestoreState → Prop} {f : Points → AppResult Points}
    {remember : RestoreState → RestoreState}
    (h : ∀ s points, Kept s → P s → f s.points = .ok points →
      Kept (remember { s with points := points }) ∧ Q (remember { s with points := points })) :
    Triple Any (keeping P) (updatePoints f remember).run
      (outcome (fun _ => keeping Q) kept) := by
  refine triple_update (fun s s' hs hupdate => ?_) fun s _ hs _ => hs.1
  cases hpoints : f s.points with
  | error e =>
      rw [hpoints] at hupdate
      cases hupdate
  | ok points =>
      rw [hpoints] at hupdate
      obtain rfl := Except.ok.inj hupdate
      exact h s points hs.1 hs.2 hpoints

/-! ## §4. Rolling back. -/

/-- A rollback under way: the points that are left, unless something has failed. -/
structure Rolling (left : List Uuid) (clean : Bool) (s : RestoreState) : Prop where
  allowed : HasStatus (mayRollBack · = true) s
  left : clean = true →
    ∀ point ∈ s.points, point.id ∈ s.captured → Settled point.status ∨ point.id ∈ left

theorem Rolling.not_reported {left : List Uuid} {clean : Bool} {s : RestoreState}
    (h : Rolling left clean s) : ¬ HasStatus (· = .rolledBack) s := by
  rintro ⟨run, hrun, hstatus⟩
  obtain ⟨same, hsame, hallowed⟩ := h.allowed
  obtain rfl : run = same := Option.some.inj (hrun.symm.trans hsame)
  rw [hstatus] at hallowed
  cases hallowed

/-- The point is marked; it stays among those that are left. -/
theorem mark_spec {id : Uuid} {left : List Uuid} {clean : Bool} :
    Triple Any (keeping (Rolling (id :: left) clean))
      (updatePoints (markRestorePointRollingBack id)
        fun s => { s with attempted := id :: s.attempted }).run
      (outcome (fun _ => keeping (Rolling (id :: left) clean)) kept) := by
  refine updatePoints_spec fun s points hkept hrolling hpoints => ?_
  have hafter := hkept.of_update hpoints (fun _ => rfl) (fun _ => nofun) hrolling.not_reported
  refine ⟨⟨hafter.unique, hafter.stored, hafter.created, hafter.restored⟩, hrolling.allowed, ?_⟩
  intro hclean point hpoint hcaptured
  obtain ⟨before, hbefore, ⟨hid, _, rfl⟩ | ⟨_, rfl⟩⟩ := mem_updatePoint hpoints hpoint
  · exact Or.inr (hid ▸ List.mem_cons_self)
  · exact hrolling.left hclean point hbefore hcaptured

/-- The point is restored, or it has failed. -/
theorem finishRestore_spec {id : Uuid} {left : List Uuid} {clean succeeded : Bool}
    {message : Option Text} :
    Triple Any (keeping (Rolling (id :: left) clean))
      (updatePoints (finishRestorePointRollback id succeeded message)).run
      (outcome (fun _ => keeping (Rolling left (clean && succeeded))) kept) := by
  refine updatePoints_spec fun s points hkept hrolling hpoints => ?_
  have hcreated : ∀ point : WorkflowRestorePoint,
      { point with status := if succeeded then .rolledBack else .failed,
                   errorMessage := capUtf8 message (8 * 1024) : WorkflowRestorePoint }.status
        ≠ .creating := by
    intro point
    cases succeeded <;> exact nofun
  have hafter := hkept.of_update hpoints (fun _ => rfl) hcreated hrolling.not_reported
  refine ⟨hafter, hrolling.allowed, ?_⟩
  intro hboth point hpoint hcaptured
  obtain ⟨hclean, rfl⟩ := Bool.and_eq_true_iff.mp hboth
  obtain ⟨before, hbefore, ⟨_, _, rfl⟩ | ⟨hother, rfl⟩⟩ := mem_updatePoint hpoints hpoint
  · exact Or.inl (Or.inl rfl)
  · refine (hrolling.left hclean point hbefore hcaptured).imp_right fun hleft => ?_
    rcases List.mem_cons.mp hleft with hid | hleft
    · -- there is one point with this identifier, and it has been found to roll back
      obtain ⟨found, hfound, hsame, hguard⟩ := updatePoint_hits hpoints
      obtain rfl := hkept.eq_of_id hbefore hfound (hid.trans hsame.symm)
      exact absurd ⟨hid, hguard⟩ hother
    · exact hleft

/-- Restoring a file leaves the rows as they are. -/
theorem rollbackPoint_silent (serverId : Text) (point : WorkflowRestorePoint) :
    Guarantees Eq (rollbackPoint serverId point).run := by
  have hask : ∀ question : RestoreQuestion, Guarantees Eq (ask question).run :=
    fun _ _ => trivial
  have hresult : ∀ {α : Type} (result : AppResult α), Guarantees Eq (ofResult result).run :=
    fun _ => trivial
  unfold rollbackPoint
  refine guarantees_andThen (hresult _) fun _ => ?_
  split
  · exact guarantees_andThen (hask _) fun _ => hresult _
  · refine guarantees_andThen (hresult _) fun relativePath => ?_
    refine guarantees_andThen (hresult _) fun expectedHash => ?_
    refine guarantees_andThen (hask _) fun found => ?_
    refine guarantees_andThen (hresult _) fun actualHash => ?_
    split
    · trivial
    · refine guarantees_andThen (hask _) fun uploaded => ?_
      refine guarantees_andThen (hresult _) fun restored => ?_
      split
      · trivial
      · trivial

theorem rollbackPoints_spec {redact : Text → Text} {serverId : Text} {points : Points}
    {failures : List Text} :
    Triple Any (keeping (Rolling (points.map WorkflowRestorePoint.id) failures.isEmpty))
      (rollbackPoints redact serverId points failures).run
      (outcome (fun result => keeping (Rolling [] result.isEmpty)) kept) := by
  induction points generalizing failures with
  | nil => exact triple_ok fun _ hs => hs
  | cons point rest ih =>
      refine triple_andThen mark_spec fun _ => ?_
      have hrestore : Triple Any
          (keeping (Rolling (point.id :: rest.map WorkflowRestorePoint.id) failures.isEmpty))
          (rollbackPoint serverId point).run
          (fun _ => keeping (Rolling (point.id :: rest.map WorkflowRestorePoint.id)
            failures.isEmpty)) :=
        (triple_of_guarantees (rollbackPoint_silent serverId point) (yields_any _)
          fun s s' heq hs => heq ▸ hs).weaken (fun _ hs => hs) fun _ _ hs => hs.2
      refine triple_andThen (triple_lift hrestore) fun result => ?_
      cases result with
      | ok _ =>
          refine triple_andThen finishRestore_spec fun _ => ?_
          rw [Bool.and_true]
          exact ih
      | error error =>
          refine triple_andThen finishRestore_spec fun _ => ?_
          have hfailed : (failures.isEmpty && false)
              = (failures ++ [redact error.message]).isEmpty := by
            rw [Bool.and_false]
            cases failures <;> rfl
          rw [hfailed]
          exact ih

theorem finishRollbackRun_spec {clean : Bool} {message : Option Text} :
    Triple Any (keeping (Rolling [] clean)) (finishRollbackRun clean message).run
      (outcome (fun _ => kept) kept) := by
  refine triple_update (fun s s' hs hfinish => ?_) fun s _ hs _ => hs.1
  cases htables : WorkflowRepository.finishRollbackRun clean message s.tables with
  | error e =>
      rw [htables] at hfinish
      cases hfinish
  | ok tables =>
      rw [htables] at hfinish
      obtain rfl := Except.ok.inj hfinish
      refine ⟨hs.1.unique, hs.1.stored, hs.1.created, fun hreported point hpoint hcaptured => ?_⟩
      -- the run is reported as rolled back only after a clean loop
      have hclean : clean = true := by
        obtain ⟨_, _, _, rfl⟩ := WorkflowRepository.updateRun_ok htables
        obtain ⟨run, hrun, hstatus⟩ := hreported
        cases hrun
        cases clean with
        | true => rfl
        | false => cases hstatus
      rcases hs.2.left hclean point hpoint hcaptured with hsettled | hleft
      · exact hsettled
      · cases hleft

theorem mem_availablePoints {points : Points} {point : WorkflowRestorePoint} :
    point ∈ availablePoints points ↔ point ∈ points ∧ point.status = .available := by
  unfold availablePoints
  rw [List.mem_reverse, List.mem_insertionSort, List.mem_filter, beq_iff_eq]

/-- No restore is unfinished, as far as the run can be rolled back. -/
def Tidy (s : RestoreState) : Prop :=
  HasStatus (mayRollBack · = true) s → ∀ point ∈ s.points, ¬ Unfinished s point

/-- What is captured is settled or among the points that are restored. -/
theorem rolling_start {s : RestoreState} {run : WorkflowRunRecord} {points : Points}
    (hkept : Kept s) (htidy : Tidy s) (hrun : s.tables.run = some run) (hpoints : s.points = points)
    (hallowed : mayRollBack run.status = true) :
    Rolling ((availablePoints points).map WorkflowRestorePoint.id) true s := by
  have hstatus : HasStatus (mayRollBack · = true) s := ⟨run, hrun, hallowed⟩
  refine ⟨hstatus, fun _ point hpoint hcaptured => ?_⟩
  have hfinished := htidy hstatus point hpoint
  cases hpointStatus : point.status with
  | creating => exact absurd hpointStatus (hkept.created point hpoint hcaptured)
  | available =>
      refine Or.inr (List.mem_map.mpr ⟨point, mem_availablePoints.mpr ⟨?_, hpointStatus⟩, rfl⟩)
      rw [← hpoints]
      exact hpoint
  | failed => exact absurd ⟨hcaptured, Or.inl hpointStatus⟩ hfinished
  | rollingBack => exact absurd ⟨hcaptured, Or.inr hpointStatus⟩ hfinished
  | rolledBack => exact Or.inl (Or.inl rfl)
  | expired => exact Or.inl (Or.inr rfl)

theorem requireRun_kept : Triple Any kept requireRun.run (outcome (fun _ => kept) kept) := by
  refine triple_atomic fun s hs => ?_
  cases hrun : s.tables.run with
  | none => exact hs
  | some run => exact hs

/-- **A rollback that finds nothing unfinished reports what it has restored.** -/
theorem rollbackRun_spec {dangerousConfirmed : Bool} :
    Triple Any (keeping fun s => dangerousConfirmed = true → Tidy s)
      (rollbackRun dangerousConfirmed).run (outcome (fun _ => kept) kept) := by
  unfold rollbackRun
  cases dangerousConfirmed with
  | false => exact triple_throw fun _ hs => hs.1
  | true =>
      have hdetails : Triple Any (keeping fun s => true = true → Tidy s) requireRun.run
          (outcome (fun details => keeping fun s =>
            Tidy s ∧ s.tables.run = some details.1 ∧ s.points = details.2) kept) :=
        requireRun_spec.weaken (fun s hs => ⟨hs.1, hs.2 rfl⟩) fun _ _ hs => hs
      refine triple_andThen hdetails fun details => ?_
      obtain ⟨run, points⟩ := details
      dsimp only
      by_cases hallowed : mayRollBack run.status = true
      · rw [if_neg (by simp [hallowed])]
        by_cases hempty : availablePoints points = []
        · rw [if_pos hempty]
          exact triple_throw fun _ hs => hs.1
        · rw [if_neg hempty]
          refine triple_andThen ask_spec fun connected => ?_
          cases connected with
          | error error =>
              have hfailed : Triple Any
                  (keeping fun s => Tidy s ∧ s.tables.run = some run ∧ s.points = points)
                  (finishRollbackRun false (some error.message)).run
                  (outcome (fun _ => kept) kept) := by
                refine finishRollbackRun_spec.weaken (fun s hs => ⟨hs.1, ?_⟩) fun _ _ hs => hs
                exact ⟨⟨run, hs.2.2.1, hallowed⟩, nofun⟩
              exact triple_andThen hfailed fun _ => requireRun_kept
          | ok redact =>
              have hrolling : Triple Any
                  (keeping fun s => Tidy s ∧ s.tables.run = some run ∧ s.points = points)
                  (rollbackPoints redact run.serverId (availablePoints points) []).run
                  (outcome (fun result => keeping (Rolling [] result.isEmpty)) kept) := by
                refine rollbackPoints_spec.weaken (fun s hs => ⟨hs.1, ?_⟩) fun _ _ hs => hs
                exact rolling_start hs.1 hs.2.1 hs.2.2.1 hs.2.2.2 hallowed
              refine triple_andThen hrolling fun failures => ?_
              exact triple_andThen finishRollbackRun_spec fun _ => requireRun_kept
      · rw [if_pos (by simp [hallowed])]
        exact triple_throw fun _ hs => hs.1

/-! ## §5. Capturing and cleaning up. -/

/-- The run is running, so it is not reported as rolled back. -/
abbrev capturing : Assertion Undisturbed Kept := keeping (HasStatus (· = .running))

theorem not_reported_of_running {s : RestoreState} (h : HasStatus (· = .running) s) :
    ¬ HasStatus (· = .rolledBack) s := by
  rintro ⟨run, hrun, hstatus⟩
  obtain ⟨same, hsame, hrunning⟩ := h
  obtain rfl : run = same := Option.some.inj (hrun.symm.trans hsame)
  exact nomatch hrunning.symm.trans hstatus

/-- The new point of a running run. -/
theorem createPoint_spec {id : Uuid} {now : Int} {draft : NewWorkflowRestorePoint} :
    Triple Any capturing (updatePoints (createRestorePoint id now draft)).run
      (outcome (fun _ => capturing) kept) := by
  refine updatePoints_spec fun s points hkept hrunning hcreate => ?_
  obtain ⟨point, hid, hfresh, rfl⟩ := createRestorePoint_eq hcreate
  refine ⟨⟨?_, fun other hother => ?_, fun other hmem hcaptured => ?_, fun hreported => ?_⟩, hrunning⟩
  · show ((s.points ++ [point]).map WorkflowRestorePoint.id).Nodup
    rw [List.map_append, List.map_singleton, hid]
    exact List.nodup_append.mpr ⟨hkept.unique, List.nodup_singleton _,
      fun a ha b hb heq => hfresh (by rw [← List.mem_singleton.mp hb, ← heq]; exact ha)⟩
  · show other ∈ (s.points ++ [point]).map WorkflowRestorePoint.id
    rw [List.map_append]
    exact List.mem_append_left _ (hkept.stored other hother)
  · rcases List.mem_append.mp hmem with hold | hnew
    · exact hkept.created other hold hcaptured
    · -- the identifier is new, so nothing has been captured under it
      rw [List.mem_singleton.mp hnew, hid] at hcaptured
      exact absurd (hkept.stored id hcaptured) hfresh
  · exact absurd hreported (not_reported_of_running hrunning)

theorem recordFailure_spec {id : Uuid} {message : Text} :
    Triple Any capturing (recordFailure id message).run (outcome (fun _ => capturing) kept) := by
  refine updatePoints_spec fun s points hkept hrunning hfinish => ?_
  obtain ⟨f, hid, hcreated, hupdate⟩ := finishRestorePoint_update hfinish
  exact ⟨hkept.of_update hupdate hid hcreated (not_reported_of_running hrunning), hrunning⟩

theorem recordBackup_spec {id : Uuid} {backup : Option Backup} :
    Triple Any capturing (recordBackup id backup).run (outcome (fun _ => capturing) kept) := by
  refine updatePoints_spec fun s points hkept hrunning hfinish => ?_
  obtain ⟨f, hid, hcreated, hupdate⟩ := finishRestorePoint_update hfinish
  have hafter := hkept.of_update hupdate hid hcreated (not_reported_of_running hrunning)
  refine ⟨⟨hafter.unique, fun other hother => ?_, fun point hpoint hcaptured => ?_,
    fun hreported => absurd hreported (not_reported_of_running hrunning)⟩, hrunning⟩
  · rcases List.mem_cons.mp hother with rfl | hold
    · obtain ⟨point, hpoint, hsame, _⟩ := updatePoint_hits hupdate
      show other ∈ points.map WorkflowRestorePoint.id
      rw [updatePoint_ids hid hupdate]
      exact List.mem_map.mpr ⟨point, hpoint, hsame⟩
    · exact hafter.stored other hold
  · obtain ⟨before, hbefore, ⟨_, _, rfl⟩ | ⟨hother, rfl⟩⟩ := mem_updatePoint hupdate hpoint
    · exact hcreated before
    · rcases List.mem_cons.mp hcaptured with hsame | hold
      · obtain ⟨found, hfound, hfoundId, hguard⟩ := updatePoint_hits hupdate
        obtain rfl := hkept.eq_of_id hbefore hfound (hsame.trans hfoundId.symm)
        exact absurd ⟨hsame, hguard⟩ hother
      · exact hkept.created point hbefore hold

theorem capture_spec {nodeId : Uuid} {serverId remotePath : Text} :
    Triple Any capturing (capture nodeId serverId remotePath).run
      (outcome (fun _ => kept) kept) := by
  unfold capture
  refine triple_andThen ask_spec fun relativePath => ?_
  refine triple_andThen (ofResult_spec _) fun relativePath => ?_
  refine triple_andThen ask_spec fun id => triple_andThen ask_spec fun now => ?_
  refine triple_andThen createPoint_spec fun _ => triple_andThen ask_spec fun connected => ?_
  cases connected with
  | error error => exact triple_andThen recordFailure_spec fun _ => triple_throw fun _ hs => hs.1
  | ok redact =>
      refine triple_andThen ask_spec fun outcome => ?_
      cases outcome with
      | error error => exact triple_andThen recordFailure_spec fun _ => triple_throw fun _ hs => hs.1
      | ok backup =>
          refine triple_andThen recordBackup_spec fun _ => triple_atomic fun s hs => ?_
          cases hfound : getRestorePoint id s.points with
          | none => exact hs.1
          | some point => exact hs.1

/-- Expiring a point settles it. -/
theorem expire_spec {id : Uuid} :
    Triple Any kept (updatePoints fun points => .ok (expireRestorePoint id points).2).run
      (outcome (fun _ => kept) kept) := by
  refine triple_update (fun s s' hs hupdate => ?_) fun s _ hs _ => hs
  obtain rfl := Except.ok.inj hupdate
  have hids : (expireRestorePoint id s.points).2.map WorkflowRestorePoint.id
      = s.points.map WorkflowRestorePoint.id := by
    unfold expireRestorePoint
    rw [List.map_map]
    refine List.map_congr_left fun point _ => ?_
    dsimp only [Function.comp]
    split <;> rfl
  have hmem : ∀ point ∈ (expireRestorePoint id s.points).2, ∃ before ∈ s.points,
      before.id = point.id ∧ (point.status = .expired ∨ point.status = before.status) := by
    intro point hpoint
    obtain ⟨before, hbefore, rfl⟩ := List.mem_map.mp hpoint
    refine ⟨before, hbefore, ?_⟩
    split
    · exact ⟨rfl, Or.inl rfl⟩
    · exact ⟨rfl, Or.inr rfl⟩
  refine ⟨?_, fun other hother => ?_, fun point hpoint hcaptured => ?_,
    fun hreported point hpoint hcaptured => ?_⟩
  · show ((expireRestorePoint id s.points).2.map WorkflowRestorePoint.id).Nodup
    rw [hids]
    exact hs.unique
  · show other ∈ (expireRestorePoint id s.points).2.map WorkflowRestorePoint.id
    rw [hids]
    exact hs.stored other hother
  · obtain ⟨before, hbefore, hid, hstatus | hstatus⟩ := hmem point hpoint
    · rw [hstatus]
      exact nofun
    · rw [hstatus]
      exact hs.created before hbefore (hid ▸ hcaptured)
  · obtain ⟨before, hbefore, hid, hstatus | hstatus⟩ := hmem point hpoint
    · exact Or.inr hstatus
    · rw [hstatus]
      exact hs.restored hreported before hbefore (hid ▸ hcaptured)

theorem cleanupPoints_spec {points : Points} :
    Triple Any kept (cleanupPoints points).run (outcome (fun _ => kept) kept) := by
  have hask : ∀ question : RestoreQuestion,
      Triple Any kept (ask question).run (outcome (fun _ => kept) kept) :=
    fun _ => triple_lift (triple_query fun _ _ _ hs => hs)
  have hresult : ∀ {α : Type} (result : AppResult α),
      Triple Any kept (ofResult result).run (outcome (fun _ => kept) kept) :=
    fun _ => triple_result (fun _ _ _ hs => hs) fun _ _ _ hs => hs
  induction points with
  | nil => exact triple_ok fun _ hs => hs
  | cons point rest ih =>
      unfold cleanupPoints
      have hrest : ∀ _ : Unit, Triple Any kept
          (do updatePoints (fun points => .ok (expireRestorePoint point.id points).2)
              cleanupPoints rest : RestoreProcess Unit).run (outcome (fun _ => kept) kept) :=
        fun _ => triple_andThen expire_spec fun _ => ih
      split
      · cases hpath : point.relativePath with
        | none => exact hrest ()
        | some relativePath =>
            exact triple_andThen (hask _) fun removed =>
              triple_andThen (hresult removed) hrest
      · exact ih

theorem cleanupRun_spec : Triple Any kept cleanupRun.run (outcome (fun _ => kept) kept) := by
  unfold cleanupRun
  refine triple_andThen requireRun_kept fun details => ?_
  obtain ⟨run, points⟩ := details
  dsimp only
  split
  · exact triple_throw fun _ hs => hs
  · exact cleanupPoints_spec

/-! ## §6. Whole lives. -/

/-- What a call needs: a capture is of a running run, and a rollback begins tidily. -/
def RestoreCall.Ready : RestoreCall → RestoreState → Prop
  | .capture _ _ _, s => HasStatus (· = .running) s
  | .rollbackRun dangerousConfirmed, s => dangerousConfirmed = true → Tidy s
  | .cleanupRun, _ => True

theorem call_spec (call : RestoreCall) :
    Triple Any (keeping call.Ready) call.process fun _ => kept := by
  have hignored : ∀ {α : Type} {p : RestoreProcess α} {Q : Assertion Undisturbed Kept},
      Triple Any Q p.run (outcome (fun _ => kept) kept) →
      Triple Any Q (do let _ ← p.run) fun _ => kept := by
    intro α p Q h
    refine triple_bind h fun result => triple_pure fun s hs => ?_
    cases result <;> exact hs
  cases call with
  | capture nodeId serverId remotePath => exact hignored capture_spec
  | rollbackRun dangerousConfirmed => exact hignored rollbackRun_spec
  | cleanupRun => exact hignored (cleanupRun_spec.weaken (fun _ hs => hs.1) fun _ _ hs => hs)

theorem Kept.reaches {s s' : RestoreState} {call : RestoreCall}
    {p : Process RestoreState RestoreAnswer Unit} (h : Kept s) (hready : call.Ready s)
    (hreach : Reaches (call.process, s) (p, s')) : Kept s' :=
  (triple_iff.mp (call_spec call) s ⟨h, hready⟩ p s' (.of_reaches hreach)).1

theorem Kept.advance {s : RestoreState} {tables : RunTables} (h : Kept s)
    (hadvance : Advances s.tables tables) : Kept { s with tables := tables } := by
  refine h.of_tables fun run hrun hstatus => ?_
  cases hadvance with
  | createRun id workflowId workflowVersion serverId _ hcreate =>
      unfold WorkflowRepository.createRun at hcreate
      split at hcreate
      next => cases hcreate
      next =>
        cases hcreate
        cases hrun
        cases hstatus
  | markRunRunning currentNodeId hmark =>
      obtain ⟨_, _, _, rfl⟩ := WorkflowRepository.updateRun_ok hmark
      cases hrun
      cases hstatus
  | finishRun finish hfinish =>
      unfold WorkflowRepository.finishRun at hfinish
      split at hfinish
      next hend =>
        obtain ⟨_, _, _, rfl⟩ := WorkflowRepository.updateRun_ok hfinish
        cases hrun
        dsimp only at hstatus
        rw [hstatus] at hend
        cases hend
      next => cases hfinish
  | resumePausedRun hresume =>
      obtain ⟨_, _, _, rfl⟩ := WorkflowRepository.updateRun_ok hresume
      cases hrun
      cases hstatus
  | nodes hsame => exact ⟨run, hsame ▸ hrun, hstatus⟩

theorem Kept.restart {s : RestoreState} (h : Kept s) :
    Kept { s with tables := WorkflowRepository.recoverInterrupted s.tables } := by
  refine h.of_tables fun run hrun hstatus => ?_
  obtain ⟨before, hbefore, rfl⟩ := Option.map_eq_some_iff.mp hrun
  by_cases hrunning : before.status = .running
  · rw [if_pos hrunning] at hstatus
    cases hstatus
  · rw [if_neg hrunning] at hstatus
    exact ⟨before, hbefore, hstatus⟩

/-- A call of a tidy life has what it needs. -/
theorem ready_of_tidy {call : RestoreCall} {s after : RestoreState} {returned : Bool}
    {episodes : List Episode} (hadmitted : call.Admitted s)
    (htidy : NothingUnfinished
      ({ call := call, before := s, after := after, returned := returned } :: episodes)) :
    call.Ready s := by
  cases call with
  | capture nodeId serverId remotePath => exact hadmitted
  | rollbackRun dangerousConfirmed =>
      rintro rfl hstatus
      exact htidy _ List.mem_cons_self ⟨rfl, hstatus⟩
  | cleanupRun => trivial

/-- **A run that is reported as rolled back has restored everything it has captured**, in
every life in which no rollback begins with unfinished restores. -/
theorem rolled_back_restored {episodes : List Episode} {s : RestoreState}
    (h : Life episodes s) (htidy : NothingUnfinished episodes) :
    RestoredWhenReported s ∧ Reattempted episodes := by
  have hkept : Kept s := by
    induction h with
    | installed =>
        refine ⟨List.nodup_nil, nofun, nofun, ?_⟩
        rintro ⟨run, hrun, _⟩
        cases hrun
    | advanced _ hadvance ih => exact (ih htidy).advance hadvance
    | brokenOff call _ hadmitted hreach ih =>
        have hbefore := ih fun episode hmem => htidy episode (List.mem_cons_of_mem _ hmem)
        exact hbefore.reaches (ready_of_tidy hadmitted htidy) hreach
    | returned call _ hadmitted hreach ih =>
        have hbefore := ih fun episode hmem => htidy episode (List.mem_cons_of_mem _ hmem)
        exact hbefore.reaches (ready_of_tidy hadmitted htidy) hreach
    | restarted _ ih => exact (ih htidy).restart
  refine ⟨hkept.restored, fun episode hmem hrolls _ point hpoint hunfinished => ?_⟩
  exact absurd hunfinished (htidy episode hmem hrolls point hpoint)

/-! ## §7. Examples of lives. -/

/-- Identifiers that differ in the last digit. -/
def sampleId (n : Fin 10) : Uuid where
  text := "00000000-0000-4000-8000-00000000000".toList ++ [Nat.digitChar n]
  hyphenated := Domain.hyphenated_digit n

/-- The files did not exist before, and can be deleted. -/
def sampleRestoreAnswer (drawn : Fin 10) : (question : RestoreQuestion) → RestoreAnswer question
  | .drawId => sampleId drawn
  | .now => (drawn.val : Int)
  | .relativePath _ _ =>
      .ok ("backups/workflows/".toList ++ (sampleId 0).text ++ "/".toList ++ (sampleId 0).text
        ++ "/f".toList)
  | .connect _ => .ok id
  | .backup _ _ => .ok none
  | .deleteRemoteFile _ | .removeBackup _ => .ok ()
  | .localHash _ | .upload _ _ => .ok []

/-- A run that has been created, or is running. -/
def sampleRun (status : WorkflowRunStatus) (node : Option Uuid) : RestoreState where
  tables :=
    { run := some
        { id := sampleId 0, workflowId := sampleId 0, workflowVersion := 1, serverId := ['s'],
          status := status, currentNodeId := node, errorCategory := none, errorMessage := none,
          retryable := false },
      nodeRuns := [], events := [] }
  points := []
  captured := []
  attempted := []

def runningRun : RestoreState := sampleRun .running (some (sampleId 0))

theorem runningRun_life : Life [] runningRun := by
  have hcreate : WorkflowRepository.createRun (sampleId 0) (sampleId 0) 1 ['s']
      { run := none, nodeRuns := [], events := [] } = .ok (sampleRun .queued none).tables := rfl
  have hmark : WorkflowRepository.markRunRunning (sampleId 0) (sampleRun .queued none).tables
      = .ok runningRun.tables := rfl
  have hqueued : Life [] (sampleRun .queued none) :=
    Life.installed.advanced (.createRun _ _ _ _ rfl hcreate)
  exact hqueued.advanced (.markRunRunning _ hmark)

/-- A call that returns. -/
def afterCall (call : RestoreCall) (drawn : Fin 10) (s : RestoreState) : RestoreState :=
  (Process.run (fun _ => sampleRestoreAnswer drawn) 0 call.process s).2

def finished (s : RestoreState) : RestoreState :=
  match WorkflowRepository.finishRun
    { status := .succeeded, errorCategory := none, errorMessage := none, retryable := false }
    s.tables with
  | .ok tables => { s with tables := tables }
  | .error _ => s

theorem Life.afterCall {episodes : List Episode} {s : RestoreState} (h : Life episodes s)
    (call : RestoreCall) (drawn : Fin 10) (hadmitted : call.Admitted s) :
    Life ({ call := call, before := s, after := afterCall call drawn s, returned := true }
      :: episodes) (afterCall call drawn s) :=
  .returned call h hadmitted (run_reaches (fun _ => sampleRestoreAnswer drawn) 0 call.process s)

theorem Life.finished {episodes : List Episode} {s : RestoreState} (h : Life episodes s) :
    Life episodes (finished s) := by
  unfold RestorePointService.finished
  split
  next tables heq => exact h.advanced (.finishRun _ heq)
  next => exact h

def sampleCapture : RestoreCall := .capture (sampleId 0) ['s'] "/f".toList

def runStatus (s : RestoreState) : Option WorkflowRunStatus :=
  s.tables.run.map WorkflowRunRecord.status

theorem hasStatus_of_runStatus {s : RestoreState} {status : WorkflowRunStatus}
    (h : runStatus s = some status) : HasStatus (· = status) s := by
  obtain ⟨run, hrun, hstatus⟩ := Option.map_eq_some_iff.mp h
  exact ⟨run, hrun, hstatus⟩

/-- One file is captured and the run rolled back. -/
def oneCapture : RestoreState := finished (afterCall sampleCapture 1 runningRun)

def oneRollback : RestoreState := afterCall (.rollbackRun true) 0 oneCapture

theorem oneRollback_restored :
    runStatus oneRollback = some .rolledBack ∧ RestoredWhenReported oneRollback := by
  have hcaptured := (runningRun_life.afterCall sampleCapture 1
    (hasStatus_of_runStatus rfl)).finished
  have hlife := hcaptured.afterCall (.rollbackRun true) 0 trivial
  refine ⟨by decide, (rolled_back_restored hlife ?_).1⟩
  intro episode hmem hrolls
  rcases List.mem_cons.mp hmem with rfl | hmem
  · have hfresh : oneCapture.points.all (fun point => point.status == .available) = true := by
      decide
    rintro point hpoint ⟨_, hstatus⟩
    have havailable := eq_of_beq (List.all_eq_true.mp hfresh point hpoint)
    rw [havailable] at hstatus
    rcases hstatus with hstatus | hstatus
    · cases hstatus
    · cases hstatus
  · rw [List.mem_singleton.mp hmem] at hrolls
    cases hrolls.1

/-- Two files are captured; the rollback breaks off in the middle of the first restore, and
is repeated after a restart. -/
def twoCaptures : RestoreState :=
  finished (afterCall sampleCapture 2 (afterCall sampleCapture 1 runningRun))

def brokenRollback : RestoreState :=
  (runSteps (sampleRestoreAnswer 0) 4 (RestoreCall.rollbackRun true).process twoCaptures).2

def restartedRun : RestoreState :=
  { brokenRollback with tables := WorkflowRepository.recoverInterrupted brokenRollback.tables }

def repeatedRollback : RestoreState := afterCall (.rollbackRun true) 0 restartedRun

/-- **A restore that was cut off is never made up for**, and the run is reported as rolled
back. -/
theorem interruptedRollback_forgotten :
    ∃ episodes, Life episodes repeatedRollback
      ∧ ¬ RestoredWhenReported repeatedRollback ∧ ¬ Reattempted episodes := by
  have hfirst := runningRun_life.afterCall sampleCapture 1 (hasStatus_of_runStatus rfl)
  have hsecond : Life (_ :: _) twoCaptures := (hfirst.afterCall sampleCapture 2
    (hasStatus_of_runStatus (by decide))).finished
  have hbroken : Life (_ :: _) brokenRollback := hsecond.brokenOff (.rollbackRun true) trivial
    (runSteps_reaches (sampleRestoreAnswer 0) 4 (RestoreCall.rollbackRun true).process twoCaptures)
  have hrestarted : Life (_ :: _) restartedRun := hbroken.restarted
  have hlife := hrestarted.afterCall (.rollbackRun true) 0 trivial
  have hstuck : repeatedRollback.points.any (fun point =>
      repeatedRollback.captured.contains point.id && point.status == .rollingBack) = true := by
    decide
  refine ⟨_, hlife, fun hrestored => ?_, fun hreattempted => ?_⟩
  · obtain ⟨point, hpoint, hboth⟩ := List.any_eq_true.mp hstuck
    obtain ⟨hcaptured, hstatus⟩ := Bool.and_eq_true_iff.mp hboth
    have hsettled := hrestored (hasStatus_of_runStatus (by decide)) point hpoint
      (List.contains_iff_mem.mp hcaptured)
    rw [eq_of_beq hstatus] at hsettled
    rcases hsettled with hsettled | hsettled
    · cases hsettled
    · cases hsettled
  · have hforgotten : restartedRun.points.any (fun point =>
        restartedRun.captured.contains point.id && point.status == .rollingBack
          && restartedRun.attempted.count point.id == repeatedRollback.attempted.count point.id)
        = true := by
      decide
    obtain ⟨point, hpoint, hall⟩ := List.any_eq_true.mp hforgotten
    obtain ⟨hboth, hcount⟩ := Bool.and_eq_true_iff.mp hall
    obtain ⟨hcaptured, hstatus⟩ := Bool.and_eq_true_iff.mp hboth
    have hallowed : HasStatus (mayRollBack · = true) restartedRun := by
      obtain ⟨run, hrun, hsucceeded⟩ :=
        hasStatus_of_runStatus (show runStatus restartedRun = some .succeeded by decide)
      exact ⟨run, hrun, hsucceeded ▸ rfl⟩
    have hmore : restartedRun.attempted.count point.id < repeatedRollback.attempted.count point.id :=
      hreattempted _ List.mem_cons_self ⟨rfl, hallowed⟩ rfl point hpoint
        ⟨List.contains_iff_mem.mp hcaptured, Or.inr (eq_of_beq hstatus)⟩
    rw [eq_of_beq hcount] at hmore
    exact absurd hmore (Nat.lt_irrefl _)

end QingzhouSSH.Services.RestorePointService
