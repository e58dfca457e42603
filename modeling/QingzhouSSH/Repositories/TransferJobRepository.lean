/-
  QingzhouSSH.Repositories.TransferJobRepository — the table of transfer jobs.

  Every function is one statement or transaction of the repository.  A statement that
  the database refuses changes nothing, so it does not appear among the operations.

  Main results:
    * `apply_eq`, `row_change` — what one operation does to each row;
    * `attempts_bounded_and_exclusive` — attempts are counted, and no two of them are one;
    * `limit_kept_iff` — when no server has more than two jobs at work.
-/
import Mathlib.Data.List.Nodup
import QingzhouSSH.Core.Error
import QingzhouSSH.Domain.TransferJob
import QingzhouSSH.Lib.History

namespace QingzhouSSH.Repositories.TransferJobRepository

open QingzhouSSH.Domain
open QingzhouSSH.Lib

/-- The rows in the order of insertion. -/
abbrev Jobs := List TransferJob

structure TransferJobFinish where
  status : TransferJobStatus
  retryable : Bool
  errorCategory : Option Text
  errorMessage : Option Text
  sha256 : Option Text
  location : Option Text
  deriving DecidableEq

inductive CancelTransferAction where
  | cancelledQueued
  | signalExecution (executionId : Uuid)
  | awaitExecutionId
  deriving DecidableEq

/-! ## §1. Reading. -/

def get (id : Uuid) (jobs : Jobs) : Option TransferJob := jobs.find? fun job => job.id == id

def require (id : Uuid) (jobs : Jobs) : AppResult TransferJob :=
  match get id jobs with
  | some job => .ok job
  | none => .error (.validation "传输任务不存在".toList)

/-- `COUNT(*)` of the active jobs of a server. -/
def activeOn (serverId : Text) (jobs : Jobs) : Nat :=
  jobs.countP fun job => job.serverId == serverId && job.status.isActive

/-- `ORDER BY created_at,id`. -/
def comesBefore (a b : TransferJob) : Bool :=
  a.createdAt < b.createdAt || a.createdAt == b.createdAt && a.id.text < b.id.text

/-- The first job in that order. -/
def firstOf : Jobs → Option TransferJob
  | [] => none
  | job :: rest =>
      match firstOf rest with
      | some other => if comesBefore other job then some other else some job
      | none => some job

/-- The condition of `next_runnable`. -/
def isRunnable (jobs : Jobs) (job : TransferJob) : Bool :=
  job.status == .queued && activeOn job.serverId jobs < 2

def nextRunnable (jobs : Jobs) : Option TransferJob := firstOf (jobs.filter (isRunnable jobs))

def shouldCancel (id : Uuid) (jobs : Jobs) : Bool :=
  ((get id jobs).map TransferJob.cancelRequested).getD false

/-! ## §2. Writing. -/

/-- `rows_affected` of an update. -/
def affected (id : Uuid) (guard : TransferJob → Bool) (jobs : Jobs) : Nat :=
  jobs.countP fun job => job.id == id && guard job

def update (id : Uuid) (guard : TransferJob → Bool) (f : TransferJob → TransferJob)
    (jobs : Jobs) : Jobs :=
  jobs.map fun job => if job.id == id && guard job then f job else job

/-- `validate_draft`. -/
def validateDraft (draft : NewTransferJob) : AppResult Unit :=
  if isBlankText draft.serverId || isBlankText draft.sourcePath || isBlankText draft.targetPath
      || draft.sourcePath.contains '\x00' || draft.targetPath.contains '\x00' then
    .error (.validation "传输任务定义不完整".toList)
  else if !(["balanced".toList, "strict".toList, "transport_only".toList].contains
      draft.verification) then
    .error (.validation "传输校验策略无效".toList)
  else .ok ()

/-- The row of a new job, with the defaults of the table. -/
def newJob (id : Uuid) (draft : NewTransferJob) (now : Int) : TransferJob :=
  { id := id, executionId := none, serverId := draft.serverId, direction := draft.direction,
    sourcePath := draft.sourcePath, targetPath := draft.targetPath, overwrite := draft.overwrite,
    verification := draft.verification, status := .queued, progress := .zero,
    attemptCount := 0, maxAttempts := 3, cancelRequested := false, retryable := false,
    errorCategory := none, errorMessage := none, sha256 := none, location := none,
    createdAt := now, updatedAt := now, startedAt := none, finishedAt := none }

/-- `create`, under the identifier that has been drawn, which is a primary key. -/
def create (id : Uuid) (draft : NewTransferJob) (now : Int) (jobs : Jobs) :
    AppResult TransferJob × Jobs :=
  match validateDraft draft with
  | .error e => (.error e, jobs)
  | .ok _ =>
      if jobs.any fun job => job.id == id then
        (.error (.database "UNIQUE constraint failed: transfer_jobs.id".toList), jobs)
      else (.ok (newJob id draft now), jobs ++ [newJob id draft now])

def isQueued (job : TransferJob) : Bool := job.status == .queued

def isActive (job : TransferJob) : Bool := job.status.isActive

def claimRow (now : Int) (job : TransferJob) : TransferJob :=
  { job with
    status := .connecting, attemptCount := job.attemptCount + 1, cancelRequested := false,
    retryable := false, errorCategory := none, errorMessage := none, sha256 := none,
    location := none, progress := .zero, startedAt := job.startedAt.or (some now),
    finishedAt := none, updatedAt := now }

def claim (id : Uuid) (now : Int) (jobs : Jobs) : Bool × Jobs :=
  (affected id isQueued jobs == 1, update id isQueued (claimRow now) jobs)

def setExecutionRow (executionId : Uuid) (now : Int) (job : TransferJob) : TransferJob :=
  { job with executionId := some executionId, updatedAt := now }

def setExecution (id executionId : Uuid) (now : Int) (jobs : Jobs) : Bool × Jobs :=
  (affected id isActive jobs == 1, update id isActive (setExecutionRow executionId now) jobs)

/-- `to_i64`. -/
def toI64 (value : Nat) (label : Text) : AppResult Unit :=
  if value < 2 ^ 63 then .ok () else .error (.validation (label ++ "超出范围".toList))

/-- The counts of a progress report fit into the columns. -/
def checkProgress (progress : TransferProgress) : AppResult Unit := do
  toI64 progress.transferred "已传输字节数".toList
  toI64 (progress.total.getD 0) "文件总字节数".toList
  toI64 (progress.etaSeconds.getD 0) "预计剩余秒数".toList

def progressRow (status : TransferJobStatus) (progress : TransferProgress) (now : Int)
    (job : TransferJob) : TransferJob :=
  { job with status := status, progress := progress, updatedAt := now }

@[simp] theorem progressRow_status (status : TransferJobStatus) (progress : TransferProgress)
    (now : Int) (job : TransferJob) : (progressRow status progress now job).status = status :=
  rfl

def updateProgress (id : Uuid) (status : TransferJobStatus) (progress : TransferProgress)
    (now : Int) (jobs : Jobs) : AppResult Unit × Jobs :=
  if status.isActive then
    match checkProgress progress with
    | .error e => (.error e, jobs)
    | .ok _ => (.ok (), update id isActive (progressRow status progress now) jobs)
  else (.error (.validation "传输进度状态无效".toList), jobs)

def finishRow (result : TransferJobFinish) (now : Int) (job : TransferJob) : TransferJob :=
  { job with
    status := result.status, retryable := result.retryable, errorCategory := result.errorCategory,
    errorMessage := capUtf8 result.errorMessage (8 * 1024), sha256 := result.sha256,
    location := result.location,
    progress := { job.progress with
      percent := if result.status = .succeeded then some 100 else job.progress.percent },
    finishedAt := some now, updatedAt := now }

@[simp] theorem finishRow_status (result : TransferJobFinish) (now : Int) (job : TransferJob) :
    (finishRow result now job).status = result.status :=
  rfl

def finish (id : Uuid) (result : TransferJobFinish) (now : Int) (jobs : Jobs) :
    AppResult Unit × Jobs :=
  if result.status.isTerminal then
    (if affected id isActive jobs = 1 then .ok () else .error (.validation "传输任务已经结束".toList),
     update id isActive (finishRow result now) jobs)
  else (.error (.validation "传输任务终态无效".toList), jobs)

def cancelQueuedRow (now : Int) (job : TransferJob) : TransferJob :=
  { job with status := .cancelled, cancelRequested := true, retryable := false,
             finishedAt := some now, updatedAt := now }

def cancelActiveRow (now : Int) (job : TransferJob) : TransferJob :=
  { job with cancelRequested := true, updatedAt := now }

def requestCancel (id : Uuid) (now : Int) (jobs : Jobs) :
    AppResult CancelTransferAction × Jobs :=
  match get id jobs with
  | none => (.error (.validation "传输任务不存在".toList), jobs)
  | some job =>
      if job.status = .queued then
        (.ok .cancelledQueued, update id isQueued (cancelQueuedRow now) jobs)
      else if job.status.isActive then
        (.ok (match job.executionId with
          | some executionId => .signalExecution executionId
          | none => .awaitExecutionId),
         update id (fun _ => true) (cancelActiveRow now) jobs)
      else (.error (.validation "传输任务已经结束".toList), jobs)

def canRetry (job : TransferJob) : Bool :=
  (job.status == .failed || job.status == .uncertain) && job.retryable
    && job.attemptCount < job.maxAttempts

def retryRow (now : Int) (job : TransferJob) : TransferJob :=
  { job with status := .queued, executionId := none, cancelRequested := false,
             retryable := false, errorCategory := none, errorMessage := none,
             finishedAt := none, updatedAt := now }

def retry (id : Uuid) (now : Int) (jobs : Jobs) : AppResult TransferJob × Jobs :=
  let jobs' := update id canRetry (retryRow now) jobs
  (if affected id canRetry jobs = 1 then require id jobs'
    else .error (.validation "该传输不能重试或已达到重试上限".toList), jobs')

def canRequeue (job : TransferJob) : Bool :=
  job.status == .failed && job.retryable && job.attemptCount < job.maxAttempts

def requeueRow (now : Int) (job : TransferJob) : TransferJob :=
  { job with status := .queued, executionId := none, cancelRequested := false,
             errorCategory := none, errorMessage := none, finishedAt := none, updatedAt := now }

def requeueAutomatically (id : Uuid) (now : Int) (jobs : Jobs) : Bool × Jobs :=
  (affected id canRequeue jobs == 1, update id canRequeue (requeueRow now) jobs)

def interruptRow (now : Int) (job : TransferJob) : TransferJob :=
  { job with status := .uncertain, retryable := true,
             errorCategory := some "interrupted".toList,
             errorMessage := some "应用退出时传输结果未能确认".toList,
             finishedAt := some now, updatedAt := now }

def recoverInterrupted (now : Int) (jobs : Jobs) : Nat × Jobs :=
  (jobs.countP isActive, jobs.map fun job => if isActive job then interruptRow now job else job)

/-! ## §3. Operations and their effect on a row. -/

/-- The calls that write, with what they are given. -/
inductive Operation where
  | create (id : Uuid) (draft : NewTransferJob) (now : Int)
  | claim (id : Uuid) (now : Int)
  | setExecution (id executionId : Uuid) (now : Int)
  | updateProgress (id : Uuid) (status : TransferJobStatus) (progress : TransferProgress)
      (now : Int)
  | finish (id : Uuid) (result : TransferJobFinish) (now : Int)
  | requestCancel (id : Uuid) (now : Int)
  | retry (id : Uuid) (now : Int)
  | requeueAutomatically (id : Uuid) (now : Int)
  | recoverInterrupted (now : Int)
  deriving DecidableEq

def Operation.apply : Operation → Jobs → Jobs
  | .create id draft now, jobs => (TransferJobRepository.create id draft now jobs).2
  | .claim id now, jobs => (TransferJobRepository.claim id now jobs).2
  | .setExecution id executionId now, jobs =>
      (TransferJobRepository.setExecution id executionId now jobs).2
  | .updateProgress id status progress now, jobs =>
      (TransferJobRepository.updateProgress id status progress now jobs).2
  | .finish id result now, jobs => (TransferJobRepository.finish id result now jobs).2
  | .requestCancel id now, jobs => (TransferJobRepository.requestCancel id now jobs).2
  | .retry id now, jobs => (TransferJobRepository.retry id now jobs).2
  | .requeueAutomatically id now, jobs =>
      (TransferJobRepository.requeueAutomatically id now jobs).2
  | .recoverInterrupted now, jobs => (TransferJobRepository.recoverInterrupted now jobs).2

/-- What a call does to the row of a job. -/
def Operation.row (operation : Operation) (job : TransferJob) : TransferJob :=
  match operation with
  | .create _ _ _ => job
  | .claim id now => if job.id = id ∧ isQueued job then claimRow now job else job
  | .setExecution id executionId now =>
      if job.id = id ∧ isActive job then setExecutionRow executionId now job else job
  | .updateProgress id status progress now =>
      if (status.isActive ∧ (checkProgress progress).toBool) ∧ job.id = id ∧ isActive job then
        progressRow status progress now job
      else job
  | .finish id result now =>
      if result.status.isTerminal ∧ job.id = id ∧ isActive job then finishRow result now job
      else job
  | .requestCancel id now =>
      if job.id = id ∧ isQueued job then cancelQueuedRow now job
      else if job.id = id ∧ isActive job then cancelActiveRow now job
      else job
  | .retry id now => if job.id = id ∧ canRetry job then retryRow now job else job
  | .requeueAutomatically id now =>
      if job.id = id ∧ canRequeue job then requeueRow now job else job
  | .recoverInterrupted now => if isActive job then interruptRow now job else job

/-- The row a call adds. -/
def Operation.added (operation : Operation) (jobs : Jobs) : Jobs :=
  match operation with
  | .create id draft now =>
      if (validateDraft draft).toBool ∧ (jobs.any fun job => job.id == id) = false then
        [newJob id draft now]
      else []
  | _ => []

/-- The identifier is a primary key. -/
def Unique (jobs : Jobs) : Prop := (jobs.map TransferJob.id).Nodup

theorem update_eq (id : Uuid) (guard : TransferJob → Bool) (f : TransferJob → TransferJob)
    (jobs : Jobs) :
    update id guard f jobs = jobs.map fun job => if job.id = id ∧ guard job then f job else job := by
  unfold update
  refine List.map_congr_left fun job _ => ?_
  simp only [Bool.and_eq_true, beq_iff_eq]

theorem get_some {id : Uuid} {jobs : Jobs} {job : TransferJob} (h : get id jobs = some job) :
    job ∈ jobs ∧ job.id = id := by
  unfold get at h
  have hid := List.find?_some h
  exact ⟨List.mem_of_find?_eq_some h, eq_of_beq hid⟩

theorem get_none {id : Uuid} {jobs : Jobs} (h : get id jobs = none) :
    ∀ job ∈ jobs, job.id ≠ id := by
  intro job hjob hid
  have hnot := List.find?_eq_none.mp h job hjob
  rw [hid, beq_self_eq_true] at hnot
  exact hnot rfl

theorem Unique.eq {jobs : Jobs} (h : Unique jobs) {a b : TransferJob} (ha : a ∈ jobs)
    (hb : b ∈ jobs) (hid : a.id = b.id) : a = b :=
  List.inj_on_of_nodup_map h ha hb hid

/-- The transaction of `request_cancel` changes the row that it has read. -/
theorem requestCancel_eq {jobs : Jobs} (h : Unique jobs) (id : Uuid) (now : Int) :
    (requestCancel id now jobs).2 = jobs.map (Operation.requestCancel id now).row := by
  unfold requestCancel
  cases hget : get id jobs with
  | none =>
      have hother := get_none hget
      symm
      refine (List.map_congr_left fun job hjob => ?_).trans (List.map_id jobs)
      show Operation.row (.requestCancel id now) job = job
      unfold Operation.row
      dsimp only
      rw [if_neg fun hand => hother job hjob hand.1, if_neg fun hand => hother job hjob hand.1]
  | some found =>
      obtain ⟨hfound, hid⟩ := get_some hget
      -- a row with this identifier is the row that was found
      have hsame : ∀ job ∈ jobs, job.id = id → job = found := fun job hjob hjobId =>
        h.eq hjob hfound (hjobId.trans hid.symm)
      dsimp only
      by_cases hqueued : found.status = .queued
      · rw [if_pos hqueued, update_eq]
        refine List.map_congr_left fun job hjob => ?_
        unfold Operation.row
        dsimp only
        by_cases hone : job.id = id
        · rw [hsame job hjob hone]
          have hguard : isQueued found = true := beq_iff_eq.mpr hqueued
          rw [if_pos ⟨hid, hguard⟩, if_pos ⟨hid, hguard⟩]
        · rw [if_neg fun hand => hone hand.1, if_neg fun hand => hone hand.1,
            if_neg fun hand => hone hand.1]
      · rw [if_neg hqueued]
        have hguard : ¬ isQueued found = true := fun hq => hqueued (beq_iff_eq.mp hq)
        by_cases hactive : found.status.isActive = true
        · rw [if_pos hactive, update_eq]
          refine List.map_congr_left fun job hjob => ?_
          unfold Operation.row
          dsimp only
          by_cases hone : job.id = id
          · rw [hsame job hjob hone, if_pos ⟨hid, rfl⟩, if_neg fun hand => hguard hand.2,
              if_pos ⟨hid, hactive⟩]
          · rw [if_neg fun hand => hone hand.1, if_neg fun hand => hone hand.1,
              if_neg fun hand => hone hand.1]
        · rw [if_neg hactive]
          symm
          refine (List.map_congr_left fun job hjob => ?_).trans (List.map_id jobs)
          show Operation.row (.requestCancel id now) job = job
          unfold Operation.row
          dsimp only
          by_cases hone : job.id = id
          · rw [hsame job hjob hone, if_neg fun hand => hguard hand.2,
              if_neg fun hand => hactive hand.2]
          · rw [if_neg fun hand => hone hand.1, if_neg fun hand => hone hand.1]

/-- **Every call changes each row by itself, and `create` adds one.** -/
theorem apply_eq {jobs : Jobs} (h : Unique jobs) (operation : Operation) :
    operation.apply jobs = jobs.map operation.row ++ operation.added jobs := by
  have hsame : ∀ f : TransferJob → TransferJob, (∀ job, f job = job) → jobs.map f = jobs :=
    fun f hf => (List.map_congr_left fun job _ => hf job).trans (List.map_id jobs)
  cases operation with
  | create id draft now =>
      unfold Operation.apply Operation.added create
      dsimp only
      rw [hsame (Operation.create id draft now).row fun job => rfl]
      cases hvalid : validateDraft draft with
      | error e => simp [Except.toBool]
      | ok _ =>
          dsimp only
          by_cases hused : (jobs.any fun job => job.id == id) = true
          · rw [if_pos hused, if_neg fun hand => absurd (hused.symm.trans hand.2) (by decide),
              List.append_nil]
          · rw [if_neg hused, if_pos ⟨rfl, Bool.eq_false_iff.mpr hused⟩]
  | claim id now => exact (update_eq _ _ _ _).trans (List.append_nil _).symm
  | setExecution id executionId now => exact (update_eq _ _ _ _).trans (List.append_nil _).symm
  | updateProgress id status progress now =>
      refine Eq.trans ?_ (List.append_nil _).symm
      unfold Operation.apply updateProgress
      dsimp only
      by_cases hactive : status.isActive = true
      · rw [if_pos hactive]
        cases hcheck : checkProgress progress with
        | error e =>
            refine (hsame _ fun job => ?_).symm
            unfold Operation.row
            dsimp only
            rw [hcheck]
            exact if_neg fun hand => absurd hand.1.2 (by simp [Except.toBool])
        | ok _ =>
            dsimp only
            rw [update_eq]
            refine List.map_congr_left fun job _ => ?_
            unfold Operation.row
            dsimp only
            rw [hcheck]
            by_cases hguard : job.id = id ∧ isActive job = true
            · rw [if_pos hguard, if_pos ⟨⟨hactive, rfl⟩, hguard⟩]
            · rw [if_neg hguard, if_neg fun hand => hguard hand.2]
      · rw [if_neg hactive]
        refine (hsame _ fun job => ?_).symm
        unfold Operation.row
        exact if_neg fun hand => hactive hand.1.1
  | finish id result now =>
      refine Eq.trans ?_ (List.append_nil _).symm
      unfold Operation.apply finish
      dsimp only
      by_cases hterminal : result.status.isTerminal = true
      · rw [if_pos hterminal, update_eq]
        refine List.map_congr_left fun job _ => ?_
        unfold Operation.row
        dsimp only
        by_cases hguard : job.id = id ∧ isActive job = true
        · rw [if_pos hguard, if_pos ⟨hterminal, hguard⟩]
        · rw [if_neg hguard, if_neg fun hand => hguard hand.2]
      · rw [if_neg hterminal]
        refine (hsame _ fun job => ?_).symm
        unfold Operation.row
        exact if_neg fun hand => hterminal hand.1
  | requestCancel id now => exact (requestCancel_eq h id now).trans (List.append_nil _).symm
  | retry id now => exact (update_eq _ _ _ _).trans (List.append_nil _).symm
  | requeueAutomatically id now => exact (update_eq _ _ _ _).trans (List.append_nil _).symm
  | recoverInterrupted now => exact (List.append_nil _).symm

/-- The changes of a row, and the calls that make them. -/
inductive Change : Operation → TransferJob → TransferJob → Prop where
  | claimed (now : Int) {job : TransferJob} :
      job.status = .queued → Change (.claim job.id now) job (claimRow now job)
  | executionSet (executionId : Uuid) (now : Int) {job : TransferJob} :
      job.status.isActive = true →
        Change (.setExecution job.id executionId now) job (setExecutionRow executionId now job)
  | progressed {status : TransferJobStatus} (progress : TransferProgress) (now : Int)
      {job : TransferJob} :
      status.isActive = true → job.status.isActive = true →
        Change (.updateProgress job.id status progress now) job (progressRow status progress now job)
  | finished {result : TransferJobFinish} (now : Int) {job : TransferJob} :
      result.status.isTerminal = true → job.status.isActive = true →
        Change (.finish job.id result now) job (finishRow result now job)
  | cancelledQueued (now : Int) {job : TransferJob} :
      job.status = .queued → Change (.requestCancel job.id now) job (cancelQueuedRow now job)
  | cancelAsked (now : Int) {job : TransferJob} :
      job.status.isActive = true →
        Change (.requestCancel job.id now) job (cancelActiveRow now job)
  | retried (now : Int) {job : TransferJob} :
      canRetry job = true → Change (.retry job.id now) job (retryRow now job)
  | requeued (now : Int) {job : TransferJob} :
      canRequeue job = true → Change (.requeueAutomatically job.id now) job (requeueRow now job)
  | interrupted (now : Int) {job : TransferJob} :
      job.status.isActive = true → Change (.recoverInterrupted now) job (interruptRow now job)

/-- **A call changes a row in one of these ways, or not at all.** -/
theorem row_change (operation : Operation) (job : TransferJob) :
    operation.row job = job ∨ Change operation job (operation.row job) := by
  cases operation with
  | create id draft now => exact Or.inl rfl
  | claim id now =>
      unfold Operation.row
      dsimp only
      split
      next h => exact Or.inr (h.1 ▸ .claimed now (beq_iff_eq.mp h.2))
      next => exact Or.inl rfl
  | setExecution id executionId now =>
      unfold Operation.row
      dsimp only
      split
      next h => exact Or.inr (h.1 ▸ .executionSet executionId now h.2)
      next => exact Or.inl rfl
  | updateProgress id status progress now =>
      unfold Operation.row
      dsimp only
      split
      next h => exact Or.inr (h.2.1 ▸ .progressed progress now h.1.1 h.2.2)
      next => exact Or.inl rfl
  | finish id result now =>
      unfold Operation.row
      dsimp only
      split
      next h => exact Or.inr (h.2.1 ▸ .finished now h.1 h.2.2)
      next => exact Or.inl rfl
  | requestCancel id now =>
      unfold Operation.row
      dsimp only
      split
      next h => exact Or.inr (h.1 ▸ .cancelledQueued now (beq_iff_eq.mp h.2))
      next =>
        split
        next h => exact Or.inr (h.1 ▸ .cancelAsked now h.2)
        next => exact Or.inl rfl
  | retry id now =>
      unfold Operation.row
      dsimp only
      split
      next h => exact Or.inr (h.1 ▸ .retried now h.2)
      next => exact Or.inl rfl
  | requeueAutomatically id now =>
      unfold Operation.row
      dsimp only
      split
      next h => exact Or.inr (h.1 ▸ .requeued now h.2)
      next => exact Or.inl rfl
  | recoverInterrupted now =>
      unfold Operation.row
      dsimp only
      split
      next h => exact Or.inr (.interrupted now h)
      next => exact Or.inl rfl

/-! ## §4. Invariants of a row. -/

theorem Change.keeps {operation : Operation} {job job' : TransferJob}
    (h : Change operation job job') :
    job'.id = job.id ∧ job'.serverId = job.serverId ∧ job'.maxAttempts = job.maxAttempts
      ∧ job'.direction = job.direction := by
  cases h <;> exact ⟨rfl, rfl, rfl, rfl⟩

theorem row_keeps (operation : Operation) (job : TransferJob) :
    (operation.row job).id = job.id ∧ (operation.row job).serverId = job.serverId
      ∧ (operation.row job).maxAttempts = job.maxAttempts
      ∧ (operation.row job).direction = job.direction := by
  rcases row_change operation job with heq | hchange
  · rw [heq]
    exact ⟨rfl, rfl, rfl, rfl⟩
  · exact hchange.keeps

theorem canRetry_iff {job : TransferJob} :
    canRetry job = true ↔ (job.status = .failed ∨ job.status = .uncertain)
      ∧ job.retryable = true ∧ job.attemptCount < job.maxAttempts := by
  unfold canRetry
  simp only [Bool.and_eq_true, Bool.or_eq_true, beq_iff_eq, decide_eq_true_eq, and_assoc]

theorem canRequeue_iff {job : TransferJob} :
    canRequeue job = true ↔ job.status = .failed
      ∧ job.retryable = true ∧ job.attemptCount < job.maxAttempts := by
  unfold canRequeue
  simp only [Bool.and_eq_true, beq_iff_eq, decide_eq_true_eq, and_assoc]

/-- The attempts of a job are counted, and one that waits has another one left. -/
structure Bounded (job : TransferJob) : Prop where
  attempts : job.attemptCount ≤ job.maxAttempts
  waiting : job.status = .queued → job.attemptCount < job.maxAttempts

theorem Change.bounded {operation : Operation} {job job' : TransferJob}
    (hchange : Change operation job job') (h : Bounded job) : Bounded job' := by
  have hbusy : ∀ {status : TransferJobStatus}, status.isActive = true ∨ status.isTerminal = true →
      status ≠ .queued := by
    intro status hstatus heq
    rw [heq] at hstatus
    rcases hstatus with hstatus | hstatus <;> cases hstatus
  cases hchange with
  | claimed now hqueued => exact ⟨h.waiting hqueued, nofun⟩
  | executionSet executionId now hactive => exact ⟨h.attempts, h.waiting⟩
  | progressed progress now hstatus hactive =>
      exact ⟨h.attempts, fun heq => absurd heq (hbusy (Or.inl hstatus))⟩
  | finished now hterminal hactive =>
      exact ⟨h.attempts, fun heq => absurd heq (hbusy (Or.inr hterminal))⟩
  | cancelledQueued now hqueued => exact ⟨h.attempts, nofun⟩
  | cancelAsked now hactive => exact ⟨h.attempts, h.waiting⟩
  | retried now hretry => exact ⟨h.attempts, fun _ => (canRetry_iff.mp hretry).2.2⟩
  | requeued now hrequeue => exact ⟨h.attempts, fun _ => (canRequeue_iff.mp hrequeue).2.2⟩
  | interrupted now hactive => exact ⟨h.attempts, nofun⟩

/-- What has succeeded or was cancelled does not change. -/
theorem Change.not_settled {operation : Operation} {job job' : TransferJob}
    (hchange : Change operation job job') : ¬ (job.status = .succeeded ∨ job.status = .cancelled) := by
  have hactive : ∀ {status : TransferJobStatus}, status.isActive = true →
      ¬ (status = .succeeded ∨ status = .cancelled) := by
    intro status hstatus hor
    rcases hor with heq | heq <;> rw [heq] at hstatus <;> cases hstatus
  cases hchange with
  | claimed now hqueued | cancelledQueued now hqueued => rw [hqueued]; simp
  | executionSet executionId now h => exact hactive h
  | progressed progress now _ h => exact hactive h
  | finished now _ h => exact hactive h
  | cancelAsked now h => exact hactive h
  | retried now hretry =>
      rcases (canRetry_iff.mp hretry).1 with heq | heq <;> rw [heq] <;> simp
  | requeued now hrequeue => rw [(canRequeue_iff.mp hrequeue).1]; simp
  | interrupted now h => exact hactive h

/-- Only a claim puts a job to work. -/
theorem Change.claim_of_active {operation : Operation} {job job' : TransferJob}
    (hchange : Change operation job job') (hbefore : job.status.isActive = false)
    (hafter : job'.status.isActive = true) :
    job.status = .queued ∧ ∃ now, operation = .claim job.id now := by
  cases hchange with
  | claimed now hqueued => exact ⟨hqueued, now, rfl⟩
  | executionSet _ _ h => exact absurd h (by rw [hbefore]; decide)
  | progressed _ _ _ h => exact absurd h (by rw [hbefore]; decide)
  | finished now _ h => exact absurd h (by rw [hbefore]; decide)
  | cancelledQueued now hqueued => cases hafter
  | cancelAsked now h => exact absurd h (by rw [hbefore]; decide)
  | retried now hretry => cases hafter
  | requeued now hrequeue => cases hafter
  | interrupted now h => cases hafter

/-- Only a retry lets a job wait again. -/
theorem Change.retried_of_queued {operation : Operation} {job job' : TransferJob}
    (hchange : Change operation job job') (hbefore : job.status ≠ .queued)
    (hafter : job'.status = .queued) :
    (∃ now, operation = .retry job.id now) ∧ canRetry job = true
      ∨ (∃ now, operation = .requeueAutomatically job.id now) ∧ canRequeue job = true := by
  cases hchange with
  | claimed now hqueued => cases hafter
  | executionSet _ _ h => exact absurd hafter hbefore
  | progressed _ _ h _ =>
      rw [progressRow_status] at hafter
      rw [hafter] at h
      cases h
  | finished now h _ =>
      rw [finishRow_status] at hafter
      rw [hafter] at h
      cases h
  | cancelledQueued now hqueued => cases hafter
  | cancelAsked now h => exact absurd hafter hbefore
  | retried now hretry => exact Or.inl ⟨⟨now, rfl⟩, hretry⟩
  | requeued now hrequeue => exact Or.inr ⟨⟨now, rfl⟩, hrequeue⟩
  | interrupted now h => cases hafter

/-! ## §5. Runs. -/

/-- The table after these calls, the latest first. -/
def replay : List Operation → Jobs := History.replay Operation.apply []

theorem replay_cons (operation : Operation) (earlier : List Operation) :
    replay (operation :: earlier) = operation.apply (replay earlier) :=
  rfl

theorem Unique.apply {jobs : Jobs} (h : Unique jobs) (operation : Operation) :
    Unique (operation.apply jobs) := by
  rw [apply_eq h]
  unfold Unique
  have hids : (jobs.map operation.row).map TransferJob.id = jobs.map TransferJob.id := by
    rw [List.map_map]
    exact List.map_congr_left fun job _ => (row_keeps operation job).1
  rw [List.map_append, hids]
  cases operation with
  | create id draft now =>
      unfold Operation.added
      dsimp only
      split
      next hfresh =>
        -- the new identifier is not in the table
        refine List.nodup_append.mpr ⟨h, List.nodup_singleton _, ?_⟩
        intro old hold new hnew heq
        obtain ⟨job, hjob, hid⟩ := List.mem_map.mp hold
        have hnone := List.any_eq_false.mp hfresh.2 job hjob
        rw [hid, heq, List.mem_singleton.mp hnew] at hnone
        exact hnone (beq_self_eq_true _)
      next =>
        rw [List.map_nil, List.append_nil]
        exact h
  | claim | setExecution | updateProgress | finish | requestCancel | retry | requeueAutomatically
  | recoverInterrupted =>
      rw [show Operation.added _ jobs = [] from rfl, List.map_nil, List.append_nil]
      exact h

theorem Unique.nil : Unique [] := List.nodup_nil

theorem replay_unique (trace : List Operation) : Unique (replay trace) :=
  History.replay_keeps Unique.nil (fun operation _ h => Unique.apply h operation) trace

/-- The rows after one more call. -/
theorem replay_step (operation : Operation) (earlier : List Operation) :
    replay (operation :: earlier)
      = (replay earlier).map operation.row ++ operation.added (replay earlier) := by
  rw [replay_cons, apply_eq (replay_unique earlier)]

theorem mem_added {operation : Operation} {jobs : Jobs} {job : TransferJob}
    (h : job ∈ operation.added jobs) : ∃ id draft now, job = newJob id draft now := by
  cases operation with
  | create id draft now =>
      unfold Operation.added at h
      dsimp only at h
      split at h
      next => exact ⟨id, draft, now, List.mem_singleton.mp h⟩
      next => exact absurd h List.not_mem_nil
  | claim | setExecution | updateProgress | finish | requestCancel | retry | requeueAutomatically
  | recoverInterrupted => exact absurd h List.not_mem_nil

/-- What every change keeps and every new row has, every row has. -/
theorem replay_rows {P : TransferJob → Prop} (hnew : ∀ id draft now, P (newJob id draft now))
    (hchange : ∀ operation job job', Change operation job job' → P job → P job')
    (trace : List Operation) : ∀ job ∈ replay trace, P job := by
  induction trace with
  | nil => exact fun job hjob => absurd hjob List.not_mem_nil
  | cons operation earlier ih =>
      intro job hjob
      rw [replay_step] at hjob
      rcases List.mem_append.mp hjob with hjob | hjob
      · obtain ⟨old, hold, rfl⟩ := List.mem_map.mp hjob
        rcases row_change operation old with heq | hone
        · rw [heq]
          exact ih old hold
        · exact hchange operation old _ hone (ih old hold)
      · obtain ⟨id, draft, now, rfl⟩ := mem_added hjob
        exact hnew id draft now

theorem replay_bounded (trace : List Operation) : ∀ job ∈ replay trace, Bounded job :=
  replay_rows (fun id draft now => ⟨Nat.zero_le 3, fun _ => by show 0 < 3; omega⟩)
    (fun _ _ _ hchange => hchange.bounded) trace

/-- The row of a job after later calls. -/
theorem mem_replay_step {operation : Operation} {earlier : List Operation} {job : TransferJob}
    (h : job ∈ replay earlier) : operation.row job ∈ replay (operation :: earlier) := by
  rw [replay_step]
  exact List.mem_append_left _ (List.mem_map_of_mem h)

theorem get_eq_some {jobs : Jobs} (h : Unique jobs) {id : Uuid} {job : TransferJob} :
    get id jobs = some job ↔ job ∈ jobs ∧ job.id = id := by
  constructor
  · exact get_some
  · rintro ⟨hjob, hid⟩
    cases hget : get id jobs with
    | none => exact absurd hid (get_none hget job hjob)
    | some found =>
        obtain ⟨hfound, hfoundId⟩ := get_some hget
        rw [h.eq hfound hjob (hfoundId.trans hid.symm)]

/-- Before a call the row of a job is the one the call has changed, or there was none. -/
theorem get_replay_step {operation : Operation} {earlier : List Operation} {id : Uuid}
    {job : TransferJob} (h : get id (replay earlier) = some job) :
    get id (replay (operation :: earlier)) = some (operation.row job) := by
  obtain ⟨hjob, hid⟩ := get_some h
  exact (get_eq_some (replay_unique _)).mpr
    ⟨mem_replay_step hjob, (row_keeps operation job).1.trans hid⟩

/-- A row is what the call has made of an earlier row, or it is new. -/
theorem get_replay_cons {operation : Operation} {earlier : List Operation} {id : Uuid}
    {job' : TransferJob} (h : get id (replay (operation :: earlier)) = some job') :
    (∃ job, get id (replay earlier) = some job ∧ job' = operation.row job)
      ∨ ∃ newId draft now, job' = newJob newId draft now := by
  obtain ⟨hjob', hid⟩ := get_some h
  rw [replay_step] at hjob'
  rcases List.mem_append.mp hjob' with hjob' | hjob'
  · obtain ⟨job, hjob, rfl⟩ := List.mem_map.mp hjob'
    have hjobId : job.id = id := (row_keeps operation job).1.symm.trans hid
    exact Or.inl ⟨job, (get_eq_some (replay_unique earlier)).mpr ⟨hjob, hjobId⟩, rfl⟩
  · exact Or.inr (mem_added hjob')

/-- A job stays in the table. -/
theorem get_replay_later {earlier : List Operation} {id : Uuid} {job : TransferJob}
    (h : get id (replay earlier) = some job) (later : List Operation) :
    ∃ job', get id (replay (later ++ earlier)) = some job' := by
  induction later with
  | nil => exact ⟨job, h⟩
  | cons operation later ih =>
      obtain ⟨job', hjob'⟩ := ih
      exact ⟨_, get_replay_step hjob'⟩

/-- An update that reports one row has found it. -/
theorem affected_eq_one {jobs : Jobs} (h : Unique jobs) {id : Uuid} {guard : TransferJob → Bool} :
    affected id guard jobs = 1 ↔ ∃ job, get id jobs = some job ∧ guard job = true := by
  have hle : affected id guard jobs ≤ 1 := by
    have hcount : affected id guard jobs ≤ (jobs.map TransferJob.id).count id := by
      unfold affected List.count
      rw [List.countP_map]
      refine List.countP_mono_left fun job _ hboth => ?_
      exact (Bool.and_eq_true_iff.mp hboth).1
    have hone := List.nodup_iff_count_le_one.mp h id
    omega
  have hpos : 0 < affected id guard jobs ↔ ∃ job, get id jobs = some job ∧ guard job = true := by
    unfold affected
    rw [List.countP_pos_iff]
    constructor
    · rintro ⟨job, hjob, hboth⟩
      obtain ⟨hid, hguard⟩ := Bool.and_eq_true_iff.mp hboth
      exact ⟨job, (get_eq_some h).mpr ⟨hjob, eq_of_beq hid⟩, hguard⟩
    · rintro ⟨job, hget, hguard⟩
      obtain ⟨hjob, hid⟩ := get_some hget
      exact ⟨job, hjob, by rw [hid, beq_self_eq_true, hguard]; rfl⟩
  rw [← hpos]
  omega

/-! ## §6. Attempts. -/

/-- The job is in such a state. -/
def Is (P : TransferJob → Prop) (id : Uuid) (jobs : Jobs) : Prop :=
  ∃ job, get id jobs = some job ∧ P job

theorem claim_true_iff {jobs : Jobs} (h : Unique jobs) {id : Uuid} {now : Int} :
    (claim id now jobs).1 = true ↔ Is (fun job => job.status = .queued) id jobs := by
  unfold claim Is
  rw [beq_iff_eq, affected_eq_one h]
  simp only [isQueued, beq_iff_eq]

theorem finish_ok_iff {jobs : Jobs} (h : Unique jobs) {id : Uuid} {result : TransferJobFinish}
    {now : Int} :
    (finish id result now jobs).1 = .ok ()
      ↔ result.status.isTerminal = true ∧ Is (fun job => job.status.isActive = true) id jobs := by
  unfold finish Is
  by_cases hterminal : result.status.isTerminal = true
  · rw [if_pos hterminal]
    dsimp only
    rw [show (∃ job, get id jobs = some job ∧ job.status.isActive = true)
      ↔ affected id isActive jobs = 1 from (affected_eq_one h).symm]
    by_cases hone : affected id isActive jobs = 1
    · rw [if_pos hone]
      exact ⟨fun _ => ⟨hterminal, hone⟩, fun _ => rfl⟩
    · rw [if_neg hone]
      exact ⟨nofun, fun hand => absurd hand.2 hone⟩
  · rw [if_neg hterminal]
    exact ⟨nofun, fun hand => absurd hand.1 hterminal⟩

/-- A job is in the state in which a call has left it. -/
theorem is_replay_step {P : TransferJob → Prop} {operation : Operation} {earlier : List Operation}
    {id : Uuid} (h : Is (fun job => P (operation.row job)) id (replay earlier)) :
    Is P id (replay (operation :: earlier)) := by
  obtain ⟨job, hget, hrow⟩ := h
  exact ⟨operation.row job, get_replay_step hget, hrow⟩

theorem Is.unique {P : TransferJob → Prop} {id : Uuid} {jobs : Jobs} {job : TransferJob}
    (h : Is P id jobs) (hget : get id jobs = some job) : P job := by
  obtain ⟨found, hfound, hstate⟩ := h
  rw [hget] at hfound
  cases hfound
  exact hstate

/-- The call that brings a job from one state into another has changed its row. -/
theorem change_of_switch {P : TransferJob → Prop} {operation : Operation}
    {earlier : List Operation} {id : Uuid} {job : TransferJob}
    (hget : get id (replay earlier) = some job) (hbefore : ¬ P job)
    (hafter : Is P id (replay (operation :: earlier))) :
    Change operation job (operation.row job) ∧ P (operation.row job) := by
  have hstate := hafter.unique (get_replay_step hget)
  rcases row_change operation job with heq | hchange
  · exact absurd (heq ▸ hstate) hbefore
  · exact ⟨hchange, hstate⟩

theorem claimed_connecting {earlier : List Operation} {id : Uuid} {now : Int}
    (h : (claim id now (replay earlier)).1 = true) :
    Is (fun job => job.status = .connecting) id (replay (.claim id now :: earlier)) := by
  obtain ⟨job, hget, hqueued⟩ := (claim_true_iff (replay_unique _)).mp h
  refine is_replay_step ⟨job, hget, ?_⟩
  unfold Operation.row
  dsimp only
  rw [if_pos ⟨(get_some hget).2, beq_iff_eq.mpr hqueued⟩]
  rfl

theorem finished_terminal {earlier : List Operation} {id : Uuid} {result : TransferJobFinish}
    {now : Int} (h : (finish id result now (replay earlier)).1 = .ok ()) :
    Is (fun job => job.status.isTerminal = true) id (replay (.finish id result now :: earlier)) := by
  obtain ⟨hterminal, job, hget, hactive⟩ := (finish_ok_iff (replay_unique _)).mp h
  refine is_replay_step ⟨job, hget, ?_⟩
  unfold Operation.row
  dsimp only
  rw [if_pos ⟨hterminal, (get_some hget).2, hactive⟩]
  exact hterminal

/-- The call lets a job wait again that did not wait. -/
def Requeues (operation : Operation) (id : Uuid) (earlier : List Operation) : Prop :=
  ((∃ now, operation = .retry id now) ∧ Is (fun job => canRetry job = true) id (replay earlier)
    ∨ (∃ now, operation = .requeueAutomatically id now)
      ∧ Is (fun job => canRequeue job = true) id (replay earlier))

theorem claims_apart {id : Uuid} {later earlier : List Operation} {now now' : Int}
    (hfirst : (claim id now (replay earlier)).1 = true)
    (hsecond : (claim id now' (replay (later ++ .claim id now :: earlier))).1 = true) :
    ∃ after operation before, later = after ++ operation :: before
      ∧ Requeues operation id (before ++ .claim id now :: earlier) := by
  have hat := claimed_connecting hfirst
  obtain ⟨job, hget, hconnecting⟩ := hat
  have hbefore : ¬ Is (fun job => job.status = .queued) id
      (replay (.claim id now :: earlier)) := by
    intro hqueued
    have hstatus := hqueued.unique hget
    rw [hconnecting] at hstatus
    cases hstatus
  have hafter := (claim_true_iff (replay_unique _)).mp hsecond
  obtain ⟨after, operation, before, rfl, hnot, hqueued⟩ :=
    History.exists_switch (P := Is (fun job => job.status = .queued) id) hbefore hafter
  refine ⟨after, operation, before, rfl, ?_⟩
  obtain ⟨job', hget'⟩ := get_replay_later hget before
  obtain ⟨hchange, hstate⟩ := change_of_switch hget' (fun h => hnot ⟨job', hget', h⟩) hqueued
  have hid := (get_some hget').2
  rcases hchange.retried_of_queued (fun h => hnot ⟨job', hget', h⟩) hstate with
    ⟨⟨time, rfl⟩, hcan⟩ | ⟨⟨time, rfl⟩, hcan⟩
  · exact Or.inl ⟨⟨time, by rw [hid]⟩, job', hget', hcan⟩
  · exact Or.inr ⟨⟨time, by rw [hid]⟩, job', hget', hcan⟩

theorem finishes_apart {id : Uuid} {later earlier : List Operation}
    {result result' : TransferJobFinish} {now now' : Int}
    (hfirst : (finish id result now (replay earlier)).1 = .ok ())
    (hsecond : (finish id result' now' (replay (later ++ .finish id result now :: earlier))).1
      = .ok ()) :
    ∃ after before time, later = after ++ .claim id time :: before
      ∧ (claim id time (replay (before ++ .finish id result now :: earlier))).1 = true := by
  obtain ⟨job, hget, hterminal⟩ := finished_terminal hfirst
  have hbefore : ¬ Is (fun job => job.status.isActive = true) id
      (replay (.finish id result now :: earlier)) := by
    intro hactive
    have hstatus := hactive.unique hget
    rw [TransferJobStatus.not_active_of_terminal hterminal] at hstatus
    cases hstatus
  have hafter := ((finish_ok_iff (replay_unique _)).mp hsecond).2
  obtain ⟨after, operation, before, rfl, hnot, hactive⟩ :=
    History.exists_switch (P := Is (fun job => job.status.isActive = true) id) hbefore hafter
  obtain ⟨job', hget'⟩ := get_replay_later hget before
  have hidle : job'.status.isActive = false :=
    Bool.eq_false_iff.mpr fun h => hnot ⟨job', hget', h⟩
  obtain ⟨hchange, hstate⟩ := change_of_switch hget' (fun h => hnot ⟨job', hget', h⟩) hactive
  obtain ⟨hqueued, time, rfl⟩ := hchange.claim_of_active hidle hstate
  have hid := (get_some hget').2
  refine ⟨after, before, time, by rw [hid], ?_⟩
  exact (claim_true_iff (replay_unique _)).mpr ⟨job', hget', hqueued⟩

theorem settled_stays {earlier : List Operation} {job : TransferJob} (h : job ∈ replay earlier)
    (hsettled : job.status = .succeeded ∨ job.status = .cancelled) (later : List Operation) :
    job ∈ replay (later ++ earlier) := by
  induction later with
  | nil => exact h
  | cons operation later ih =>
      have hrow : operation.row job ∈ replay (operation :: (later ++ earlier)) := mem_replay_step ih
      rcases row_change operation job with heq | hchange
      · rw [heq] at hrow
        exact hrow
      · exact absurd hsettled hchange.not_settled

/-- **Attempts are bounded and exclusive**, in every sequence of calls: no job has more than
it may have; between two claims of a job it was queued again, and between two ends of it
it was claimed; and what has succeeded or was cancelled never changes. -/
theorem attempts_bounded_and_exclusive (trace : List Operation) :
    (∀ job ∈ replay trace, job.attemptCount ≤ job.maxAttempts)
    ∧ (∀ id now now' later middle earlier,
        trace = later ++ .claim id now' :: (middle ++ .claim id now :: earlier) →
        (claim id now (replay earlier)).1 = true →
        (claim id now' (replay (middle ++ .claim id now :: earlier))).1 = true →
        ∃ after operation before, middle = after ++ operation :: before
          ∧ Requeues operation id (before ++ .claim id now :: earlier))
    ∧ (∀ id result result' now now' later middle earlier,
        trace = later ++ .finish id result' now' :: (middle ++ .finish id result now :: earlier) →
        (finish id result now (replay earlier)).1 = .ok () →
        (finish id result' now' (replay (middle ++ .finish id result now :: earlier))).1 = .ok () →
        ∃ after before time, middle = after ++ .claim id time :: before
          ∧ (claim id time (replay (before ++ .finish id result now :: earlier))).1 = true)
    ∧ ∀ later earlier, trace = later ++ earlier → ∀ job ∈ replay earlier,
        (job.status = .succeeded ∨ job.status = .cancelled) → job ∈ replay trace := by
  refine ⟨fun job hjob => (replay_bounded trace job hjob).attempts, ?_, ?_, ?_⟩
  · intro id now now' later middle earlier _ hfirst hsecond
    exact claims_apart hfirst hsecond
  · intro id result result' now now' later middle earlier _ hfirst hsecond
    exact finishes_apart hfirst hsecond
  · intro later earlier heq job hjob hsettled
    rw [heq]
    exact settled_stays hjob hsettled later

/-! ## §7. The limit for a server. -/

/-- A change of one row is counted once. -/
theorem countP_map_one {p : TransferJob → Bool} {f : TransferJob → TransferJob} {jobs : Jobs}
    (h : Unique jobs) {job : TransferJob} (hjob : job ∈ jobs)
    (hother : ∀ other ∈ jobs, other.id ≠ job.id → p (f other) = p other)
    (hbefore : p job = false) (hafter : p (f job) = true) :
    (jobs.map f).countP p = jobs.countP p + 1 := by
  induction jobs with
  | nil => exact absurd hjob List.not_mem_nil
  | cons first rest ih =>
      obtain ⟨hfirst, hrest⟩ := List.nodup_cons.mp h
      rw [List.map_cons]
      rcases List.mem_cons.mp hjob with rfl | hjob
      · -- the other rows have other identifiers
        have hsame : (rest.map f).countP p = rest.countP p := by
          rw [List.countP_map]
          refine List.countP_congr fun other hmem => ?_
          have hne : other.id ≠ job.id := fun heq => hfirst (List.mem_map.mpr ⟨other, hmem, heq⟩)
          show p (f other) = true ↔ p other = true
          rw [hother other (List.mem_cons_of_mem _ hmem) hne]
        rw [List.countP_cons_of_pos hafter, List.countP_cons_of_neg (by rw [hbefore]; decide), hsame]
      · have hne : first.id ≠ job.id := fun heq =>
          hfirst (List.mem_map.mpr ⟨job, hjob, heq.symm⟩)
        have hcount := ih hrest hjob fun other hmem => hother other (List.mem_cons_of_mem _ hmem)
        have hhead := hother first List.mem_cons_self hne
        rw [List.countP_cons, List.countP_cons, hhead, hcount]
        omega

theorem added_not_active {operation : Operation} {jobs : Jobs} (serverId : Text) :
    activeOn serverId (operation.added jobs) = 0 := by
  refine List.countP_eq_zero.mpr fun job hjob => ?_
  obtain ⟨id, draft, now, rfl⟩ := mem_added hjob
  rw [show (newJob id draft now).status.isActive = false from rfl, Bool.and_false]
  decide

/-- No call but a claim puts more jobs to work. -/
theorem activeOn_step_le {operation : Operation} {earlier : List Operation} (serverId : Text)
    (hclaim : ∀ id now, operation = .claim id now → (claim id now (replay earlier)).1 = false) :
    activeOn serverId (replay (operation :: earlier)) ≤ activeOn serverId (replay earlier) := by
  rw [replay_step]
  show List.countP _ (_ ++ _) ≤ _
  rw [List.countP_append]
  have hadded : activeOn serverId (operation.added (replay earlier)) = 0 :=
    added_not_active serverId
  have hle : ((replay earlier).map operation.row).countP
      (fun job => job.serverId == serverId && job.status.isActive)
        ≤ activeOn serverId (replay earlier) := by
    rw [List.countP_map]
    refine List.countP_mono_left fun job hjob hactive => ?_
    obtain ⟨hserver, hactive⟩ := Bool.and_eq_true_iff.mp hactive
    rw [(row_keeps operation job).2.1] at hserver
    rcases row_change operation job with heq | hchange
    · rw [heq] at hactive
      rw [hserver, hactive]
      rfl
    · by_cases hbefore : job.status.isActive = true
      · rw [hserver, hbefore]
        rfl
      · -- the job has just been claimed
        obtain ⟨hqueued, now, rfl⟩ := hchange.claim_of_active (Bool.eq_false_iff.mpr hbefore) hactive
        have hget := (get_eq_some (replay_unique earlier)).mpr ⟨hjob, rfl⟩
        have htrue : (claim job.id now (replay earlier)).1 = true :=
          (claim_true_iff (replay_unique earlier)).mpr ⟨job, hget, hqueued⟩
        rw [hclaim job.id now rfl] at htrue
        cases htrue
  show List.countP _ _ + activeOn serverId _ ≤ _
  rw [hadded]
  exact hle

/-- A claim puts one job of its server to work, and none of another. -/
theorem activeOn_claim {earlier : List Operation} {id : Uuid} {now : Int} {job : TransferJob}
    (hget : get id (replay earlier) = some job) (hqueued : job.status = .queued)
    (serverId : Text) :
    activeOn serverId (replay (.claim id now :: earlier))
      = activeOn serverId (replay earlier) + if job.serverId = serverId then 1 else 0 := by
  obtain ⟨hjob, hid⟩ := get_some hget
  have hrow : ∀ other : TransferJob, other.id ≠ job.id →
      (Operation.claim id now).row other = other := by
    intro other hne
    unfold Operation.row
    exact if_neg fun hand => hne (hand.1.trans hid.symm)
  have hclaimed : (Operation.claim id now).row job = claimRow now job := by
    unfold Operation.row
    exact if_pos ⟨hid, beq_iff_eq.mpr hqueued⟩
  rw [replay_step]
  show List.countP _ (_ ++ []) = _
  rw [List.append_nil]
  by_cases hserver : job.serverId = serverId
  · rw [if_pos hserver]
    refine countP_map_one (replay_unique earlier) hjob (fun other _ hne => by rw [hrow other hne])
      ?_ ?_
    · rw [hqueued]
      exact Bool.and_false _
    · rw [hclaimed]
      show (job.serverId == serverId && true) = true
      rw [Bool.and_true, beq_iff_eq.mpr hserver]
  · rw [if_neg hserver, Nat.add_zero, List.countP_map]
    refine List.countP_congr fun other hmem => ?_
    by_cases hne : other.id = job.id
    · have hsame := (replay_unique earlier).eq hmem hjob hne
      have hno : (job.serverId == serverId) = false := beq_eq_false_iff_ne.mpr hserver
      show ((((Operation.claim id now).row other).serverId == serverId) && _) = true ↔ _
      rw [(row_keeps _ other).2.1, hsame, hno, Bool.false_and, Bool.false_and]
    · show ((((Operation.claim id now).row other).serverId == serverId) && _) = true ↔ _
      rw [hrow other hne]

/-- Two jobs of a server are at work at most, and so it has been all the time. -/
def LimitKept (trace : List Operation) : Prop :=
  ∀ later earlier, trace = later ++ earlier →
    ∀ serverId, activeOn serverId (replay earlier) ≤ 2

/-- Whenever a job is claimed, the query of `next_runnable` would still select it. -/
def ClaimsFresh (trace : List Operation) : Prop :=
  ∀ later earlier id now, trace = later ++ .claim id now :: earlier →
    ∀ job, get id (replay earlier) = some job → job.status = .queued →
      isRunnable (replay earlier) job = true

theorem LimitKept.tail {operation : Operation} {trace : List Operation}
    (h : LimitKept (operation :: trace)) : LimitKept trace :=
  fun later earlier heq => h (operation :: later) earlier (by rw [heq]; rfl)

theorem ClaimsFresh.tail {operation : Operation} {trace : List Operation}
    (h : ClaimsFresh (operation :: trace)) : ClaimsFresh trace :=
  fun later earlier id now heq => h (operation :: later) earlier id now (by rw [heq]; rfl)

/-- **No server has more than two jobs at work, all the time, exactly when no claim comes
after its job has ceased to be runnable.** -/
theorem limit_kept_iff (trace : List Operation) : LimitKept trace ↔ ClaimsFresh trace := by
  induction trace with
  | nil =>
      refine ⟨fun _ later earlier id now heq => ?_, fun _ later earlier heq serverId => ?_⟩
      · exact absurd (congrArg List.length heq) (by simp)
      · obtain ⟨_, rfl⟩ := List.append_eq_nil_iff.mp heq.symm
        exact Nat.zero_le 2
  | cons operation trace ih =>
      constructor
      · intro hkept later earlier id now heq job hget hqueued
        cases later with
        | cons first later =>
            exact ih.mp hkept.tail later earlier id now (List.cons.inj heq).2 job hget hqueued
        | nil =>
            obtain ⟨rfl, rfl⟩ := List.cons.inj heq
            have hafter := hkept [] _ rfl job.serverId
            rw [activeOn_claim hget hqueued, if_pos rfl] at hafter
            unfold isRunnable
            rw [hqueued, beq_self_eq_true, Bool.true_and, decide_eq_true_eq]
            omega
      · intro hfresh later earlier heq serverId
        cases later with
        | cons first later =>
            exact ih.mpr hfresh.tail later earlier (List.cons.inj heq).2 serverId
        | nil =>
            have hbefore := ih.mpr hfresh.tail [] trace rfl serverId
            rw [List.nil_append] at heq
            rw [← heq]
            by_cases hclaim : ∃ id now, operation = .claim id now
                ∧ (claim id now (replay trace)).1 = true
            · obtain ⟨id, now, rfl, hclaimed⟩ := hclaim
              obtain ⟨job, hget, hqueued⟩ := (claim_true_iff (replay_unique trace)).mp hclaimed
              rw [activeOn_claim hget hqueued]
              have hrunnable := hfresh [] trace id now rfl job hget hqueued
              unfold isRunnable at hrunnable
              rw [hqueued, beq_self_eq_true, Bool.true_and, decide_eq_true_eq] at hrunnable
              by_cases hserver : job.serverId = serverId
              · rw [if_pos hserver, ← hserver]
                omega
              · rw [if_neg hserver]
                omega
            · refine Nat.le_trans (activeOn_step_le serverId fun id now hop => ?_) hbefore
              exact Bool.eq_false_iff.mpr fun htrue => hclaim ⟨id, now, hop, htrue⟩

/-! ## §8. Cancelled jobs. -/

/-- The user has retried the job in this part of a history. -/
def Retried (id : Uuid) (part earlier : List Operation) : Prop :=
  ∃ after before now, part = after ++ .retry id now :: before
    ∧ Is (fun job => canRetry job = true) id (replay (before ++ earlier))

/-- The attempt that was at work has been told to stop, and no other one follows. -/
structure Stopped (job job' : TransferJob) : Prop where
  attempt : job'.attemptCount = job.attemptCount
  notWaiting : job'.status ≠ .queued

/-- A job whose cancellation has been accepted is not claimed again until the user retries
it; it is cancelled, or the attempt that was at work goes on or has come to its end. -/
def CancelStands (trace : List Operation) : Prop :=
  ∀ rest later earlier id now,
    trace = rest ++ (later ++ .requestCancel id now :: earlier) →
    (requestCancel id now (replay earlier)).1.isOk = true →
    ¬ Retried id later (.requestCancel id now :: earlier) →
    (∀ after before now', later = after ++ .claim id now' :: before →
      (claim id now' (replay (before ++ .requestCancel id now :: earlier))).1 = false)
    ∧ ∀ job job', get id (replay earlier) = some job →
      get id (replay (later ++ .requestCancel id now :: earlier)) = some job' →
      job'.status = .cancelled ∨ Stopped job job'

/-- No job is queued again by itself once its cancellation has been requested. -/
def RequeuesSpare (trace : List Operation) : Prop :=
  ∀ later earlier id now, trace = later ++ .requeueAutomatically id now :: earlier →
    ∀ job, get id (replay earlier) = some job → canRequeue job = true →
      job.cancelRequested = false

theorem requestCancel_ok {jobs : Jobs} {id : Uuid} {now : Int}
    (h : (requestCancel id now jobs).1.isOk = true) :
    ∃ job, get id jobs = some job ∧ (job.status = .queued ∨ job.status.isActive = true) := by
  unfold requestCancel at h
  cases hget : get id jobs with
  | none =>
      rw [hget] at h
      cases h
  | some job =>
      rw [hget] at h
      dsimp only at h
      by_cases hqueued : job.status = .queued
      · exact ⟨job, rfl, Or.inl hqueued⟩
      · by_cases hactive : job.status.isActive = true
        · exact ⟨job, rfl, Or.inr hactive⟩
        · rw [if_neg hqueued, if_neg hactive] at h
          cases h

/-- What a request that is accepted makes of the row. -/
theorem row_requestCancel {job : TransferJob} {id : Uuid} (hid : job.id = id) (now : Int)
    (h : job.status = .queued ∨ job.status.isActive = true) :
    ((Operation.requestCancel id now).row job).cancelRequested = true
      ∧ (((Operation.requestCancel id now).row job).status = .cancelled
        ∨ Stopped job ((Operation.requestCancel id now).row job)) := by
  unfold Operation.row
  dsimp only
  rcases h with hqueued | hactive
  · rw [if_pos ⟨hid, beq_iff_eq.mpr hqueued⟩]
    exact ⟨rfl, Or.inl rfl⟩
  · have hnot : job.status ≠ .queued := by
      intro heq
      rw [heq] at hactive
      cases hactive
    rw [if_neg fun hand => hnot (beq_iff_eq.mp hand.2), if_pos ⟨hid, hactive⟩]
    exact ⟨rfl, Or.inr ⟨rfl, hnot⟩⟩

/-- A change of a job that has been told to stop is none of those that start it again. -/
theorem Change.stopped {operation : Operation} {first job job' : TransferJob}
    (hchange : Change operation job job') (hflag : job.cancelRequested = true)
    (h : Stopped first job) (hretry : canRetry job = true → ∀ now, operation ≠ .retry job.id now)
    (hrequeue : canRequeue job = true → ∀ now, operation ≠ .requeueAutomatically job.id now) :
    job'.cancelRequested = true ∧ Stopped first job' := by
  have hbusy : ∀ {status : TransferJobStatus}, status.isActive = true ∨ status.isTerminal = true →
      status ≠ .queued := by
    intro status hstatus heq
    rw [heq] at hstatus
    rcases hstatus with hstatus | hstatus <;> cases hstatus
  cases hchange with
  | claimed now hqueued | cancelledQueued now hqueued => exact absurd hqueued h.notWaiting
  | executionSet executionId now hactive => exact ⟨hflag, h.attempt, h.notWaiting⟩
  | progressed progress now hstatus hactive => exact ⟨hflag, h.attempt, hbusy (Or.inl hstatus)⟩
  | finished now hterminal hactive => exact ⟨hflag, h.attempt, hbusy (Or.inr hterminal)⟩
  | cancelAsked now hactive => exact ⟨rfl, h.attempt, h.notWaiting⟩
  | retried now hcan => exact absurd rfl (hretry hcan now)
  | requeued now hcan => exact absurd rfl (hrequeue hcan now)
  | interrupted now hactive => exact ⟨hflag, h.attempt, nofun⟩

theorem Retried.cons {id : Uuid} {operation : Operation} {part earlier : List Operation}
    (h : Retried id part earlier) : Retried id (operation :: part) earlier := by
  obtain ⟨after, before, now, rfl, hcan⟩ := h
  exact ⟨operation :: after, before, now, rfl, hcan⟩

theorem RequeuesSpare.tail {operation : Operation} {trace : List Operation}
    (h : RequeuesSpare (operation :: trace)) : RequeuesSpare trace :=
  fun later earlier id now heq => h (operation :: later) earlier id now (by rw [heq]; rfl)

theorem RequeuesSpare.drop {rest trace : List Operation} (h : RequeuesSpare (rest ++ trace)) :
    RequeuesSpare trace := by
  induction rest with
  | nil => exact h
  | cons operation rest ih => exact ih h.tail

/-- After an accepted request, up to a retry by the user. -/
theorem stopped_later {id : Uuid} {now : Int} {later earlier : List Operation} {job : TransferJob}
    (hget : get id (replay earlier) = some job)
    (hcan : job.status = .queued ∨ job.status.isActive = true)
    (hspare : RequeuesSpare (later ++ .requestCancel id now :: earlier))
    (hretried : ¬ Retried id later (.requestCancel id now :: earlier)) :
    ∃ job', get id (replay (later ++ .requestCancel id now :: earlier)) = some job'
      ∧ job'.cancelRequested = true ∧ (job'.status = .cancelled ∨ Stopped job job') := by
  induction later with
  | nil =>
      obtain ⟨hflag, hstate⟩ := row_requestCancel (get_some hget).2 now hcan
      exact ⟨_, get_replay_step hget, hflag, hstate⟩
  | cons operation later ih =>
      obtain ⟨job', hget', hflag, hstate⟩ := ih hspare.tail fun h => hretried h.cons
      have hid := (get_some hget').2
      have hstep : get id (replay (operation :: later ++ .requestCancel id now :: earlier))
          = some (operation.row job') := get_replay_step hget'
      refine ⟨operation.row job', hstep, ?_⟩
      rcases row_change operation job' with heq | hchange
      · rw [heq]
        exact ⟨hflag, hstate⟩
      · rcases hstate with hcancelled | hstopped
        · exact absurd (Or.inr hcancelled) hchange.not_settled
        · obtain ⟨hflag', hstopped'⟩ := hchange.stopped hflag hstopped
            (fun hcanRetry time heq => hretried ⟨[], later, time, by rw [heq, hid]; rfl,
              job', hget', hcanRetry⟩)
            (fun hcanRequeue time heq => by
              have hfalse := hspare [] _ id time (by rw [heq, hid]; rfl) job' hget' hcanRequeue
              rw [hflag] at hfalse
              cases hfalse)
          exact ⟨hflag', Or.inr hstopped'⟩

/-- A flag that is set was set by an accepted request, and the user has not retried since. -/
theorem asked_of_flag {id : Uuid} {trace : List Operation} {job : TransferJob}
    (hget : get id (replay trace) = some job) (hflag : job.cancelRequested = true) :
    ∃ later now earlier, trace = later ++ .requestCancel id now :: earlier
      ∧ (requestCancel id now (replay earlier)).1.isOk = true
      ∧ ¬ Retried id later (.requestCancel id now :: earlier) := by
  induction trace generalizing job with
  | nil => cases hget
  | cons operation trace ih =>
      obtain ⟨hjob, hid⟩ := get_some hget
      rw [replay_step] at hjob
      rcases List.mem_append.mp hjob with hjob | hjob
      · obtain ⟨old, hold, rfl⟩ := List.mem_map.mp hjob
        have holdId : old.id = id := (row_keeps operation old).1.symm.trans hid
        have hgetOld := (get_eq_some (replay_unique trace)).mpr ⟨hold, holdId⟩
        -- when the flag was set before, and this call is not a retry
        have hbefore : old.cancelRequested = true →
            ((∃ now, operation = .retry id now) → canRetry old = false) →
            ∃ later now earlier, operation :: trace = later ++ .requestCancel id now :: earlier
              ∧ (requestCancel id now (replay earlier)).1.isOk = true
              ∧ ¬ Retried id later (.requestCancel id now :: earlier) := by
          intro hset hnot
          obtain ⟨later, now, earlier, rfl, hok, hretried⟩ := ih hgetOld hset
          refine ⟨operation :: later, now, earlier, rfl, hok, fun hlater => ?_⟩
          obtain ⟨after, before, time, heq, hcan⟩ := hlater
          cases after with
          | nil =>
              obtain ⟨rfl, rfl⟩ := List.cons.inj heq
              have htrue := hcan.unique hgetOld
              rw [hnot ⟨time, rfl⟩] at htrue
              cases htrue
          | cons first after =>
              exact hretried ⟨after, before, time, (List.cons.inj heq).2, hcan⟩
        rcases row_change operation old with heq | hchange
        · rw [heq] at hflag
          refine hbefore hflag ?_
          rintro ⟨now, rfl⟩
          refine Bool.eq_false_iff.mpr fun hcan => ?_
          -- a retry would have cleared the flag
          have hrow : (Operation.retry id now).row old = retryRow now old := by
            unfold Operation.row
            exact if_pos ⟨holdId, hcan⟩
          rw [hrow] at heq
          have hcleared : (retryRow now old).cancelRequested = false := rfl
          rw [heq, hflag] at hcleared
          cases hcleared
        · generalize operation.row old = new at hchange hflag
          have hasked : ∀ now, operation = .requestCancel id now →
              (old.status = .queued ∨ old.status.isActive = true) →
              ∃ later now earlier, operation :: trace = later ++ .requestCancel id now :: earlier
                ∧ (requestCancel id now (replay earlier)).1.isOk = true
                ∧ ¬ Retried id later (.requestCancel id now :: earlier) := by
            intro now hop hcan
            refine ⟨[], now, trace, by rw [hop]; rfl, ?_, ?_⟩
            · unfold requestCancel
              rw [hgetOld]
              dsimp only
              by_cases hqueued : old.status = .queued
              · rw [if_pos hqueued]
                rfl
              · rw [if_neg hqueued, if_pos (hcan.resolve_left hqueued)]
                rfl
            · rintro ⟨after, before, time, heq, _⟩
              exact absurd (congrArg List.length heq) (by simp)
          cases hchange with
          | claimed now hqueued => cases hflag
          | executionSet executionId now hactive => exact hbefore hflag (by rintro ⟨_, hop⟩; cases hop)
          | progressed progress now hstatus hactive =>
              exact hbefore hflag (by rintro ⟨_, hop⟩; cases hop)
          | finished now hterminal hactive => exact hbefore hflag (by rintro ⟨_, hop⟩; cases hop)
          | cancelledQueued now hqueued => exact hasked now (by rw [holdId]) (Or.inl hqueued)
          | cancelAsked now hactive => exact hasked now (by rw [holdId]) (Or.inr hactive)
          | retried now hcan => cases hflag
          | requeued now hcan => cases hflag
          | interrupted now hactive => exact hbefore hflag (by rintro ⟨_, hop⟩; cases hop)
      · obtain ⟨newId, draft, now, rfl⟩ := mem_added hjob
        cases hflag

/-- **Accepted cancellations stand, in every sequence of calls, exactly when no job is queued
again by itself once its cancellation has been requested.** -/
theorem cancel_stands_iff (trace : List Operation) : CancelStands trace ↔ RequeuesSpare trace := by
  constructor
  · intro hstands later earlier id now heq job hget hcan
    refine Bool.eq_false_iff.mpr fun hflag => ?_
    obtain ⟨middle, time, first, rfl, hok, hretried⟩ := asked_of_flag hget hflag
    obtain ⟨old, hold, _⟩ := requestCancel_ok hok
    have hnot : ¬ Retried id (.requeueAutomatically id now :: middle)
        (.requestCancel id time :: first) := by
      rintro ⟨after, before, again, heq', hcan'⟩
      cases after with
      | nil => cases (List.cons.inj heq').1
      | cons _ after => exact hretried ⟨after, before, again, (List.cons.inj heq').2, hcan'⟩
    have hafter := (hstands later (.requeueAutomatically id now :: middle) first id time heq hok
      hnot).2 old _ hold (get_replay_step hget)
    have hrow : (Operation.requeueAutomatically id now).row job = requeueRow now job := by
      unfold Operation.row
      exact if_pos ⟨(get_some hget).2, hcan⟩
    rw [hrow] at hafter
    rcases hafter with hcancelled | hstopped
    · cases hcancelled
    · exact hstopped.notWaiting rfl
  · intro hspare rest later earlier id now heq hok hretried
    rw [heq] at hspare
    have hspare := hspare.drop
    obtain ⟨job, hget, hcan⟩ := requestCancel_ok hok
    refine ⟨fun after before time hlater => ?_, fun old job' hold hjob' => ?_⟩
    · rw [hlater] at hspare hretried
      have hpart : RequeuesSpare (before ++ .requestCancel id now :: earlier) := by
        rw [List.append_assoc] at hspare
        exact hspare.drop.tail
      have hnot : ¬ Retried id before (.requestCancel id now :: earlier) := by
        rintro ⟨after', before', again, rfl, hcan'⟩
        exact hretried ⟨after ++ .claim id time :: after', before', again,
          by rw [List.append_assoc]; rfl, hcan'⟩
      obtain ⟨job', hget', _, hstate⟩ := stopped_later hget hcan hpart hnot
      refine Bool.eq_false_iff.mpr fun htrue => ?_
      have hqueued := ((claim_true_iff (replay_unique _)).mp htrue).unique hget'
      rcases hstate with hcancelled | hstopped
      · rw [hqueued] at hcancelled
        cases hcancelled
      · exact hstopped.notWaiting hqueued
    · obtain ⟨job'', hget'', _, hstate⟩ := stopped_later hget hcan hspare hretried
      rw [hget] at hold
      rw [hget''] at hjob'
      cases hold
      cases hjob'
      exact hstate

end QingzhouSSH.Repositories.TransferJobRepository
