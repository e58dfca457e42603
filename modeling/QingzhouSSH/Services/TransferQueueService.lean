/-
  QingzhouSSH.Services.TransferQueueService — the workers of the transfer queue.

  The state is the sequence of calls of the repository, each with the party that made
  it, the latest first; the table is what they leave behind.  `process_events` reads the
  events of a transfer beside the transfer, which does not read the table: here it starts
  when the transfer has ended, and everything the others do may come in between.
-/
import QingzhouSSH.Core.Sftp.Transfer
import QingzhouSSH.Repositories.TransferJobRepository

namespace QingzhouSSH.Services.TransferQueueService

open QingzhouSSH.Domain
open QingzhouSSH.Lib
open QingzhouSSH.Lib.Process
open QingzhouSSH.Core.Sftp
open QingzhouSSH.Repositories.ExecutionRepository (ExecutionStatus)
open QingzhouSSH.Repositories.TransferJobRepository

/-! ## §1. One transfer. -/

/-- What the queue reads of the record of an execution. -/
structure TransferRecord where
  status : ExecutionStatus
  retryable : Bool
  errorCategory : Option Text
  errorMessage : Option Text
  deriving DecidableEq

/-- The status of an execution that ends with an error. -/
def errorStatus : AppError → ExecutionStatus
  | .cancelled => .cancelled
  | .remoteStateUncertain _ => .uncertain
  | _ => .failed

/-- `TransferService::finish_error`, and the record. -/
def finishError (e : AppError) : TransferProcess TransferRecord := do
  attempt .recordEnd
  emit (.failed e.code e.message e.retryable)
  attempt .readRecord
  pure { status := errorStatus e, retryable := e.retryable, errorCategory := some e.code,
         errorMessage := some e.message }

/-- `TransferService::finish_success`, and the record. -/
def finishSuccess (outcome : TransferOutcome) : TransferProcess TransferRecord := do
  attempt .recordEnd
  emit (.finished .succeeded (some outcome.sha256) (some outcome.location))
  attempt .readRecord
  pure { status := .succeeded, retryable := false, errorCategory := none, errorMessage := none }

def connectingProgress : TransferEvent := .progress .connecting .zero

/-- `TransferService::upload` and `download`; errors of the session come redacted. -/
def transfer (direction : TransferDirection) (path : Text) (overwrite : Bool)
    (policy : VerificationPolicy) : TransferProcess TransferRecord := do
  attempt .validateRequest
  attempt .createExecution
  attempt .markRunning
  attempt .registerExecution
  let executionId ← ExceptT.lift (Process.query TransferQuestion.drawId)
  emit (.started executionId)
  emit connectingProgress
  match ← ExceptT.lift (Process.query TransferQuestion.connect) with
  | .error e => finishError e
  | .ok _ =>
      let session := match direction with
        | .upload => sftpUpload path overwrite policy
        | .download => sftpDownload path overwrite policy
      match ← ExceptT.lift session.run with
      | .error e => finishError e
      | .ok outcome =>
          if direction = .download then
            attempt .recordFile
            emit .fileProduced
          finishSuccess outcome

def parseVerification (value : Text) : AppResult VerificationPolicy :=
  if value = "balanced".toList then .ok .balanced
  else if value = "strict".toList then .ok .strict
  else if value = "transport_only".toList then .ok .transportOnly
  else .error (.validation "传输校验策略无效".toList)

/-- What a transfer can come to: its events, how it was verified, and its result. -/
abbrev TransferEnd (direction : TransferDirection) (path : Text) (overwrite : Bool)
    (policy : VerificationPolicy) :=
  { ending : AppResult TransferRecord × TransferState //
    Reaches ((transfer direction path overwrite policy).run, TransferState.initial)
      (.done ending.1, ending.2) }

/-! ## §2. The queue and its parties. -/

/-- What a party has done; the workers also say which job they work on. -/
inductive Deed where
  | called (party : Option Nat) (operation : Operation)
  | transferred (party : Nat) (id : Uuid) (direction : TransferDirection)
      (strategy : Option VerificationStrategy)
  | left (party : Nat) (id : Uuid)
  | restarted
  deriving DecidableEq

/-- The party of a deed. -/
def Deed.by : Deed → Option Nat
  | .called party _ => party
  | .transferred party _ _ _ | .left party _ => some party
  | .restarted => none

def Deed.operation : Deed → Option Operation
  | .called _ operation => some operation
  | _ => none

/-- The table after these deeds. -/
def store (deeds : List Deed) : Jobs := replay (deeds.filterMap Deed.operation)

/-- What a party asks the world: the clock, a new identifier, whether the database takes
the next call, what a transfer comes to, whether it can be told to stop. -/
inductive QueueQuestion where
  | now
  | drawId
  | database
  | transfer (direction : TransferDirection) (path : Text) (overwrite : Bool)
      (policy : VerificationPolicy)
  | join
  | cancelExecution (executionId : Uuid)

def QueueAnswer : QueueQuestion → Type
  | .now => Int
  | .drawId => Uuid
  | .database | .join | .cancelExecution _ => AppResult Unit
  | .transfer direction path overwrite policy => TransferEnd direction path overwrite policy

abbrev PlainProcess (α : Type) := Process (List Deed) QueueAnswer α

abbrev QueueProcess (α : Type) := ExceptT AppError PlainProcess α

def ofResult {α : Type} (result : AppResult α) : QueueProcess α := ExceptT.mk (pure result)

/-- Whether the database takes the next call. -/
def database : QueueProcess Unit := Process.query QueueQuestion.database

/-- Whether the task of `process_events` has ended in good order. -/
def join : QueueProcess Unit := Process.query QueueQuestion.join

/-- A call of the repository that reads. -/
def look {α : Type} (f : Jobs → AppResult α) : QueueProcess α := do
  database
  Process.read fun deeds => f (store deeds)

/-- A call of the repository that writes. -/
def perform {α : Type} (party : Nat) (operation : Int → Operation)
    (f : Int → Jobs → AppResult α) : QueueProcess α := do
  let now ← ExceptT.lift (Process.query QueueQuestion.now)
  database
  Process.atomic fun deeds => (f now (store deeds), .called (some party) (operation now) :: deeds)

def note (deed : Deed) : QueueProcess Unit := Process.atomic fun deeds => (.ok (), deed :: deeds)

/-! ## §3. The events of a transfer. -/

def executionStatus : ExecutionStatus → TransferJobStatus
  | .succeeded => .succeeded
  | .cancelled => .cancelled
  | .uncertain => .uncertain
  | .queued | .running | .failed => .failed

/-- The status of a job whose transfer has sent a failure. -/
def failedStatus (category : Text) : TransferJobStatus :=
  if category = "cancelled".toList then .cancelled
  else if category = "remote_state_uncertain".toList then .uncertain
  else .failed

def performFinish (party : Nat) (id : Uuid) (result : TransferJobFinish) : QueueProcess Unit :=
  perform party (.finish id result) fun now jobs => (finish id result now jobs).1

/-- One turn of `process_events`. -/
def processEvent (party : Nat) (id : Uuid) : TransferEvent → QueueProcess Unit
  | .started executionId => do
      let _ ← perform party (.setExecution id executionId)
        fun now jobs => .ok (setExecution id executionId now jobs).1
      let cancel ← look fun jobs => .ok (shouldCancel id jobs)
      if cancel then
        let _ ← ExceptT.lift (Process.query (QueueQuestion.cancelExecution executionId))
  | .progress phase progress =>
      perform party (.updateProgress id (.ofPhase phase) progress)
        fun now jobs => (updateProgress id (.ofPhase phase) progress now jobs).1
  | .finished status sha256 location =>
      performFinish party id
        { status := executionStatus status, retryable := false, errorCategory := none,
          errorMessage := none, sha256 := sha256, location := location }
  | .failed category message retryable =>
      performFinish party id
        { status := failedStatus category, retryable := retryable,
          errorCategory := some category, errorMessage := some message, sha256 := none,
          location := none }
  | .fileProduced => pure ()

def processEvents (party : Nat) (id : Uuid) : List TransferEvent → QueueProcess Unit
  | [] => pure ()
  | event :: rest => do
      processEvent party id event
      processEvents party id rest

/-- `result_fields` of the captured result. -/
def resultFields (events : List TransferEvent) : Option Text × Option Text :=
  match events.getLast? with
  | some (.finished _ sha256 location) => (sha256, location)
  | _ => (none, none)

/-- `ensure_finished`. -/
def ensureFinished (party : Nat) (id : Uuid) (details : TransferRecord)
    (result : Option Text × Option Text) : QueueProcess Unit := do
  let job ← look (require id)
  if job.status.isTerminal then pure ()
  else
    performFinish party id
      { status := executionStatus details.status, retryable := details.retryable,
        errorCategory := details.errorCategory, errorMessage := details.errorMessage,
        sha256 := result.1, location := result.2 }

/-! ## §4. A worker. -/

/-- Where the file comes to; a download below the root of the data. -/
def location (job : TransferJob) : Text :=
  match job.direction with
  | .upload => job.targetPath
  | .download => "downloads/".toList ++ job.targetPath

/-- `execute_inner`. -/
def executeInner (party : Nat) (id : Uuid) : QueueProcess Unit := do
  let job ← look (require id)
  let policy ← ofResult (parseVerification job.verification)
  let ending ← ExceptT.lift (Process.query
    (QueueQuestion.transfer job.direction (location job) job.overwrite policy))
  note (.transferred party id job.direction ending.val.2.strategy)
  processEvents party id ending.val.2.events
  join
  let details ← ofResult ending.val.1
  ensureFinished party id details (resultFields ending.val.2.events)

/-- The end that `execute` gives a job whose transfer was left by an error. -/
def errorFinish (e : AppError) : TransferJobFinish :=
  { status := .failed, retryable := e.retryable, errorCategory := some e.code,
    errorMessage := some e.message, sha256 := none, location := none }

/-- A failure that `execute` puts back into the queue. -/
def retriesAutomatically (job : TransferJob) : Bool :=
  job.status == .failed && job.retryable
    && canAutomaticallyRetry (job.errorCategory.getD []) (job.errorMessage.getD [])
      job.attemptCount job.maxAttempts

/-- `execute`; it ends by waking the workers. -/
def execute (party : Nat) (id : Uuid) : PlainProcess Unit := do
  match ← (executeInner party id).run with
  | .error e =>
      let _ ← (performFinish party id (errorFinish e)).run
  | .ok _ => pure ()
  let _ ← (note (.left party id)).run
  match ← (look (require id)).run with
  | .ok job =>
      if retriesAutomatically job then
        let _ ← (perform party (.requeueAutomatically id)
          fun now jobs => .ok (requeueAutomatically id now jobs).1).run
  | .error _ => pure ()

/-- One turn of `worker_loop`. -/
def workerTurn (party : Nat) : PlainProcess Unit := do
  match ← (look fun jobs => .ok (nextRunnable jobs)).run with
  | .ok (some job) =>
      match ← (perform party (.claim job.id) fun now jobs => .ok (claim job.id now jobs).1).run with
      | .ok true => execute party job.id
      | _ => pure ()
  | _ => pure ()

/-- `worker_loop`, which a shutdown ends after some turn. -/
def workerLoop (party : Nat) : Nat → PlainProcess Unit
  | 0 => pure ()
  | turns + 1 => do
      workerTurn party
      workerLoop party turns

/-! ## §5. Calls of the user. -/

/-- `enqueue_upload` and `enqueue_download`, whose request has been checked. -/
def enqueue (party : Nat) (draft : NewTransferJob) : QueueProcess TransferJob := do
  let id ← ExceptT.lift (Process.query QueueQuestion.drawId)
  perform party (.create id draft) fun now jobs => (create id draft now jobs).1

/-- `cancel`. -/
def cancel (party : Nat) (id : Uuid) : QueueProcess TransferJob := do
  match ← perform party (.requestCancel id) fun now jobs => (requestCancel id now jobs).1 with
  | .signalExecution executionId =>
      match ← ExceptT.lift (Process.query (QueueQuestion.cancelExecution executionId)) with
      | .error e =>
          let current ← look (require id)
          if !current.status.isTerminal then throw e
      | .ok _ => pure ()
  | _ => pure ()
  look (require id)

/-- `retry`. -/
def retryJob (party : Nat) (id : Uuid) : QueueProcess TransferJob :=
  perform party (.retry id) fun now jobs => (retry id now jobs).1

/-- What a party is there for. -/
inductive Role where
  | worker (turns : Nat)
  | enqueue (draft : NewTransferJob)
  | cancel (id : Uuid)
  | retry (id : Uuid)
  deriving DecidableEq

def Role.process (party : Nat) : Role → PlainProcess Unit
  | .worker turns => workerLoop party turns
  | .enqueue draft => do let _ ← (TransferQueueService.enqueue party draft).run
  | .cancel id => do let _ ← (TransferQueueService.cancel party id).run
  | .retry id => do let _ ← (retryJob party id).run

/-- The deeds of the application: it is started any number of times, recovers what was
interrupted, and its parties take their steps until it stops between any two of them. -/
inductive Reached : List Deed → Prop where
  | installed : Reached []
  | session {deeds deeds' : List Deed} (now : Int) (roles : Nat → Role)
      {parties : Nat → PlainProcess Unit} :
      Reached deeds →
      Relation.ReflTransGen Parallel
        (fun party => (roles party).process party,
          .called none (.recoverInterrupted now) :: .restarted :: deeds)
        (parties, deeds') →
      Reached deeds'

end QingzhouSSH.Services.TransferQueueService
