/-
  QingzhouSSH.Services.OperationBatchService — running a batch on its servers.

  The parties are `run_prepared`, one worker for each server and any number of calls of
  `cancel`.  A state holds the rows, the token, the permits of the semaphore and where every
  party stands; an event is one step of one party.  What a runner returns comes with its
  event.  The state also remembers which runners have been called and what they have
  returned, which items a cancellation has withdrawn, and when it was asked for.

  Main results:
    * `step_keeps` — every step keeps the account of every server;
    * `batch_accounts_iff` — when a finished batch accounts for all its servers;
    * `lateRun_forgotten` — a cancellation that comes between the poll of the token and the
      update of the batch.
-/
import Mathlib.Logic.Function.Basic
import QingzhouSSH.Repositories.OperationBatchRepository

namespace QingzhouSSH.Services.OperationBatchService

open QingzhouSSH.Domain
open QingzhouSSH.Lib
open QingzhouSSH.Repositories.OperationBatchRepository

/-! ## §1. States. -/

def batchConcurrency : Nat := 3

/-- Where a worker stands; it holds a permit from `admitted` to `finishing`. -/
inductive WorkerPhase where
  | unspawned
  | acquiring
  | admitted
  | marking
  | running
  | finishing (outcome : BatchItemOutcome)
  | ended (result : AppResult Unit) (joined : Bool)
  deriving DecidableEq

def WorkerPhase.holdsPermit : WorkerPhase → Bool
  | .admitted | .marking | .running | .finishing _ => true
  | _ => false

/-- A worker, how often its runner has been called and what the runner has returned. -/
structure Worker where
  phase : WorkerPhase
  invoked : Nat
  outcome : Option BatchItemOutcome
  deriving DecidableEq

/-- Where `run_prepared` stands. -/
inductive DriverPhase where
  | prepared
  | joining (workerError : Option AppError)
  | cancelling (workerError : Option AppError)
  | failing (workerError : AppError)
  | completing
  | selecting (cancelled : Bool)
  | updating (next : OperationBatchStatus)
  | reading
  | removing (result : AppResult OperationBatchDetails)
  | returned (result : AppResult OperationBatchDetails)
  deriving DecidableEq

/-- `requested`: a call of `cancel` has set the token before the batch was completed.  `late`: it
did so for the first time after the poll that `complete` is given. -/
structure BatchState where
  serverIds : List Text
  details : OperationBatchDetails
  registered : Bool
  cancelled : Bool
  permits : Nat
  worker : Text → Worker
  driver : DriverPhase
  cancelCalls : Nat
  withdrawn : List Text
  requested : Bool
  late : Bool

/-- After `prepare`. -/
def prepared (serverIds : List Text) : BatchState where
  serverIds := serverIds
  details := create serverIds
  registered := true
  cancelled := false
  permits := batchConcurrency
  worker _ := { phase := .unspawned, invoked := 0, outcome := none }
  driver := .prepared
  cancelCalls := 0
  withdrawn := []
  requested := false
  late := false

/-! ## §2. Steps. -/

inductive BatchEvent where
  | driver
  | join (serverId : Text)
  | acquire (serverId : Text)
  | giveUp (serverId : Text)
  | check (serverId : Text)
  | mark (serverId : Text)
  | runnerReturns (serverId : Text) (outcome : BatchItemOutcome)
  | runnerPanics (serverId message : Text)
  | finish (serverId : Text)
  | requestCancel
  | withdraw

namespace BatchState

def setItems (items : Items) (s : BatchState) : BatchState :=
  { s with details := { s.details with items := items } }

/-- Move a worker on. -/
def moveWorker (serverId : Text) (phase : WorkerPhase) (s : BatchState) : BatchState :=
  { s with worker := Function.update s.worker serverId { s.worker serverId with phase := phase } }

/-- A worker ends and gives its permit back. -/
def endWorker (serverId : Text) (result : AppResult Unit) (s : BatchState) : BatchState :=
  { s.moveWorker serverId (.ended result false) with permits := s.permits + 1 }

/-- `cancel_queued_items`, which withdraws the queued items. -/
def withdrawQueued (s : BatchState) : BatchState :=
  { s.setItems (cancelQueuedItems s.details.items) with
    withdrawn := ((s.details.items.filter fun item => item.status == .queued).map
      OperationBatchItem.serverId) ++ s.withdrawn }

def enter (driver : DriverPhase) (s : BatchState) : BatchState := { s with driver := driver }

/-- After the items have been cancelled, or need not be. -/
def afterCancelling (workerError : Option AppError) (s : BatchState) : BatchState :=
  match workerError with
  | some error => s.enter (.failing error)
  | none => s.enter .completing

def isJoined (s : BatchState) (serverId : Text) : Bool :=
  match (s.worker serverId).phase with
  | .ended _ joined => joined
  | _ => false

end BatchState

/-- The next step of `run_prepared`, where it is not waiting for a worker. -/
def stepDriver (s : BatchState) : Option BatchState :=
  match s.driver with
  | .prepared =>
      match transitionBatch .queued .running s.details.status with
      | .error error => some (s.enter (.removing (.error error)))
      | .ok status =>
          some { s with details := { s.details with status := status }
                        driver := .joining none
                        worker := fun serverId =>
                          if serverId ∈ s.serverIds then
                            { s.worker serverId with phase := .acquiring }
                          else s.worker serverId }
  | .joining workerError =>
      if s.serverIds.all s.isJoined then
        some (if s.cancelled then s.enter (.cancelling workerError) else s.afterCancelling workerError)
      else none
  | .cancelling workerError => some (s.withdrawQueued.afterCancelling workerError)
  | .failing error =>
      some ((s.setItems (failNonterminalItems error.message s.details.items)).enter .completing)
  | .completing => some (s.enter (.selecting s.cancelled))
  | .selecting cancelled =>
      match completionStatus cancelled s.details.items with
      | .error error => some (s.enter (.removing (.error error)))
      | .ok next => some (s.enter (.updating next))
  | .updating next =>
      match transitionBatch .running next s.details.status with
      | .error error => some (s.enter (.removing (.error error)))
      | .ok status =>
          some { s with details := { s.details with status := status }, driver := .reading }
  | .reading => some (s.enter (.removing (.ok s.details)))
  | .removing result => some { s with registered := false, driver := .returned result }
  | .returned _ => none

/-- `join_next` gives a worker that has ended; the first error is kept. -/
def stepJoin (serverId : Text) (s : BatchState) : Option BatchState :=
  match s.driver, (s.worker serverId).phase with
  | .joining workerError, .ended result false =>
      let workerError := match workerError, result with
        | none, .error error => some error
        | _, _ => workerError
      some ((s.moveWorker serverId (.ended result true)).enter (.joining workerError))
  | _, _ => none

/-- The steps of the worker of a server. -/
def stepWorker : BatchEvent → BatchState → Option BatchState
  | .acquire serverId, s =>
      if (s.worker serverId).phase = .acquiring ∧ 0 < s.permits then
        some { s.moveWorker serverId .admitted with permits := s.permits - 1 }
      else none
  | .giveUp serverId, s =>
      if (s.worker serverId).phase = .acquiring ∧ s.cancelled = true then
        some (s.moveWorker serverId (.ended (.ok ()) false))
      else none
  | .check serverId, s =>
      if (s.worker serverId).phase = .admitted then
        some (if s.cancelled then s.endWorker serverId (.ok ()) else s.moveWorker serverId .marking)
      else none
  | .mark serverId, s =>
      if (s.worker serverId).phase = .marking then
        match markItemRunning serverId s.details.items with
        | .error error => some (s.endWorker serverId (.error error))
        | .ok items =>
            some { s.setItems items with
              worker := Function.update s.worker serverId
                { s.worker serverId with phase := .running
                                         invoked := (s.worker serverId).invoked + 1 } }
      else none
  | .runnerReturns serverId outcome, s =>
      if (s.worker serverId).phase = .running then
        some { s with
          worker := Function.update s.worker serverId
            { s.worker serverId with phase := .finishing outcome, outcome := some outcome } }
      else none
  | .runnerPanics serverId message, s =>
      if (s.worker serverId).phase = .running then
        some (s.endWorker serverId
          (.error (.validation ("批量子任务异常结束：".toList ++ message))))
      else none
  | .finish serverId, s =>
      match (s.worker serverId).phase with
      | .finishing outcome =>
          match finishItem serverId outcome s.details.items with
          | .error error => some (s.endWorker serverId (.error error))
          | .ok items => some ((s.setItems items).endWorker serverId (.ok ()))
      | _ => none
  | _, _ => none

/-- The poll of the token that `complete` is given has been made, and the batch is not yet
updated. -/
def BatchState.polled (s : BatchState) : Bool :=
  match s.driver with
  | .selecting _ | .updating _ => true
  | _ => false

/-- The token is set. -/
def BatchState.requestCancel (s : BatchState) : BatchState :=
  { s with cancelled := true
           cancelCalls := s.cancelCalls + 1
           requested := s.requested || !s.details.status.isTerminal
           late := s.late || (s.polled && !s.cancelled) }

/-- The two steps of a call of `cancel`: the token, then the items. -/
def stepCancel : BatchEvent → BatchState → Option BatchState
  | .requestCancel, s =>
      if s.registered then some s.requestCancel else none
  | .withdraw, s =>
      if 0 < s.cancelCalls then
        some { s.withdrawQueued with cancelCalls := s.cancelCalls - 1 }
      else none
  | _, _ => none

/-- One step, if it can be taken. -/
def step (event : BatchEvent) (s : BatchState) : Option BatchState :=
  match event with
  | .driver => stepDriver s
  | .join serverId => stepJoin serverId s
  | .requestCancel | .withdraw => stepCancel event s
  | _ => stepWorker event s

/-- Any order of steps. -/
inductive Reached (serverIds : List Text) : BatchState → Prop where
  | prepared : Reached serverIds (prepared serverIds)
  | step {s s' : BatchState} (event : BatchEvent) :
      Reached serverIds s → step event s = some s' → Reached serverIds s'

/-! ## §3. The account of a server. -/

/-- The item of a runner whose outcome has been recorded. -/
structure Carries (outcome : BatchItemOutcome) (item : OperationBatchItem) : Prop where
  status : item.status = outcome.status
  operationRunId : item.operationRunId = outcome.operationRunId
  errorMessage : item.errorMessage = capUtf8 outcome.errorMessage (8 * 1024)

/-- A runner that has not been called, and its item; only a cancellation that came in time
takes the item from the queue. -/
structure Untouched (inTime : Bool) (worker : Worker) (item : OperationBatchItem) : Prop where
  invoked : worker.invoked = 0
  outcome : worker.outcome = none
  operationRunId : item.operationRunId = none
  status : item.status = .queued ∨ item.status = .cancelled ∧ inTime = true

/-- A runner that has been called once, and its item while nothing has been recorded. -/
structure Called (outcome : Option BatchItemOutcome) (worker : Worker)
    (item : OperationBatchItem) : Prop where
  invoked : worker.invoked = 1
  outcome : worker.outcome = outcome
  operationRunId : item.operationRunId = none
  status : item.status = .running

/-- A runner that has returned nothing that can be recorded, and its item. -/
structure Lost (result : AppResult Unit) (worker : Worker) (item : OperationBatchItem) : Prop where
  invoked : worker.invoked = 1
  outcome : ∀ outcome, worker.outcome = some outcome → ¬ outcome.status.isTerminal = true
  status : item.status = .failed ∨ item.status = .running ∧ ∃ error, result = .error error

/-- A runner whose outcome has been recorded, and its item. -/
structure Recorded (worker : Worker) (item : OperationBatchItem) : Prop where
  invoked : worker.invoked = 1
  carries : ∃ outcome, worker.outcome = some outcome ∧ outcome.status.isTerminal = true
    ∧ Carries outcome item

theorem Untouched.enter {inTime : Bool} {worker : Worker} {item : OperationBatchItem}
    (phase : WorkerPhase) (h : Untouched inTime worker item) :
    Untouched inTime { worker with phase := phase } item :=
  ⟨h.invoked, h.outcome, h.operationRunId, h.status⟩

/-- How a worker and its item stand together. -/
def Fits (inTime : Bool) (worker : Worker) (item : OperationBatchItem) : Prop :=
  match worker.phase with
  | .unspawned | .acquiring | .admitted | .marking => Untouched inTime worker item
  | .running => Called none worker item
  | .finishing outcome => Called (some outcome) worker item
  | .ended result _ =>
      (Untouched inTime worker item ∧ inTime = true) ∨ Lost result worker item
        ∨ Recorded worker item

theorem Fits.invoked_le {inTime : Bool} {worker : Worker} {item : OperationBatchItem}
    (h : Fits inTime worker item) : worker.invoked ≤ 1 := by
  unfold Fits at h
  split at h
  case h_7 =>
    obtain h | h | h := h
    · rw [h.1.invoked]
      omega
    · rw [h.invoked]
    · rw [h.invoked]
  all_goals rw [h.invoked]
  all_goals omega

/-- A cancellation that comes in time fits every worker. -/
theorem Untouched.mono {inTime inTime' : Bool} {worker : Worker} {item : OperationBatchItem}
    (hmono : inTime = true → inTime' = true) (h : Untouched inTime worker item) :
    Untouched inTime' worker item :=
  { h with status := h.status.imp_right fun h => ⟨h.1, hmono h.2⟩ }

theorem Fits.mono {inTime inTime' : Bool} {worker : Worker} {item : OperationBatchItem}
    (hmono : inTime = true → inTime' = true) (h : Fits inTime worker item) :
    Fits inTime' worker item := by
  unfold Fits at h ⊢
  split at h
  case h_7 => exact h.imp_left fun h => ⟨h.1.mono hmono, hmono h.2⟩
  case h_5 | h_6 => exact h
  all_goals exact h.mono hmono

/-- What a worker may be told without a change of its standing. -/
theorem Fits.joined {inTime : Bool} {worker : Worker} {item : OperationBatchItem}
    {result : AppResult Unit} (hphase : worker.phase = .ended result false)
    (h : Fits inTime worker item) :
    Fits inTime { worker with phase := .ended result true } item := by
  unfold Fits at h
  rw [hphase] at h
  obtain h | h | h := h
  · exact Or.inl ⟨⟨h.1.invoked, h.1.outcome, h.1.operationRunId, h.1.status⟩, h.2⟩
  · exact Or.inr (Or.inl ⟨h.invoked, h.outcome, h.status⟩)
  · exact Or.inr (Or.inr ⟨h.invoked, h.carries⟩)

/-- A queued item has a runner that has not been called. -/
theorem Fits.untouched {inTime : Bool} {worker : Worker} {item : OperationBatchItem}
    (h : Fits inTime worker item) (hqueued : item.status = .queued) :
    Untouched inTime worker item := by
  unfold Fits at h
  split at h
  case h_7 =>
    obtain h | h | h := h
    · exact h.1
    · obtain hstatus | ⟨hstatus, -⟩ := h.status
      · rw [hqueued] at hstatus
        cases hstatus
      · rw [hqueued] at hstatus
        cases hstatus
    · obtain ⟨outcome, -, hterminal, hcarries⟩ := h.carries
      rw [← hcarries.status, hqueued] at hterminal
      cases hterminal
  case h_5 | h_6 =>
    rw [h.status] at hqueued
    cases hqueued
  all_goals exact h

/-- An item that a cancellation takes from the queue. -/
theorem Fits.withdrawn {worker : Worker} {item item' : OperationBatchItem}
    (h : Fits true worker item) (hqueued : item.status = .queued)
    (hrun : item'.operationRunId = item.operationRunId) (hcancelled : item'.status = .cancelled) :
    Fits true worker item' := by
  have huntouched := h.untouched hqueued
  have huntouched' : Untouched true worker item' :=
    ⟨huntouched.invoked, huntouched.outcome, hrun.trans huntouched.operationRunId,
      Or.inr ⟨hcancelled, rfl⟩⟩
  unfold Fits at h ⊢
  split at h
  case h_7 => exact Or.inl ⟨huntouched', rfl⟩
  case h_5 | h_6 =>
    rw [h.status] at hqueued
    cases hqueued
  all_goals exact huntouched'

/-! ## §4. What every step keeps. -/

namespace BatchState

/-- A cancellation has been asked for, and `complete` knows of it. -/
def inTime (s : BatchState) : Bool := s.cancelled && !s.late

/-- The token has not been polled for `complete`. -/
def Unpolled (s : BatchState) : Prop := s.late = false ∧ s.requested = s.cancelled

/-- The token has been polled for `complete`. -/
def Polled (cancelled : Bool) (s : BatchState) : Prop :=
  s.requested = s.cancelled ∧ s.late = (s.cancelled && !cancelled)
    ∧ (cancelled = true → s.cancelled = true)

/-- The batch has its last status. -/
def Closed (s : BatchState) : Prop :=
  ∃ cancelled, s.details.status = statusOf cancelled s.details.items
    ∧ s.requested = (cancelled || s.late) ∧ (s.late = true → cancelled = false)

def Settled (s : BatchState) : Prop :=
  ∀ item ∈ s.details.items, item.status.isTerminal = true

/-- Every worker has ended and been joined. -/
def Joined (s : BatchState) : Prop :=
  ∀ serverId ∈ s.serverIds, ∃ result, (s.worker serverId).phase = .ended result true

/-- An error of a worker that has been joined is kept. -/
def ErrorKept (workerError : Option AppError) (s : BatchState) : Prop :=
  ∀ serverId error, (s.worker serverId).phase = .ended (.error error) true → workerError ≠ none

/-- Where the batch and its workers stand, for each phase of `run_prepared`. -/
def DriverFits (s : BatchState) : Prop :=
  match s.driver with
  | .prepared =>
      s.details.status = .queued ∧ s.Unpolled
        ∧ ∀ serverId, (s.worker serverId).phase = .unspawned
  | .joining workerError =>
      s.details.status = .running ∧ s.Unpolled ∧ s.ErrorKept workerError
        ∧ ∀ serverId ∈ s.serverIds, (s.worker serverId).phase ≠ .unspawned
  | .cancelling workerError =>
      s.details.status = .running ∧ s.Unpolled ∧ s.Joined ∧ s.ErrorKept workerError
        ∧ s.cancelled = true
  | .failing _ =>
      s.details.status = .running ∧ s.Unpolled ∧ s.Joined
        ∧ ∀ item ∈ s.details.items, item.status ≠ .queued
  | .completing => s.details.status = .running ∧ s.Unpolled ∧ s.Joined ∧ s.Settled
  | .selecting cancelled =>
      s.details.status = .running ∧ s.Polled cancelled ∧ s.Joined ∧ s.Settled
  | .updating next =>
      s.details.status = .running ∧ s.Joined ∧ s.Settled
        ∧ ∃ cancelled, s.Polled cancelled ∧ next = statusOf cancelled s.details.items
  | .reading => s.Joined ∧ s.Settled ∧ s.Closed
  | .removing result | .returned result =>
      s.Joined ∧ s.Settled ∧ s.Closed ∧ result = .ok s.details

/-- The workers that hold a permit. -/
def holders (s : BatchState) : Nat :=
  s.serverIds.countP fun serverId => (s.worker serverId).phase.holdsPermit

end BatchState

/-- What holds in every state. -/
structure Sound (serverIds : List Text) (s : BatchState) : Prop where
  servers : s.serverIds = serverIds
  keys : s.details.items.map OperationBatchItem.serverId = serverIds
  fits : ∀ item ∈ s.details.items, Fits s.inTime (s.worker item.serverId) item
  permits : s.permits + s.holders = batchConcurrency
  spawned : ∀ serverId, (s.worker serverId).phase ≠ .unspawned → serverId ∈ serverIds
  calls : 0 < s.cancelCalls → s.cancelled = true
  withdrawn : ∀ item ∈ s.details.items, item.serverId ∈ s.withdrawn →
    item.status = .cancelled ∧ (s.worker item.serverId).invoked = 0
  known : ∀ serverId ∈ s.withdrawn, serverId ∈ serverIds
  driver : s.DriverFits

theorem prepared_sound (serverIds : List Text) : Sound serverIds (prepared serverIds) where
  servers := rfl
  keys := by
    show (serverIds.map _).map _ = serverIds
    rw [List.map_map]
    exact List.map_id serverIds
  fits item hitem := by
    obtain ⟨serverId, -, rfl⟩ := List.mem_map.mp hitem
    exact ⟨rfl, rfl, rfl, Or.inl rfl⟩
  permits := by
    have hnone : (prepared serverIds).holders = 0 :=
      List.countP_eq_zero.mpr fun serverId _ hholds => Bool.noConfusion hholds
    rw [hnone]
    rfl
  spawned serverId hspawned := absurd rfl hspawned
  calls hcalls := absurd hcalls (Nat.lt_irrefl 0)
  withdrawn item _ hwithdrawn := absurd hwithdrawn List.not_mem_nil
  known serverId hwithdrawn := absurd hwithdrawn List.not_mem_nil
  driver := ⟨rfl, ⟨rfl, rfl⟩, fun _ => rfl⟩

/-- While a worker is under way, `run_prepared` waits for it. -/
theorem Sound.underway {serverIds : List Text} {s : BatchState} (h : Sound serverIds s)
    {serverId : Text} (hspawned : (s.worker serverId).phase ≠ .unspawned)
    (hunderway : ∀ result, (s.worker serverId).phase ≠ .ended result true) :
    ∃ workerError, s.driver = .joining workerError := by
  have hmem : serverId ∈ s.serverIds := h.servers ▸ h.spawned serverId hspawned
  have hjoined : ¬ s.Joined := fun hjoined =>
    let ⟨result, hresult⟩ := hjoined serverId hmem
    hunderway result hresult
  have hdriver := h.driver
  unfold BatchState.DriverFits at hdriver
  split at hdriver
  case h_1 => exact absurd (hdriver.2.2 serverId) hspawned
  case h_2 workerError heq => exact ⟨workerError, heq⟩
  case h_3 => exact absurd hdriver.2.2.1 hjoined
  case h_4 => exact absurd hdriver.2.2.1 hjoined
  case h_5 => exact absurd hdriver.2.2.1 hjoined
  case h_6 => exact absurd hdriver.2.2.1 hjoined
  case h_7 => exact absurd hdriver.2.1 hjoined
  case h_8 => exact absurd hdriver.1 hjoined
  case h_9 => exact absurd hdriver.1 hjoined
  case h_10 => exact absurd hdriver.1 hjoined

/-- A request that comes after the poll finds every item settled. -/
theorem Sound.settled_of_late {serverIds : List Text} {s : BatchState} (h : Sound serverIds s)
    (hlate : s.late = true) : s.Settled := by
  have hunpolled : ¬ s.Unpolled := fun hunpolled => by
    rw [hunpolled.1] at hlate
    cases hlate
  have hdriver := h.driver
  unfold BatchState.DriverFits at hdriver
  split at hdriver
  case h_1 => exact absurd hdriver.2.1 hunpolled
  case h_2 => exact absurd hdriver.2.1 hunpolled
  case h_3 => exact absurd hdriver.2.1 hunpolled
  case h_4 => exact absurd hdriver.2.1 hunpolled
  case h_5 => exact absurd hdriver.2.1 hunpolled
  case h_6 => exact hdriver.2.2.2
  case h_7 => exact hdriver.2.2.1
  case h_8 => exact hdriver.2.1
  case h_9 => exact hdriver.2.1
  case h_10 => exact hdriver.2.1

/-! ## §5. The steps of a worker. -/

section Worker

variable {serverIds : List Text} {s s' : BatchState} {serverId : Text}

/-- **A step of a worker that is under way.** -/
theorem Sound.turn (hdistinct : serverIds.Nodup) (h : Sound serverIds s) {worker' : Worker}
    {items' : Items} {permits' : Nat}
    (hspawned : (s.worker serverId).phase ≠ .unspawned)
    (hunderway : ∀ result, (s.worker serverId).phase ≠ .ended result true)
    (hspawned' : worker'.phase ≠ .unspawned)
    (hunderway' : ∀ result, worker'.phase ≠ .ended result true)
    (hkeys : items'.map OperationBatchItem.serverId
      = s.details.items.map OperationBatchItem.serverId)
    (hitems : ∀ item' ∈ items', (item'.serverId ≠ serverId ∧ item' ∈ s.details.items)
      ∨ (item'.serverId = serverId ∧ Fits s.inTime worker' item'
        ∧ (serverId ∈ s.withdrawn → item'.status = .cancelled ∧ worker'.invoked = 0)))
    (hpermits : permits' + worker'.phase.holdsPermit.toNat
      = s.permits + (s.worker serverId).phase.holdsPermit.toNat) :
    Sound serverIds { s with details := { s.details with items := items' }
                             worker := Function.update s.worker serverId worker'
                             permits := permits' } := by
  have hmem : serverId ∈ serverIds := h.spawned serverId hspawned
  obtain ⟨workerError, hjoining⟩ := h.underway hspawned hunderway
  have hdriver := h.driver
  unfold BatchState.DriverFits at hdriver
  rw [hjoining] at hdriver
  obtain ⟨hrunning, hunpolled, hkept, hall⟩ := hdriver
  refine ⟨h.servers, hkeys.trans h.keys, ?_, ?_, ?_, h.calls, ?_, h.known, ?_⟩
  · intro item' hitem'
    show Fits s.inTime (Function.update s.worker serverId worker' item'.serverId) item'
    obtain ⟨hother, hitem⟩ | ⟨hsame, hfits, -⟩ := hitems item' hitem'
    · rw [Function.update_of_ne hother]
      exact h.fits item' hitem
    · rw [hsame, Function.update_self]
      exact hfits
  · have hcount := countP_update (fun worker : Worker => worker.phase.holdsPermit) s.worker
      hdistinct hmem worker'
    have hbefore := h.permits
    unfold BatchState.holders at hbefore ⊢
    rw [h.servers] at hbefore ⊢
    dsimp only at hcount ⊢
    omega
  · intro other hother
    by_cases hsame : other = serverId
    · exact hsame ▸ hmem
    · refine h.spawned other ?_
      rw [← Function.update_of_ne hsame worker' s.worker]
      exact hother
  · intro item' hitem' hwithdrawn
    show item'.status = _ ∧ (Function.update s.worker serverId worker' item'.serverId).invoked = 0
    obtain ⟨hother, hitem⟩ | ⟨hsame, -, hkeep⟩ := hitems item' hitem'
    · rw [Function.update_of_ne hother]
      exact h.withdrawn item' hitem hwithdrawn
    · rw [hsame, Function.update_self]
      exact hkeep (hsame ▸ hwithdrawn)
  · unfold BatchState.DriverFits
    dsimp only
    rw [hjoining]
    refine ⟨hrunning, hunpolled, ?_, ?_⟩
    · intro other error (herror : (Function.update s.worker serverId worker' other).phase = _)
      by_cases hsame : other = serverId
      · subst hsame
        rw [Function.update_self] at herror
        exact absurd herror (hunderway' _)
      · rw [Function.update_of_ne hsame] at herror
        exact hkept other error herror
    · intro other hother
      show (Function.update s.worker serverId worker' other).phase ≠ .unspawned
      by_cases hsame : other = serverId
      · subst hsame
        rw [Function.update_self]
        exact hspawned'
      · rw [Function.update_of_ne hsame]
        exact hall other hother

/-- A step that leaves the items alone. -/
theorem Sound.move (hdistinct : serverIds.Nodup) (h : Sound serverIds s) {worker' : Worker}
    {permits' : Nat} (hspawned : (s.worker serverId).phase ≠ .unspawned)
    (hunderway : ∀ result, (s.worker serverId).phase ≠ .ended result true)
    (hspawned' : worker'.phase ≠ .unspawned)
    (hunderway' : ∀ result, worker'.phase ≠ .ended result true)
    (hinvoked : worker'.invoked = (s.worker serverId).invoked)
    (hfits : ∀ item ∈ s.details.items, item.serverId = serverId →
      Fits s.inTime (s.worker serverId) item → Fits s.inTime worker' item)
    (hpermits : permits' + worker'.phase.holdsPermit.toNat
      = s.permits + (s.worker serverId).phase.holdsPermit.toNat) :
    Sound serverIds { s with worker := Function.update s.worker serverId worker'
                             permits := permits' } := by
  refine h.turn hdistinct hspawned hunderway hspawned' hunderway' rfl ?_ hpermits
  intro item hitem
  by_cases hsame : item.serverId = serverId
  · refine Or.inr ⟨hsame, hfits item hitem hsame (hsame ▸ h.fits item hitem), fun hwithdrawn => ?_⟩
    have hkept := h.withdrawn item hitem (hsame ▸ hwithdrawn)
    exact ⟨hkept.1, hinvoked.trans (hsame ▸ hkept.2)⟩
  · exact Or.inl ⟨hsame, hitem⟩

/-- A step that writes the item of its server. -/
theorem Sound.write (hdistinct : serverIds.Nodup) (h : Sound serverIds s) {worker' : Worker}
    {permits' : Nat} {status : OperationBatchItemStatus}
    {f : OperationBatchItem → OperationBatchItem} {refusal : AppError} {items' : Items}
    (hspawned : (s.worker serverId).phase ≠ .unspawned)
    (hunderway : ∀ result, (s.worker serverId).phase ≠ .ended result true)
    (hspawned' : worker'.phase ≠ .unspawned)
    (hunderway' : ∀ result, worker'.phase ≠ .ended result true)
    (hwrite : updateOne (isItem serverId status) f refusal s.details.items = .ok items')
    (hf : ∀ item, (f item).serverId = item.serverId) (hstatus : status ≠ .cancelled)
    (hfits : ∀ item, item.status = status → Fits s.inTime (s.worker serverId) item →
      Fits s.inTime worker' (f item))
    (hpermits : permits' + worker'.phase.holdsPermit.toNat
      = s.permits + (s.worker serverId).phase.holdsPermit.toNat) :
    Sound serverIds { s with details := { s.details with items := items' }
                             worker := Function.update s.worker serverId worker'
                             permits := permits' } := by
  refine h.turn hdistinct hspawned hunderway hspawned' hunderway' (updateOne_keys hf hwrite) ?_
    hpermits
  intro item' hitem'
  obtain ⟨item, hitem, ⟨hhit, rfl⟩ | ⟨hmiss, rfl⟩⟩ := mem_updateOne hwrite hitem'
  · obtain ⟨hsame, hitemStatus⟩ := isItem_iff.mp hhit
    refine Or.inr ⟨(hf item).trans hsame, hfits item hitemStatus (hsame ▸ h.fits item hitem), ?_⟩
    intro hwithdrawn
    have hkept := h.withdrawn item hitem (hsame ▸ hwithdrawn)
    exact absurd (hitemStatus.symm.trans hkept.1) hstatus
  · refine Or.inl ⟨fun hsame => hmiss ?_, hitem⟩
    -- the item that was hit has the same server
    obtain ⟨other, hother, hhit⟩ := updateOne_hits hwrite
    have hkeys : (s.details.items.map OperationBatchItem.serverId).Nodup := h.keys ▸ hdistinct
    have heq := eq_of_key hkeys hitem hother (hsame.trans (isItem_iff.mp hhit).1.symm)
    exact heq ▸ hhit

/-- A worker that is under way hears of a cancellation in time. -/
theorem Sound.inTime_of_cancelled (h : Sound serverIds s)
    (hspawned : (s.worker serverId).phase ≠ .unspawned)
    (hunderway : ∀ result, (s.worker serverId).phase ≠ .ended result true)
    (hcancelled : s.cancelled = true) : s.inTime = true := by
  obtain ⟨workerError, hjoining⟩ := h.underway hspawned hunderway
  have hdriver := h.driver
  unfold BatchState.DriverFits at hdriver
  rw [hjoining] at hdriver
  unfold BatchState.inTime
  rw [hcancelled, hdriver.2.1.1]
  rfl

theorem mark_sound (hdistinct : serverIds.Nodup) (h : Sound serverIds s)
    (hstep : stepWorker (.mark serverId) s = some s') : Sound serverIds s' := by
  dsimp only [stepWorker] at hstep
  split at hstep
  next hphase =>
    have hspawned : (s.worker serverId).phase ≠ .unspawned := by rw [hphase]; nofun
    have hunderway : ∀ result, (s.worker serverId).phase ≠ .ended result true := by
      rw [hphase]
      nofun
    have huntouched : ∀ item, Fits s.inTime (s.worker serverId) item →
        Untouched s.inTime (s.worker serverId) item := by
      intro item hfits
      unfold Fits at hfits
      rw [hphase] at hfits
      exact hfits
    split at hstep
    next error hrefused =>
      obtain rfl := Option.some.inj hstep
      refine h.move hdistinct hspawned hunderway nofun nofun rfl ?_ (by rw [hphase]; rfl)
      intro item hitem hsame hfits
      -- the item is not queued any more, so it has been withdrawn
      have hkept := huntouched item hfits
      have hmiss := updateOne_refused (h.keys ▸ hdistinct)
        (fun _ _ hhit hhit' => (isItem_iff.mp hhit).1.trans (isItem_iff.mp hhit').1.symm)
        hrefused item hitem
      obtain hqueued | ⟨-, hinTime⟩ := hkept.status
      · exact absurd (isItem_iff.mpr ⟨hsame, hqueued⟩) hmiss
      · exact Or.inl ⟨hkept.enter _, hinTime⟩
    next items' hwrite =>
      obtain rfl := Option.some.inj hstep
      refine h.write hdistinct hspawned hunderway nofun nofun hwrite (fun _ => rfl) nofun ?_
        (by rw [hphase]; rfl)
      intro item _ hfits
      have hkept := huntouched item hfits
      exact ⟨by show (s.worker serverId).invoked + 1 = 1; rw [hkept.invoked], hkept.outcome,
        hkept.operationRunId, rfl⟩
  next => cases hstep

theorem finish_sound (hdistinct : serverIds.Nodup) (h : Sound serverIds s)
    (hstep : stepWorker (.finish serverId) s = some s') : Sound serverIds s' := by
  dsimp only [stepWorker] at hstep
  split at hstep
  next outcome hphase =>
    have hspawned : (s.worker serverId).phase ≠ .unspawned := by rw [hphase]; nofun
    have hunderway : ∀ result, (s.worker serverId).phase ≠ .ended result true := by
      rw [hphase]
      nofun
    have hcalled : ∀ item, Fits s.inTime (s.worker serverId) item →
        Called (some outcome) (s.worker serverId) item := by
      intro item hfits
      unfold Fits at hfits
      rw [hphase] at hfits
      exact hfits
    split at hstep
    next error hrefused =>
      obtain rfl := Option.some.inj hstep
      refine h.move hdistinct hspawned hunderway nofun nofun rfl ?_ (by rw [hphase]; rfl)
      intro item hitem hsame hfits
      have hkept := hcalled item hfits
      have hlost : ¬ outcome.status.isTerminal = true := by
        intro hterminal
        unfold finishItem at hrefused
        rw [hterminal] at hrefused
        have hmiss := updateOne_refused (h.keys ▸ hdistinct)
          (fun _ _ hhit hhit' => (isItem_iff.mp hhit).1.trans (isItem_iff.mp hhit').1.symm)
          hrefused item hitem
        exact hmiss (isItem_iff.mpr ⟨hsame, hkept.status⟩)
      refine Or.inr (Or.inl ⟨hkept.invoked, ?_, Or.inr ⟨hkept.status, error, rfl⟩⟩)
      intro outcome' (houtcome' : (s.worker serverId).outcome = some outcome')
      obtain rfl := Option.some.inj (hkept.outcome.symm.trans houtcome')
      exact hlost
    next items' hwrite =>
      obtain rfl := Option.some.inj hstep
      unfold finishItem at hwrite
      split at hwrite
      · cases hwrite
      · next hterminal =>
        rw [Bool.not_eq_true', Bool.not_eq_false] at hterminal
        refine h.write hdistinct hspawned hunderway nofun nofun hwrite (fun _ => rfl) nofun ?_
          (by rw [hphase]; rfl)
        intro item _ hfits
        have hkept := hcalled item hfits
        refine Or.inr (Or.inr ⟨hkept.invoked, outcome, hkept.outcome, hterminal, rfl, ?_, rfl⟩)
        show outcome.operationRunId.or item.operationRunId = outcome.operationRunId
        rw [hkept.operationRunId, Option.or_none]
  next => cases hstep

/-- **Every step of a worker keeps the account.** -/
theorem stepWorker_sound (hdistinct : serverIds.Nodup) (h : Sound serverIds s)
    {event : BatchEvent} (hstep : stepWorker event s = some s') : Sound serverIds s' := by
  cases event with
  | driver | join _ | requestCancel | withdraw => cases hstep
  | mark serverId => exact mark_sound hdistinct h hstep
  | finish serverId => exact finish_sound hdistinct h hstep
  | acquire serverId =>
    dsimp only [stepWorker] at hstep
    split at hstep
    next hcan =>
      obtain ⟨hphase, hpermit⟩ := hcan
      obtain rfl := Option.some.inj hstep
      refine h.move hdistinct (by rw [hphase]; nofun) (by rw [hphase]; nofun) nofun nofun rfl ?_ ?_
      · intro item _ _ hfits
        unfold Fits at hfits
        rw [hphase] at hfits
        exact hfits.enter _
      · rw [hphase]
        show s.permits - 1 + 1 = s.permits + 0
        omega
    next => cases hstep
  | giveUp serverId =>
    dsimp only [stepWorker] at hstep
    split at hstep
    next hcan =>
      obtain ⟨hphase, hcancelled⟩ := hcan
      obtain rfl := Option.some.inj hstep
      have hspawned : (s.worker serverId).phase ≠ .unspawned := by rw [hphase]; nofun
      have hunderway : ∀ result, (s.worker serverId).phase ≠ .ended result true := by
        rw [hphase]
        nofun
      refine h.move hdistinct hspawned hunderway nofun nofun rfl ?_ (by rw [hphase]; rfl)
      intro item _ _ hfits
      unfold Fits at hfits
      rw [hphase] at hfits
      exact Or.inl ⟨hfits.enter _, h.inTime_of_cancelled hspawned hunderway hcancelled⟩
    next => cases hstep
  | check serverId =>
    dsimp only [stepWorker] at hstep
    split at hstep
    next hphase =>
      obtain rfl := Option.some.inj hstep
      have hspawned : (s.worker serverId).phase ≠ .unspawned := by rw [hphase]; nofun
      have hunderway : ∀ result, (s.worker serverId).phase ≠ .ended result true := by
        rw [hphase]
        nofun
      have huntouched : ∀ item, Fits s.inTime (s.worker serverId) item →
          Untouched s.inTime (s.worker serverId) item := by
        intro item hfits
        unfold Fits at hfits
        rw [hphase] at hfits
        exact hfits
      split
      next hcancelled =>
        refine h.move hdistinct hspawned hunderway nofun nofun rfl ?_ (by rw [hphase]; rfl)
        intro item _ _ hfits
        exact Or.inl ⟨(huntouched item hfits).enter _,
          h.inTime_of_cancelled hspawned hunderway hcancelled⟩
      next =>
        refine h.move hdistinct hspawned hunderway nofun nofun rfl ?_ (by rw [hphase]; rfl)
        intro item _ _ hfits
        exact (huntouched item hfits).enter _
    next => cases hstep
  | runnerReturns serverId outcome =>
    dsimp only [stepWorker] at hstep
    split at hstep
    next hphase =>
      obtain rfl := Option.some.inj hstep
      refine h.move hdistinct (by rw [hphase]; nofun) (by rw [hphase]; nofun) nofun nofun rfl ?_
        (by rw [hphase]; rfl)
      intro item _ _ hfits
      unfold Fits at hfits
      rw [hphase] at hfits
      exact ⟨hfits.invoked, rfl, hfits.operationRunId, hfits.status⟩
    next => cases hstep
  | runnerPanics serverId message =>
    dsimp only [stepWorker] at hstep
    split at hstep
    next hphase =>
      obtain rfl := Option.some.inj hstep
      refine h.move hdistinct (by rw [hphase]; nofun) (by rw [hphase]; nofun) nofun nofun rfl ?_
        (by rw [hphase]; rfl)
      intro item _ _ hfits
      unfold Fits at hfits
      rw [hphase] at hfits
      refine Or.inr (Or.inl ⟨hfits.invoked, ?_, Or.inr ⟨hfits.status, _, rfl⟩⟩)
      intro outcome (houtcome : (s.worker serverId).outcome = some outcome)
      rw [hfits.outcome] at houtcome
      cases houtcome
    next => cases hstep

/-- **`join_next` keeps the account.** -/
theorem stepJoin_sound (hdistinct : serverIds.Nodup) (h : Sound serverIds s)
    (hstep : stepJoin serverId s = some s') : Sound serverIds s' := by
  unfold stepJoin at hstep
  split at hstep
  next workerError result hjoining hphase =>
    obtain rfl := Option.some.inj hstep
    have hspawned : (s.worker serverId).phase ≠ .unspawned := by rw [hphase]; nofun
    have hdriver := h.driver
    unfold BatchState.DriverFits at hdriver
    rw [hjoining] at hdriver
    obtain ⟨hrunning, hunpolled, hkept, hall⟩ := hdriver
    refine ⟨h.servers, h.keys, ?_, ?_, ?_, h.calls, ?_, h.known, hrunning, hunpolled, ?_, ?_⟩
    · intro item hitem
      show Fits s.inTime (Function.update s.worker serverId _ item.serverId) item
      by_cases hsame : item.serverId = serverId
      · subst hsame
        rw [Function.update_self]
        exact (h.fits item hitem).joined hphase
      · rw [Function.update_of_ne hsame]
        exact h.fits item hitem
    · have hcount := countP_update (fun worker : Worker => worker.phase.holdsPermit) s.worker
        hdistinct (h.spawned serverId hspawned)
        { s.worker serverId with phase := .ended result true }
      rw [hphase] at hcount
      have hbefore := h.permits
      unfold BatchState.holders at hbefore ⊢
      rw [h.servers] at hbefore
      show s.permits + s.serverIds.countP (fun other => (Function.update s.worker serverId
        { s.worker serverId with phase := .ended result true } other).phase.holdsPermit) = _
      rw [h.servers]
      dsimp only [WorkerPhase.holdsPermit, Bool.toNat_false] at hcount hbefore ⊢
      omega
    · intro other (hother : (Function.update s.worker serverId _ other).phase ≠ _)
      by_cases hsame : other = serverId
      · exact hsame ▸ h.spawned serverId hspawned
      · rw [Function.update_of_ne hsame] at hother
        exact h.spawned other hother
    · intro item hitem hwithdrawn
      show item.status = _ ∧ (Function.update s.worker serverId _ item.serverId).invoked = 0
      have hitemKept := h.withdrawn item hitem hwithdrawn
      by_cases hsame : item.serverId = serverId
      · subst hsame
        rw [Function.update_self]
        exact hitemKept
      · rw [Function.update_of_ne hsame]
        exact hitemKept
    · -- the first error is kept
      intro other error (herror : (Function.update s.worker serverId _ other).phase = _)
      by_cases hsame : other = serverId
      · subst hsame
        rw [Function.update_self] at herror
        obtain ⟨rfl, -⟩ := WorkerPhase.ended.inj herror
        cases workerError <;> nofun
      · rw [Function.update_of_ne hsame] at herror
        have hsome := hkept other error herror
        cases workerError with
        | none => exact absurd rfl hsome
        | some first => cases result <;> nofun
    · intro other hother
      show (Function.update s.worker serverId _ other).phase ≠ _
      by_cases hsame : other = serverId
      · subst hsame
        rw [Function.update_self]
        nofun
      · rw [Function.update_of_ne hsame]
        exact hall other hother
  next => cases hstep

end Worker

/-! ## §6. The steps of a cancellation. -/

section Cancel

variable {serverIds : List Text} {s s' : BatchState}

theorem withdrawQueued_eq (h : ∀ item ∈ s.details.items, item.status ≠ .queued) :
    s.withdrawQueued = s := by
  have hnone : (s.details.items.filter fun item => item.status == .queued) = [] :=
    List.filter_eq_nil_iff.mpr fun item hitem hqueued => h item hitem (eq_of_beq hqueued)
  unfold BatchState.withdrawQueued
  rw [cancelQueuedItems_eq h, hnone]
  rfl

/-- **`cancel_queued_items` keeps the account.** -/
theorem Sound.withdrawQueued (hdistinct : serverIds.Nodup) (h : Sound serverIds s)
    (hcancelled : s.cancelled = true) : Sound serverIds s.withdrawQueued := by
  by_cases hnone : ∀ item ∈ s.details.items, item.status ≠ .queued
  · rw [withdrawQueued_eq hnone]
    exact h
  · have hunsettled : ¬ s.Settled := by
      intro hsettled
      refine hnone fun item hitem hqueued => ?_
      have hterminal := hsettled item hitem
      rw [hqueued] at hterminal
      cases hterminal
    have hinTime : s.inTime = true := by
      cases hlate : s.late with
      | true => exact absurd (h.settled_of_late hlate) hunsettled
      | false =>
        unfold BatchState.inTime
        rw [hcancelled, hlate]
        rfl
    refine ⟨h.servers, ?_, ?_, h.permits, h.spawned, h.calls, ?_, ?_, ?_⟩
    · show (s.details.items.map _).map _ = serverIds
      rw [List.map_map, ← h.keys]
      refine List.map_congr_left fun item _ => ?_
      show (if item.status = .queued then _ else item).serverId = item.serverId
      split <;> rfl
    · intro item' hitem'
      obtain ⟨item, hitem, rfl⟩ := List.mem_map.mp hitem'
      have hfits := h.fits item hitem
      show Fits s.inTime _ _
      rw [hinTime] at hfits ⊢
      split
      next hqueued => exact hfits.withdrawn hqueued rfl rfl
      next => exact hfits
    · intro item' hitem' hwithdrawn
      obtain ⟨item, hitem, rfl⟩ := List.mem_map.mp hitem'
      by_cases hqueued : item.status = .queued
      · rw [if_pos hqueued]
        exact ⟨rfl, ((h.fits item hitem).untouched hqueued).invoked⟩
      · rw [if_neg hqueued] at hwithdrawn ⊢
        refine h.withdrawn item hitem ?_
        obtain hnew | hold := List.mem_append.mp hwithdrawn
        · -- the queued item of this server would be this one
          obtain ⟨other, hother, hsame⟩ := List.mem_map.mp hnew
          obtain ⟨hother, hotherQueued⟩ := List.mem_filter.mp hother
          have heq := eq_of_key (h.keys ▸ hdistinct) hother hitem hsame
          exact absurd (heq ▸ eq_of_beq hotherQueued) hqueued
        · exact hold
    · intro serverId hwithdrawn
      obtain hnew | hold := List.mem_append.mp hwithdrawn
      · obtain ⟨item, hitem, rfl⟩ := List.mem_map.mp hnew
        rw [← h.keys]
        exact List.mem_map_of_mem (List.mem_of_mem_filter hitem)
      · exact h.known serverId hold
    · have hdriver := h.driver
      have hsame : s.withdrawQueued.driver = s.driver := rfl
      unfold BatchState.DriverFits at hdriver ⊢
      rw [hsame]
      split at hdriver
      case h_1 | h_2 | h_3 => exact hdriver
      case h_4 => exact absurd hdriver.2.2.2 hnone
      case h_5 | h_6 => exact absurd hdriver.2.2.2 hunsettled
      case h_7 => exact absurd hdriver.2.2.1 hunsettled
      all_goals exact absurd hdriver.2.1 hunsettled

theorem BatchState.Unpolled.requestCancel (h : s.Unpolled) (hpolled : s.polled = false)
    (hstatus : s.details.status.isTerminal = false) : s.requestCancel.Unpolled := by
  refine ⟨?_, ?_⟩
  · show (s.late || (s.polled && !s.cancelled)) = false
    rw [h.1, hpolled]
    rfl
  · show (s.requested || !s.details.status.isTerminal) = true
    rw [hstatus, Bool.not_false, Bool.or_true]

theorem BatchState.Polled.requestCancel {cancelled : Bool} (h : s.Polled cancelled) (hpolled : s.polled = true)
    (hstatus : s.details.status.isTerminal = false) : s.requestCancel.Polled cancelled := by
  refine ⟨?_, ?_, fun _ => rfl⟩
  · show (s.requested || !s.details.status.isTerminal) = true
    rw [hstatus, Bool.not_false, Bool.or_true]
  · show (s.late || (s.polled && !s.cancelled)) = (true && !cancelled)
    rw [h.2.1, hpolled]
    -- a poll that has seen the token has seen it set
    have hseen := h.2.2
    cases cancelled with
    | false => cases s.cancelled <;> rfl
    | true =>
      rw [hseen rfl]
      rfl

theorem BatchState.Closed.requestCancel (h : s.Closed) (hpolled : s.polled = false) :
    s.requestCancel.Closed := by
  obtain ⟨cancelled, hstatus, hrequested, hlate⟩ := h
  have hkept : s.requestCancel.late = s.late := by
    show (s.late || (s.polled && !s.cancelled)) = s.late
    rw [hpolled, Bool.false_and, Bool.or_false]
  refine ⟨cancelled, hstatus, ?_, hkept ▸ hlate⟩
  show (s.requested || !s.details.status.isTerminal) = _
  rw [hkept, hstatus, statusOf_terminal, Bool.not_true, Bool.or_false]
  exact hrequested

/-- **A call of `cancel` keeps the account.** -/
theorem stepCancel_sound (hdistinct : serverIds.Nodup) (h : Sound serverIds s)
    {event : BatchEvent} (hstep : stepCancel event s = some s') : Sound serverIds s' := by
  cases event with
  | requestCancel =>
    dsimp only [stepCancel] at hstep
    split at hstep
    next =>
      obtain rfl := Option.some.inj hstep
      refine ⟨h.servers, h.keys, ?_, h.permits, h.spawned, fun _ => rfl, h.withdrawn, h.known, ?_⟩
      · intro item hitem
        refine (h.fits item hitem).mono fun hinTime => ?_
        obtain ⟨hcancelled, hlate⟩ := Bool.and_eq_true_iff.mp hinTime
        rw [Bool.not_eq_true'] at hlate
        show (true && !(s.late || (s.polled && !s.cancelled))) = true
        rw [hcancelled, hlate, Bool.not_true, Bool.and_false]
        rfl
      · have hdriver := h.driver
        have hsame : s.requestCancel.driver = s.driver := rfl
        have hpolled : s.polled = match s.driver with
          | .selecting _ | .updating _ => true
          | _ => false := rfl
        unfold BatchState.DriverFits at hdriver ⊢
        rw [hsame]
        split at hdriver
        case h_1 heq | h_2 heq | h_4 heq | h_5 heq | h_6 heq =>
          rw [heq] at hpolled
          exact ⟨hdriver.1, hdriver.2.1.requestCancel hpolled (by rw [hdriver.1]; rfl), hdriver.2.2⟩
        case h_3 heq =>
          rw [heq] at hpolled
          obtain ⟨hrunning, hunpolled, hjoined, hkept, -⟩ := hdriver
          exact ⟨hrunning, hunpolled.requestCancel hpolled (by rw [hrunning]; rfl), hjoined, hkept,
            rfl⟩
        case h_7 heq =>
          rw [heq] at hpolled
          obtain ⟨hrunning, hjoined, hsettled, cancelled, hpoll, hnext⟩ := hdriver
          exact ⟨hrunning, hjoined, hsettled, cancelled,
            hpoll.requestCancel hpolled (by rw [hrunning]; rfl), hnext⟩
        case h_8 heq =>
          rw [heq] at hpolled
          exact ⟨hdriver.1, hdriver.2.1, hdriver.2.2.requestCancel hpolled⟩
        case h_9 heq | h_10 heq =>
          rw [heq] at hpolled
          obtain ⟨hjoined, hsettled, hclosed, hresult⟩ := hdriver
          exact ⟨hjoined, hsettled, hclosed.requestCancel hpolled, hresult⟩
    next => cases hstep
  | withdraw =>
    dsimp only [stepCancel] at hstep
    split at hstep
    next hcalls =>
      obtain rfl := Option.some.inj hstep
      have hcancelled := h.calls hcalls
      have hkept := h.withdrawQueued hdistinct hcancelled
      exact ⟨hkept.servers, hkept.keys, hkept.fits, hkept.permits, hkept.spawned,
        fun _ => hcancelled, hkept.withdrawn, hkept.known, hkept.driver⟩
    next => cases hstep
  | _ => cases hstep

end Cancel

/-! ## §7. The steps of `run_prepared`. -/

section Driver

variable {serverIds : List Text} {s s' : BatchState}

theorem Sound.enter (h : Sound serverIds s) {driver : DriverPhase}
    (hfits : (s.enter driver).DriverFits) : Sound serverIds (s.enter driver) :=
  ⟨h.servers, h.keys, h.fits, h.permits, h.spawned, h.calls, h.withdrawn, h.known, hfits⟩

/-- What has become of an item whose worker has been joined. -/
theorem Sound.ended (h : Sound serverIds s) (hjoined : s.Joined) {item : OperationBatchItem}
    (hitem : item ∈ s.details.items) :
    ∃ result, (s.worker item.serverId).phase = .ended result true
      ∧ ((Untouched s.inTime (s.worker item.serverId) item ∧ s.inTime = true)
        ∨ Lost result (s.worker item.serverId) item ∨ Recorded (s.worker item.serverId) item) := by
  have hmem : item.serverId ∈ s.serverIds := by
    rw [h.servers, ← h.keys]
    exact List.mem_map_of_mem hitem
  obtain ⟨result, hphase⟩ := hjoined item.serverId hmem
  have hfits := h.fits item hitem
  unfold Fits at hfits
  rw [hphase] at hfits
  exact ⟨result, hphase, hfits⟩

theorem Recorded.settled {worker : Worker} {item : OperationBatchItem} (h : Recorded worker item) :
    item.status.isTerminal = true := by
  obtain ⟨outcome, -, hterminal, hcarries⟩ := h.carries
  rw [hcarries.status]
  exact hterminal

/-- Without a cancellation in time no item is left in the queue. -/
theorem Sound.unqueued (h : Sound serverIds s) (hjoined : s.Joined) (hinTime : s.inTime = false) :
    ∀ item ∈ s.details.items, item.status ≠ .queued := by
  intro item hitem hqueued
  obtain ⟨result, -, ⟨-, hcontra⟩ | hlost | hrecorded⟩ := h.ended hjoined hitem
  · rw [hinTime] at hcontra
    cases hcontra
  · obtain hstatus | ⟨hstatus, -⟩ := hlost.status
    · rw [hqueued] at hstatus
      cases hstatus
    · rw [hqueued] at hstatus
      cases hstatus
  · have hterminal := hrecorded.settled
    rw [hqueued] at hterminal
    cases hterminal

/-- Where no worker has failed, an item that has left the queue is settled. -/
theorem Sound.settled (h : Sound serverIds s) (hjoined : s.Joined) (hkept : s.ErrorKept none)
    (hunqueued : ∀ item ∈ s.details.items, item.status ≠ .queued) : s.Settled := by
  intro item hitem
  obtain ⟨result, hphase, ⟨huntouched, -⟩ | hlost | hrecorded⟩ := h.ended hjoined hitem
  · obtain hqueued | ⟨hcancelled, -⟩ := huntouched.status
    · exact absurd hqueued (hunqueued item hitem)
    · rw [hcancelled]
      rfl
  · obtain hfailed | ⟨-, error, rfl⟩ := hlost.status
    · rw [hfailed]
      rfl
    · exact absurd rfl (hkept item.serverId error hphase)
  · exact hrecorded.settled

theorem Sound.afterCancelling (h : Sound serverIds s) {workerError : Option AppError}
    (hrunning : s.details.status = .running) (hunpolled : s.Unpolled) (hjoined : s.Joined)
    (hkept : s.ErrorKept workerError)
    (hunqueued : ∀ item ∈ s.details.items, item.status ≠ .queued) :
    Sound serverIds (s.afterCancelling workerError) := by
  cases workerError with
  | none => exact h.enter ⟨hrunning, hunpolled, hjoined, h.settled hjoined hkept hunqueued⟩
  | some error => exact h.enter ⟨hrunning, hunpolled, hjoined, hunqueued⟩

/-- The items are spawned. -/
theorem spawn_sound (h : Sound serverIds s) (hdriver : s.driver = .prepared)
    (hstep : stepDriver s = some s') : Sound serverIds s' := by
  have hfits := h.driver
  unfold BatchState.DriverFits at hfits
  rw [hdriver] at hfits
  obtain ⟨hqueued, hunpolled, hunspawned⟩ := hfits
  unfold stepDriver at hstep
  rw [hdriver] at hstep
  dsimp only at hstep
  rw [transitionBatch, if_pos hqueued] at hstep
  obtain rfl := Option.some.inj hstep
  have hphase : ∀ serverId, serverId ∈ serverIds →
      (if serverId ∈ s.serverIds then { s.worker serverId with phase := .acquiring }
        else s.worker serverId) = { s.worker serverId with phase := .acquiring } := by
    intro serverId hmem
    exact if_pos (h.servers ▸ hmem)
  refine ⟨h.servers, h.keys, ?_, ?_, ?_, h.calls, ?_, h.known, rfl, hunpolled, ?_, ?_⟩
  · intro item hitem
    have hmem : item.serverId ∈ serverIds := by
      rw [← h.keys]
      exact List.mem_map_of_mem hitem
    have hitemFits := h.fits item hitem
    unfold Fits at hitemFits
    rw [hunspawned] at hitemFits
    show Fits s.inTime (if item.serverId ∈ s.serverIds then _ else _) item
    rw [hphase _ hmem]
    exact hitemFits.enter _
  · have hbefore := h.permits
    have hnone : s.holders = 0 := by
      refine List.countP_eq_zero.mpr fun serverId _ hholds => ?_
      rw [hunspawned] at hholds
      cases hholds
    rw [hnone] at hbefore
    show s.permits + s.serverIds.countP _ = _
    rw [List.countP_eq_zero.mpr ?_]
    · exact hbefore
    · intro serverId hmem hholds
      dsimp only at hholds
      rw [if_pos hmem] at hholds
      cases hholds
  · intro serverId hspawned
    by_contra hnot
    rw [← h.servers] at hnot
    dsimp only at hspawned
    rw [if_neg hnot] at hspawned
    exact hspawned (hunspawned serverId)
  · intro item hitem hwithdrawn
    have hmem : item.serverId ∈ serverIds := h.known _ hwithdrawn
    have hkept := h.withdrawn item hitem hwithdrawn
    show item.status = _ ∧ (if item.serverId ∈ s.serverIds then _ else _ : Worker).invoked = 0
    rw [hphase _ hmem]
    exact hkept
  · intro serverId error herror
    dsimp only at herror
    split at herror
    · cases herror
    · rw [hunspawned] at herror
      cases herror
  · intro serverId hmem
    dsimp only at hmem ⊢
    rw [if_pos hmem]
    nofun

/-- The items that a worker has left behind are failed. -/
theorem fail_sound (h : Sound serverIds s) {error : AppError} (hdriver : s.driver = .failing error) :
    Sound serverIds
      ((s.setItems (failNonterminalItems error.message s.details.items)).enter .completing) := by
  have hfits := h.driver
  unfold BatchState.DriverFits at hfits
  rw [hdriver] at hfits
  obtain ⟨hrunning, hunpolled, hjoined, hunqueued⟩ := hfits
  have hrow : ∀ item ∈ s.details.items, ∀ item',
      (if item.status = .queued ∨ item.status = .running then
        { item with status := .failed, errorMessage := capUtf8 (some error.message) (8 * 1024) }
      else item) = item' →
      item'.serverId = item.serverId ∧ (item.status = .running ∧ item'.status = .failed
        ∨ item.status ≠ .running ∧ item' = item) := by
    rintro item hitem item' rfl
    split
    next hopen => exact ⟨rfl, Or.inl ⟨hopen.resolve_left (hunqueued item hitem), rfl⟩⟩
    next hclosed => exact ⟨rfl, Or.inr ⟨fun hstatus => hclosed (Or.inr hstatus), rfl⟩⟩
  refine ⟨h.servers, ?_, ?_, h.permits, h.spawned, h.calls, ?_, h.known, hrunning, hunpolled,
    hjoined, ?_⟩
  · show (s.details.items.map _).map _ = serverIds
    rw [List.map_map, ← h.keys]
    exact List.map_congr_left fun item hitem => (hrow item hitem _ rfl).1
  · intro item' hitem'
    obtain ⟨item, hitem, hitem'⟩ := List.mem_map.mp hitem'
    obtain ⟨hsame, ⟨hopen, hfailed⟩ | ⟨-, rfl⟩⟩ := hrow item hitem item' hitem'
    · obtain ⟨result, hphase, ⟨huntouched, -⟩ | hlost | hrecorded⟩ := h.ended hjoined hitem
      · obtain hstatus | ⟨hstatus, -⟩ := huntouched.status <;> rw [hopen] at hstatus <;> cases hstatus
      · show Fits s.inTime (s.worker item'.serverId) item'
        unfold Fits
        rw [hsame, hphase]
        exact Or.inr (Or.inl ⟨hlost.invoked, hlost.outcome, Or.inl hfailed⟩)
      · have hterminal := hrecorded.settled
        rw [hopen] at hterminal
        cases hterminal
    · exact h.fits item' hitem
  · intro item' hitem' hwithdrawn
    obtain ⟨item, hitem, hitem'⟩ := List.mem_map.mp hitem'
    obtain ⟨hsame, ⟨hopen, -⟩ | ⟨-, rfl⟩⟩ := hrow item hitem item' hitem'
    · have hkept := h.withdrawn item hitem (hsame ▸ hwithdrawn)
      rw [hopen] at hkept
      cases hkept.1
    · exact h.withdrawn item' hitem hwithdrawn
  · intro item' hitem'
    obtain ⟨item, hitem, hitem'⟩ := List.mem_map.mp hitem'
    obtain ⟨-, ⟨-, hfailed⟩ | ⟨hstatus, rfl⟩⟩ := hrow item hitem item' hitem'
    · rw [hfailed]
      rfl
    · cases hitemStatus : item'.status with
      | queued => exact absurd hitemStatus (hunqueued item' hitem)
      | running => exact absurd hitemStatus hstatus
      | succeeded | failed | cancelled => rfl

/-- **Every step of `run_prepared` keeps the account.** -/
theorem stepDriver_sound (hdistinct : serverIds.Nodup) (hne : serverIds ≠ [])
    (h : Sound serverIds s) (hstep : stepDriver s = some s') : Sound serverIds s' := by
  have hfits := h.driver
  unfold BatchState.DriverFits at hfits
  cases hdriver : s.driver with
  | prepared => exact spawn_sound h hdriver hstep
  | joining workerError =>
    rw [hdriver] at hfits
    obtain ⟨hrunning, hunpolled, hkept, -⟩ := hfits
    rw [stepDriver, hdriver] at hstep
    dsimp only at hstep
    split at hstep
    next hall =>
      obtain rfl := Option.some.inj hstep
      have hjoined : s.Joined := by
        intro serverId hmem
        have hended := List.all_eq_true.mp hall serverId hmem
        unfold BatchState.isJoined at hended
        split at hended
        next result joined hphase =>
          subst hended
          exact ⟨result, hphase⟩
        next => cases hended
      split
      next hcancelled => exact h.enter ⟨hrunning, hunpolled, hjoined, hkept, hcancelled⟩
      next hcancelled =>
        have hinTime : s.inTime = false := by
          unfold BatchState.inTime
          rw [Bool.not_eq_true] at hcancelled
          rw [hcancelled]
          rfl
        exact h.afterCancelling hrunning hunpolled hjoined hkept (h.unqueued hjoined hinTime)
    next => cases hstep
  | cancelling workerError =>
    rw [hdriver] at hfits
    obtain ⟨hrunning, hunpolled, hjoined, hkept, hcancelled⟩ := hfits
    rw [stepDriver, hdriver] at hstep
    obtain rfl := Option.some.inj hstep
    refine (h.withdrawQueued hdistinct hcancelled).afterCancelling hrunning hunpolled hjoined hkept ?_
    intro item' hitem'
    obtain ⟨item, -, rfl⟩ := List.mem_map.mp hitem'
    split
    · nofun
    · assumption
  | failing error =>
    rw [stepDriver, hdriver] at hstep
    obtain rfl := Option.some.inj hstep
    exact fail_sound h hdriver
  | completing =>
    rw [hdriver] at hfits
    obtain ⟨hrunning, hunpolled, hjoined, hsettled⟩ := hfits
    rw [stepDriver, hdriver] at hstep
    obtain rfl := Option.some.inj hstep
    refine h.enter ⟨hrunning, ⟨hunpolled.2, ?_, fun hcancelled => hcancelled⟩, hjoined, hsettled⟩
    show s.late = (s.cancelled && !s.cancelled)
    rw [hunpolled.1, Bool.and_not_self]
  | selecting cancelled =>
    rw [hdriver] at hfits
    obtain ⟨hrunning, hpolled, hjoined, hsettled⟩ := hfits
    have hitems : s.details.items ≠ [] := by
      intro hnil
      have hkeys := h.keys
      rw [hnil] at hkeys
      exact hne hkeys.symm
    rw [stepDriver, hdriver] at hstep
    dsimp only at hstep
    rw [completionStatus_settled cancelled hitems hsettled] at hstep
    obtain rfl := Option.some.inj hstep
    exact h.enter ⟨hrunning, hjoined, hsettled, cancelled, hpolled, rfl⟩
  | updating next =>
    rw [hdriver] at hfits
    obtain ⟨hrunning, hjoined, hsettled, cancelled, ⟨hrequested, hlate, hseen⟩, rfl⟩ := hfits
    rw [stepDriver, hdriver] at hstep
    dsimp only at hstep
    rw [transitionBatch, if_pos hrunning] at hstep
    obtain rfl := Option.some.inj hstep
    refine ⟨h.servers, h.keys, h.fits, h.permits, h.spawned, h.calls, h.withdrawn, h.known, hjoined,
      hsettled, cancelled, rfl, ?_, ?_⟩
    · show s.requested = (cancelled || s.late)
      rw [hrequested, hlate]
      cases cancelled with
      | false => cases s.cancelled <;> rfl
      | true => exact hseen rfl
    · intro (htrue : s.late = true)
      rw [hlate] at htrue
      have hunseen := (Bool.and_eq_true_iff.mp htrue).2
      rw [Bool.not_eq_true'] at hunseen
      exact hunseen
  | reading =>
    rw [hdriver] at hfits
    obtain ⟨hjoined, hsettled, hclosed⟩ := hfits
    rw [stepDriver, hdriver] at hstep
    obtain rfl := Option.some.inj hstep
    exact h.enter ⟨hjoined, hsettled, hclosed, rfl⟩
  | removing result =>
    rw [hdriver] at hfits
    rw [stepDriver, hdriver] at hstep
    obtain rfl := Option.some.inj hstep
    exact ⟨h.servers, h.keys, h.fits, h.permits, h.spawned, h.calls, h.withdrawn, h.known, hfits⟩
  | returned result =>
    rw [stepDriver, hdriver] at hstep
    cases hstep

end Driver

/-! ## §8. Every run. -/

section Run

variable {serverIds : List Text} {s s' : BatchState}

/-- **Every step keeps the account of every server.** -/
theorem step_keeps (hdistinct : serverIds.Nodup) (hne : serverIds ≠ []) (h : Sound serverIds s)
    {event : BatchEvent} (hstep : step event s = some s') : Sound serverIds s' := by
  unfold step at hstep
  split at hstep
  · exact stepDriver_sound hdistinct hne h hstep
  · exact stepJoin_sound hdistinct h hstep
  · exact stepCancel_sound hdistinct h hstep
  · exact stepCancel_sound hdistinct h hstep
  · exact stepWorker_sound hdistinct h hstep

theorem Reached.sound (hdistinct : serverIds.Nodup) (hne : serverIds ≠ [])
    (h : Reached serverIds s) : Sound serverIds s := by
  induction h with
  | prepared => exact prepared_sound serverIds
  | step event _ hstep ih => exact step_keeps hdistinct hne ih hstep

/-- In every state: a runner is called at most once, at most three are called at a time, and none
for an item that a cancellation has withdrawn. -/
structure Safe (serverIds : List Text) (s : BatchState) : Prop where
  once : ∀ serverId ∈ serverIds, (s.worker serverId).invoked ≤ 1
  bounded : serverIds.countP (fun serverId => (s.worker serverId).phase == .running)
    ≤ batchConcurrency
  withdrawn : ∀ serverId ∈ s.withdrawn, (s.worker serverId).invoked = 0

theorem Sound.safe (h : Sound serverIds s) : Safe serverIds s := by
  have hitem : ∀ serverId ∈ serverIds, ∃ item ∈ s.details.items, item.serverId = serverId := by
    intro serverId hmem
    rw [← h.keys] at hmem
    exact List.mem_map.mp hmem
  refine ⟨?_, ?_, ?_⟩
  · intro serverId hmem
    obtain ⟨item, hitem, rfl⟩ := hitem serverId hmem
    exact (h.fits item hitem).invoked_le
  · -- a worker that runs holds a permit
    have hle : serverIds.countP (fun serverId => (s.worker serverId).phase == .running)
        ≤ s.holders := by
      unfold BatchState.holders
      rw [h.servers]
      refine List.countP_mono_left fun serverId _ hrunning => ?_
      rw [eq_of_beq hrunning]
      rfl
    have hpermits := h.permits
    omega
  · intro serverId hwithdrawn
    obtain ⟨item, hitem, rfl⟩ := hitem serverId (h.known serverId hwithdrawn)
    exact (h.withdrawn item hitem hwithdrawn).2

/-- A finished batch that accounts for its servers. -/
structure Accounts (serverIds : List Text) (s : BatchState) : Prop where
  result : s.driver = .returned (.ok s.details)
  servers : s.details.items.map OperationBatchItem.serverId = serverIds
  batchTerminal : s.details.status.isTerminal = true
  itemsTerminal : ∀ item ∈ s.details.items, item.status.isTerminal = true
  carried : ∀ item ∈ s.details.items, ∀ outcome, (s.worker item.serverId).outcome = some outcome →
    outcome.status.isTerminal = true → Carries outcome item
  status : s.details.status = statusOf s.requested s.details.items

/-- A runner has returned that it was cancelled. -/
def RunnerCancelled (serverIds : List Text) (s : BatchState) : Prop :=
  ∃ serverId ∈ serverIds, ∃ outcome, (s.worker serverId).outcome = some outcome
    ∧ outcome.status = .cancelled

/-- Where the cancellation has come too late, an item is cancelled by its runner only. -/
theorem Sound.cancelled_iff (h : Sound serverIds s) (hjoined : s.Joined) (hlate : s.late = true) :
    (∃ item ∈ s.details.items, item.status = .cancelled) ↔ RunnerCancelled serverIds s := by
  have hinTime : s.inTime = false := by
    unfold BatchState.inTime
    rw [hlate, Bool.not_true, Bool.and_false]
  constructor
  · rintro ⟨item, hitem, hcancelled⟩
    refine ⟨item.serverId, h.keys ▸ List.mem_map_of_mem hitem, ?_⟩
    obtain ⟨result, -, ⟨-, hcontra⟩ | hlost | hrecorded⟩ := h.ended hjoined hitem
    · rw [hinTime] at hcontra
      cases hcontra
    · obtain hstatus | ⟨hstatus, -⟩ := hlost.status <;> rw [hcancelled] at hstatus <;> cases hstatus
    · obtain ⟨outcome, houtcome, -, hcarries⟩ := hrecorded.carries
      exact ⟨outcome, houtcome, hcarries.status.symm.trans hcancelled⟩
  · rintro ⟨serverId, hmem, outcome, houtcome, hcancelled⟩
    rw [← h.keys] at hmem
    obtain ⟨item, hitem, rfl⟩ := List.mem_map.mp hmem
    refine ⟨item, hitem, ?_⟩
    obtain ⟨result, -, ⟨huntouched, -⟩ | hlost | hrecorded⟩ := h.ended hjoined hitem
    · rw [huntouched.outcome] at houtcome
      cases houtcome
    · exact absurd (by rw [hcancelled]; rfl) (hlost.outcome outcome houtcome)
    · obtain ⟨outcome', houtcome', -, hcarries⟩ := hrecorded.carries
      obtain rfl := Option.some.inj (houtcome'.symm.trans houtcome)
      exact hcarries.status.trans hcancelled

/-- **When a finished batch accounts for all its servers.**  No run breaks a safety property; the
only finished runs that do not account for every server are those in which the cancellation was
requested after the token had been polled for `complete` and before the batch was updated. -/
theorem batch_accounts_iff (hdistinct : serverIds.Nodup) (hne : serverIds ≠ [])
    (h : Reached serverIds s) :
    Safe serverIds s ∧ ∀ result, s.driver = .returned result →
      (Accounts serverIds s ↔ (s.late = true → RunnerCancelled serverIds s)) := by
  have hsound := h.sound hdistinct hne
  refine ⟨hsound.safe, fun result hreturned => ?_⟩
  have hfits := hsound.driver
  unfold BatchState.DriverFits at hfits
  rw [hreturned] at hfits
  obtain ⟨hjoined, hsettled, ⟨cancelled, hstatus, hrequested, hpolled⟩, rfl⟩ := hfits
  constructor
  · intro haccounts hlate
    rw [← hsound.cancelled_iff hjoined hlate, ← statusOf_eq_cancelled]
    have hboth := hstatus.symm.trans haccounts.status
    rw [hrequested, hpolled hlate, hlate] at hboth
    exact hboth
  · intro hwhen
    refine ⟨hreturned, hsound.keys, ?_, hsettled, ?_, ?_⟩
    · rw [hstatus]
      exact statusOf_terminal cancelled _
    · intro item hitem outcome houtcome hterminal
      obtain ⟨result, -, ⟨huntouched, -⟩ | hlost | hrecorded⟩ := hsound.ended hjoined hitem
      · rw [huntouched.outcome] at houtcome
        cases houtcome
      · exact absurd hterminal (hlost.outcome outcome houtcome)
      · obtain ⟨outcome', houtcome', -, hcarries⟩ := hrecorded.carries
        obtain rfl := Option.some.inj (houtcome'.symm.trans houtcome)
        exact hcarries
    · cases hlate : s.late with
      | false =>
        rw [hstatus, hrequested, hlate, Bool.or_false]
      | true =>
        have hcancelled := statusOf_eq_cancelled.mpr
          ((hsound.cancelled_iff hjoined hlate).mpr (hwhen hlate))
        rw [hstatus, hrequested, hpolled hlate, hlate, hcancelled]
        rfl

end Run

/-! ## §9. Two runs. -/

/-- Events one after the other; one that cannot be taken is passed over. -/
def play (events : List BatchEvent) (s : BatchState) : BatchState :=
  events.foldl (fun s event => (step event s).getD s) s

theorem play_reached {serverIds : List Text} (events : List BatchEvent) {s : BatchState}
    (h : Reached serverIds s) : Reached serverIds (play events s) := by
  induction events generalizing s with
  | nil => exact h
  | cons event events ih =>
    refine ih ?_
    show Reached serverIds ((step event s).getD s)
    cases hstep : step event s with
    | none => exact h
    | some s' => exact h.step event hstep

def webServer : Text := "web-1".toList

def webRun : Uuid := ⟨"0190a1b2-c3d4-7e5f-8a6b-0c1d2e3f4a5b".toList, by decide⟩

/-- The runner of the one server succeeds, and its worker is joined. -/
def succeeds : List BatchEvent :=
  [.driver, .acquire webServer, .check webServer, .mark webServer,
    .runnerReturns webServer
      { operationRunId := some webRun, status := .succeeded, errorMessage := none },
    .finish webServer, .join webServer, .driver]

/-- Nobody cancels. -/
def quietRun : BatchState :=
  play (succeeds ++ List.replicate 5 .driver) (prepared [webServer])

/-- Cancelled after the poll of the token. -/
def lateRun : BatchState :=
  play (succeeds ++ [.driver, .requestCancel] ++ List.replicate 4 .driver) (prepared [webServer])

theorem quietRun_accounts :
    Safe [webServer] quietRun ∧ (Accounts [webServer] quietRun
      ↔ (quietRun.late = true → RunnerCancelled [webServer] quietRun))
      ∧ quietRun.details.status = .succeeded ∧ quietRun.late = false :=
  have hreached : Reached [webServer] quietRun := play_reached _ .prepared
  have haccounts := batch_accounts_iff (List.nodup_singleton webServer) (List.cons_ne_nil _ _)
    hreached
  ⟨haccounts.1, haccounts.2 (.ok quietRun.details) (by decide), by decide,
    by decide⟩

/-- A cancellation that has been accepted before the batch was completed is forgotten. -/
theorem lateRun_forgotten :
    Reached [webServer] lateRun ∧ lateRun.driver = .returned (.ok lateRun.details)
      ∧ lateRun.requested = true ∧ lateRun.details.status = .succeeded
      ∧ ¬ Accounts [webServer] lateRun := by
  have hstatus : lateRun.details.status = .succeeded := by decide
  have hrequested : lateRun.requested = true := by decide
  refine ⟨play_reached _ .prepared, by decide, hrequested, hstatus, fun haccounts => ?_⟩
  have hcancelled := haccounts.status
  rw [hrequested, hstatus] at hcancelled
  cases hcancelled

end QingzhouSSH.Services.OperationBatchService
