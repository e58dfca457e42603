/-
  QingzhouSSH.Domain.TransferJob — file transfers that wait in the queue.

  Main result:
    * `active_canFail` — an active job may end without success from any phase.
-/
import QingzhouSSH.Domain.WorkflowRun
import QingzhouSSH.Lib.Text

namespace QingzhouSSH.Domain

open QingzhouSSH.Lib

/-! ## §1. States of a job. -/

inductive TransferDirection where
  | upload
  | download
  deriving Repr, DecidableEq

inductive TransferPhase where
  | connecting
  | transferring
  | verifying
  | finalizing
  deriving Repr, DecidableEq

inductive TransferJobStatus where
  | queued
  | connecting
  | transferring
  | verifying
  | finalizing
  | succeeded
  | failed
  | cancelled
  | uncertain
  deriving Repr, DecidableEq

namespace TransferJobStatus

def isTerminal : TransferJobStatus → Bool
  | .succeeded | .failed | .cancelled | .uncertain => true
  | _ => false

def isActive : TransferJobStatus → Bool
  | .connecting | .transferring | .verifying | .finalizing => true
  | _ => false

/-- `TransferJobStatus::can_transition_to`. -/
def canTransitionTo (current next : TransferJobStatus) : Bool :=
  if current = next then true
  else
    match current with
    | .queued => [.connecting, .cancelled].contains next
    | .connecting => [.transferring, .failed, .cancelled, .uncertain].contains next
    | .transferring =>
        [.verifying, .finalizing, .failed, .cancelled, .uncertain].contains next
    | .verifying => [.finalizing, .failed, .cancelled, .uncertain].contains next
    | .finalizing => [.succeeded, .failed, .cancelled, .uncertain].contains next
    | .failed | .uncertain => [.queued].contains next
    | .succeeded | .cancelled => false

/-- `From<TransferPhase>`. -/
def ofPhase : TransferPhase → TransferJobStatus
  | .connecting => .connecting
  | .transferring => .transferring
  | .verifying => .verifying
  | .finalizing => .finalizing

@[simp] theorem canTransitionTo_self (status : TransferJobStatus) :
    status.canTransitionTo status = true := by
  unfold canTransitionTo
  rw [if_pos rfl]

theorem ofPhase_active (phase : TransferPhase) : (ofPhase phase).isActive = true := by
  cases phase <;> rfl

/-- A job is not both at work and at its end. -/
theorem not_active_of_terminal {status : TransferJobStatus} (h : status.isTerminal = true) :
    status.isActive = false := by
  cases status <;> first | rfl | cases h

theorem active_canFail {status next : TransferJobStatus} (hactive : status.isActive = true)
    (hterminal : next.isTerminal = true) (hnext : next ≠ .succeeded) :
    status.canTransitionTo next = true := by
  revert hactive hterminal hnext
  cases status <;> cases next <;> decide

end TransferJobStatus

/-! ## §2. Jobs. -/

/-- What an event of progress reports; the rates are `f64` in the source. -/
structure TransferProgress where
  transferred : Nat
  total : Option Nat
  percent : Option Rat
  bytesPerSecond : Option Rat
  averageBytesPerSecond : Option Rat
  etaSeconds : Option Nat
  deriving DecidableEq

/-- Before the first event. -/
def TransferProgress.zero : TransferProgress :=
  { transferred := 0, total := none, percent := none, bytesPerSecond := none,
    averageBytesPerSecond := none, etaSeconds := none }

structure TransferJob where
  id : Uuid
  executionId : Option Uuid
  serverId : Text
  direction : TransferDirection
  sourcePath : Text
  targetPath : Text
  overwrite : Bool
  verification : Text
  status : TransferJobStatus
  progress : TransferProgress
  attemptCount : Nat
  maxAttempts : Nat
  cancelRequested : Bool
  retryable : Bool
  errorCategory : Option Text
  errorMessage : Option Text
  sha256 : Option Text
  location : Option Text
  createdAt : Int
  updatedAt : Int
  startedAt : Option Int
  finishedAt : Option Int
  deriving DecidableEq

structure NewTransferJob where
  serverId : Text
  direction : TransferDirection
  sourcePath : Text
  targetPath : Text
  overwrite : Bool
  verification : Text
  deriving DecidableEq

/-- What makes a failure one that repeating does not mend. -/
def nonTransientMarkers : List Text :=
  ["auth".toList, "host key".toList, "fingerprint".toList, "permission".toList,
   "denied".toList, "disk".toList, "no space".toList, "integrity".toList, "checksum".toList,
   "hash mismatch".toList]

/-- `can_automatically_retry`. -/
def canAutomaticallyRetry (category message : Text) (attemptCount maxAttempts : Nat) : Bool :=
  if maxAttempts ≤ attemptCount
      || !(["io".toList, "ssh".toList, "transfer".toList].contains category) then
    false
  else !nonTransientMarkers.any fun marker => Text.contains (message.map Core.Tasks.toAsciiLower) marker

end QingzhouSSH.Domain
