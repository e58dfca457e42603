/-
  QingzhouSSH.Domain.Operation — operation runs and their steps.

  The status machine of a run and of a step, as `domain/operation.rs` has them,
  and the columns of the two tables that the modelled code reads or writes.  The
  times of a row are left out: no decision depends on them.
-/
import QingzhouSSH.Core.Error
import QingzhouSSH.Core.Tasks.Model

namespace QingzhouSSH.Domain

open QingzhouSSH.Core.Tasks (RiskLevel)

/-! ## §1. Statuses. -/

inductive OperationStatus where
  | validating
  | preflighting
  | previewReady
  | waitingConfirmation
  | backingUp
  | running
  | verifying
  | succeeded
  | failed
  | cancelled
  | uncertain
  | rollbackAvailable
  | rollingBack
  | rolledBack
  | rollbackPartial
  | rollbackFailed
  deriving Repr, DecidableEq

namespace OperationStatus

def asStr : OperationStatus → Text
  | .validating => "validating".toList
  | .preflighting => "preflighting".toList
  | .previewReady => "preview_ready".toList
  | .waitingConfirmation => "waiting_confirmation".toList
  | .backingUp => "backing_up".toList
  | .running => "running".toList
  | .verifying => "verifying".toList
  | .succeeded => "succeeded".toList
  | .failed => "failed".toList
  | .cancelled => "cancelled".toList
  | .uncertain => "uncertain".toList
  | .rollbackAvailable => "rollback_available".toList
  | .rollingBack => "rolling_back".toList
  | .rolledBack => "rolled_back".toList
  | .rollbackPartial => "rollback_partial".toList
  | .rollbackFailed => "rollback_failed".toList

/-- `OperationStatus::can_transition_to`. -/
def canTransitionTo : OperationStatus → OperationStatus → Bool
  | .validating, .preflighting | .validating, .failed | .validating, .cancelled => true
  | .preflighting, .previewReady | .preflighting, .backingUp | .preflighting, .running
  | .preflighting, .failed | .preflighting, .cancelled | .preflighting, .uncertain => true
  | .previewReady, .waitingConfirmation | .previewReady, .backingUp | .previewReady, .running
  | .previewReady, .cancelled => true
  | .waitingConfirmation, .backingUp | .waitingConfirmation, .cancelled => true
  | .backingUp, .running | .backingUp, .failed | .backingUp, .cancelled
  | .backingUp, .uncertain | .backingUp, .rollbackAvailable => true
  | .running, .verifying | .running, .succeeded | .running, .failed | .running, .cancelled
  | .running, .uncertain | .running, .rollbackAvailable => true
  | .verifying, .succeeded | .verifying, .failed | .verifying, .cancelled
  | .verifying, .uncertain | .verifying, .rollbackAvailable => true
  | .uncertain, .succeeded | .uncertain, .rolledBack | .uncertain, .rollbackAvailable => true
  | .failed, .rollbackAvailable | .succeeded, .rollbackAvailable
  | .rollbackPartial, .rollbackAvailable | .rollbackFailed, .rollbackAvailable => true
  | .rollbackAvailable, .rollingBack => true
  | .rollingBack, .rolledBack | .rollingBack, .rollbackPartial | .rollingBack, .rollbackFailed
  | .rollingBack, .uncertain => true
  | _, _ => false

def isTerminal : OperationStatus → Bool
  | .succeeded | .failed | .cancelled | .uncertain | .rolledBack | .rollbackPartial
  | .rollbackFailed => true
  | _ => false

end OperationStatus

inductive OperationPhase where
  | preflight
  | backup
  | execute
  | verify
  | rollback
  deriving Repr, DecidableEq

inductive OperationStepStatus where
  | pending
  | running
  | succeeded
  | failed
  | cancelled
  | uncertain
  | skipped
  deriving Repr, DecidableEq

namespace OperationStepStatus

def asStr : OperationStepStatus → Text
  | .pending => "pending".toList
  | .running => "running".toList
  | .succeeded => "succeeded".toList
  | .failed => "failed".toList
  | .cancelled => "cancelled".toList
  | .uncertain => "uncertain".toList
  | .skipped => "skipped".toList

/-- `OperationStepStatus::can_transition_to`. -/
def canTransitionTo : OperationStepStatus → OperationStepStatus → Bool
  | .pending, .running | .pending, .cancelled | .pending, .skipped => true
  | .running, .succeeded | .running, .failed | .running, .cancelled
  | .running, .uncertain => true
  | .failed, .running | .uncertain, .running | .uncertain, .succeeded => true
  | _, _ => false

def isTerminal : OperationStepStatus → Bool
  | .succeeded | .failed | .cancelled | .uncertain | .skipped => true
  | _ => false

end OperationStepStatus

/-! ## §2. Rows. -/

structure OperationRunRecord where
  serverId : Text
  taskId : Text
  taskVersion : Int
  riskLevel : RiskLevel
  status : OperationStatus
  parametersSummary : Option Text
  result : Option Text
  errorCategory : Option Text
  errorMessage : Option Text
  deriving Repr, DecidableEq

structure OperationStepRecord where
  phase : OperationPhase
  stepIndex : Nat
  stepId : Text
  title : Text
  status : OperationStepStatus
  outputSummary : Option Text
  errorMessage : Option Text
  deriving Repr, DecidableEq

structure NewOperationRun where
  serverId : Text
  taskId : Text
  taskVersion : Int
  riskLevel : RiskLevel
  parametersSummary : Option Text
  deriving Repr, DecidableEq

structure NewOperationStep where
  phase : OperationPhase
  stepIndex : Nat
  stepId : Text
  title : Text
  deriving Repr, DecidableEq

structure FinishOperationStep where
  phase : OperationPhase
  stepIndex : Nat
  status : OperationStepStatus
  outputSummary : Option Text
  errorMessage : Option Text
  deriving Repr, DecidableEq

/-! ## §3. Servers. -/

/-- `ServerProfile`: the fields that operations read or change. -/
structure ServerProfile where
  id : Text
  host : Text
  port : Nat
  deriving Repr, DecidableEq

end QingzhouSSH.Domain
