/-
  QingzhouSSH.Domain.OperationBatch — batches of one task on several servers.
-/
import QingzhouSSH.Domain.WorkflowRun

namespace QingzhouSSH.Domain

inductive OperationBatchStatus where
  | queued
  | running
  | succeeded
  | partly
  | failed
  | cancelled
  deriving Repr, DecidableEq

/-- `is_terminal`. -/
def OperationBatchStatus.isTerminal : OperationBatchStatus → Bool
  | .succeeded | .partly | .failed | .cancelled => true
  | .queued | .running => false

inductive OperationBatchItemStatus where
  | queued
  | running
  | succeeded
  | failed
  | cancelled
  deriving Repr, DecidableEq

/-- `is_terminal`. -/
def OperationBatchItemStatus.isTerminal : OperationBatchItemStatus → Bool
  | .succeeded | .failed | .cancelled => true
  | .queued | .running => false

/-- A row of `operation_batch_items`, of one batch. -/
structure OperationBatchItem where
  serverId : Text
  operationRunId : Option Uuid
  status : OperationBatchItemStatus
  errorMessage : Option Text
  deriving DecidableEq

/-- What the runner of an item returns. -/
structure BatchItemOutcome where
  operationRunId : Option Uuid
  status : OperationBatchItemStatus
  errorMessage : Option Text
  deriving DecidableEq

/-- The row of a batch, as far as anything is decided by it, and the rows of its items. -/
structure OperationBatchDetails where
  status : OperationBatchStatus
  items : List OperationBatchItem
  deriving DecidableEq

end QingzhouSSH.Domain
