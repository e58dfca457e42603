/-
  QingzhouSSH.Domain.OperationRestore — restore points of dangerous operations.

  The rows of the two restore tables, with the items of a point kept next to it.
  Identifiers are only compared, so their type stays open; the two times of a point
  that no decision reads are left out.
-/
import QingzhouSSH.Core.Json
import QingzhouSSH.Core.Tasks.Model

namespace QingzhouSSH.Domain

open QingzhouSSH.Core.Tasks (BackupItemKind)

inductive OperationRestorePointStatus where
  | creating
  | available
  | rollingBack
  | rolledBack
  | partially
  | failed
  | expired
  | cleanupPending
  deriving Repr, DecidableEq

def OperationRestorePointStatus.asStr : OperationRestorePointStatus → Text
  | .creating => "creating".toList
  | .available => "available".toList
  | .rollingBack => "rolling_back".toList
  | .rolledBack => "rolled_back".toList
  | .partially => "partial".toList
  | .failed => "failed".toList
  | .expired => "expired".toList
  | .cleanupPending => "cleanup_pending".toList

inductive OperationRestoreItemStatus where
  | pending
  | available
  | rollingBack
  | rolledBack
  | failed
  | skipped
  deriving Repr, DecidableEq

structure OperationRestorePoint (ι : Type) where
  id : ι
  operationRunId : ι
  serverId : Text
  taskId : Text
  status : OperationRestorePointStatus
  localRelativeDir : Text
  remoteAssetId : Option Text
  expiresAt : Option Int
  deriving Repr, DecidableEq

structure OperationRestoreItem (ι : Type) where
  id : ι
  ordinal : Nat
  itemKind : BackupItemKind
  remoteTarget : Text
  localRelativePath : Option Text
  sha256 : Option Text
  originalMetadata : Value
  status : OperationRestoreItemStatus
  errorSummary : Option Text

structure OperationRestoreDetails (ι : Type) where
  point : OperationRestorePoint ι
  items : List (OperationRestoreItem ι)

structure NewOperationRestorePoint (ι : Type) where
  operationRunId : ι
  serverId : Text
  taskId : Text
  localRelativeDir : Text
  remoteAssetId : Option Text
  expiresAt : Option Int

structure NewOperationRestoreItem (ι : Type) where
  restorePointId : ι
  ordinal : Nat
  itemKind : BackupItemKind
  remoteTarget : Text
  localRelativePath : Option Text
  sha256 : Option Text
  originalMetadata : Value
  status : OperationRestoreItemStatus
  errorSummary : Option Text

end QingzhouSSH.Domain
