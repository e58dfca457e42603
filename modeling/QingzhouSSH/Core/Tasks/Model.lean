/-
  QingzhouSSH.Core.Tasks.Model — task definitions.

  The records of `core/tasks/model.rs` with the fields that planning, rendering,
  recovery and execution read.
-/
import QingzhouSSH.Core.Json

namespace QingzhouSSH.Core.Tasks

/-! ## §1. Enumerations. -/

inductive TaskCategory where
  | system
  | storage
  | network
  | security
  | service
  | logs
  | web
  | container
  | script
  | advanced
  deriving Repr, DecidableEq

def TaskCategory.asStr : TaskCategory → Text
  | .system => "system".toList
  | .storage => "storage".toList
  | .network => "network".toList
  | .security => "security".toList
  | .service => "service".toList
  | .logs => "logs".toList
  | .web => "web".toList
  | .container => "container".toList
  | .script => "script".toList
  | .advanced => "advanced".toList

inductive PrivilegeRequirement where
  | currentUser
  | rootOrPasswordlessSudo
  deriving Repr, DecidableEq

inductive PrivilegeMode where
  | root
  | passwordlessSudo
  deriving Repr, DecidableEq

inductive ExecutionScope where
  | singleServer
  | readOnlyBatch
  deriving Repr, DecidableEq

inductive RiskLevel where
  | safe
  | caution
  | dangerous
  deriving Repr, DecidableEq

def RiskLevel.asStr : RiskLevel → Text
  | .safe => "safe".toList
  | .caution => "caution".toList
  | .dangerous => "dangerous".toList

inductive ResultParserKind where
  | text
  | keyValue
  | table
  | healthSummary
  | networkProbe
  | serviceStatus
  | containerStatus
  deriving Repr, DecidableEq

/-! ## §2. Parameters. -/

inductive ParameterKind where
  | string (minLength maxLength : Nat) (multiline : Bool)
  | integer (min max : Int)
  | boolean
  | enum (options : List Text)
  | absolutePath
  | timezone
  | serviceName
  | timeRange
  | host
  | port
  | interfaceName
  | cidr
  | containerName
  | fileMode
  | cronExpression
  | managedId
  | multiSelect (options : List Text) (maxItems : Nat)
  | serviceMultiSelect (maxItems : Nat)
  deriving Repr, DecidableEq

structure ParameterDefinition where
  name : Text
  label : Text
  kind : ParameterKind
  required : Bool
  defaultValue : Option Value
  sensitive : Bool
  deriving Repr

/-! ## §3. Steps, recovery and implementations. -/

structure CompatibilityPredicate where
  osFamilies : List Text
  serviceManagers : List Text
  requiredCommands : List Text
  deriving Repr, DecidableEq

structure TaskStep where
  id : Text
  title : Text
  timeoutSeconds : Nat
  outputLimitBytes : Nat
  commandTemplate : Text
  deriving Repr, DecidableEq

inductive BackupItemKind where
  | remoteFile
  | commandSnapshot
  | managedBlock
  | runtimeState
  deriving Repr, DecidableEq

structure BackupItemDefinition where
  id : Text
  kind : BackupItemKind
  targetTemplate : Text
  deriving Repr, DecidableEq

structure BackupPlan where
  items : List BackupItemDefinition
  deriving Repr, DecidableEq

structure RollbackPlan where
  steps : List TaskStep
  automaticOnFailure : Bool
  deriving Repr, DecidableEq

structure TaskImplementation where
  id : Text
  compatibility : CompatibilityPredicate
  preflightSteps : List TaskStep
  previewSteps : List TaskStep
  backupPlan : Option BackupPlan
  executionSteps : List TaskStep
  verifySteps : List TaskStep
  rollbackPlan : Option RollbackPlan
  resultParser : ResultParserKind
  deriving Repr, DecidableEq

structure TaskDefinition where
  id : Text
  version : Int
  category : TaskCategory
  title : Text
  riskLevel : RiskLevel
  privilege : PrivilegeRequirement
  scope : ExecutionScope
  parameters : List ParameterDefinition
  implementations : List TaskImplementation
  deriving Repr

end QingzhouSSH.Core.Tasks
