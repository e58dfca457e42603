/-
  QingzhouSSH.Domain.Workflow — workflow graphs.

  A draft has nodes with a configuration and labelled edges.  Node identifiers are
  only compared, so their type stays open.
-/
import QingzhouSSH.Core.Json
import QingzhouSSH.Lib.OrdMap

namespace QingzhouSSH.Domain

open QingzhouSSH.Lib

/-- A coordinate, an `f64` of which only finiteness matters. -/
inductive Coordinate where
  | finite (value : Rat)
  | infinite
  | nan
  deriving DecidableEq

def Coordinate.isFinite : Coordinate → Bool
  | .finite _ => true
  | _ => false

structure NodePosition where
  x : Coordinate
  y : Coordinate

inductive WorkflowCustomMode where
  | command
  | script
  deriving Repr, DecidableEq

inductive NumericOperator where
  | equal
  | notEqual
  | lessThan
  | lessThanOrEqual
  | greaterThan
  | greaterThanOrEqual
  deriving Repr, DecidableEq

inductive EqualityOperator where
  | equal
  | notEqual
  deriving Repr, DecidableEq

inductive WorkflowCondition where
  | exitCode (operator : NumericOperator) (value : Int)
  | resultField (path : Text) (operator : EqualityOperator) (value : Value)
  | outputContains (text : Text) (negated : Bool)

inductive WorkflowNodeConfig (ι : Type) where
  | start
  | task (taskId : Text) (taskVersion : Int) (parameters : OrdMap Text Value)
  | custom (mode : WorkflowCustomMode) (content : Text) (timeoutSeconds : Nat)
  | upload (localPath remotePath : Text) (overwrite createRestorePoint : Bool)
  | download (remotePath suggestedName : Text) (overwrite : Bool)
  | logSearch (path keyword : Text) (caseSensitive : Bool) (contextLines limit : Nat)
      (startTime endTime : Option Text)
  | condition (sourceNodeId : ι) (predicate : WorkflowCondition)
  | stop (message : Text)

structure WorkflowNode (ι : Type) where
  id : ι
  name : Text
  position : NodePosition
  config : WorkflowNodeConfig ι

inductive WorkflowEdgeBranch where
  | success
  | true
  | false
  deriving Repr, DecidableEq

structure WorkflowEdge (ι : Type) where
  source : ι
  target : ι
  branch : WorkflowEdgeBranch
  deriving DecidableEq

structure WorkflowDraft (ι : Type) where
  nodes : List (WorkflowNode ι)
  edges : List (WorkflowEdge ι)

end QingzhouSSH.Domain
