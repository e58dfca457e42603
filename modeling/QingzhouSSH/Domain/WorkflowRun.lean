/-
  QingzhouSSH.Domain.WorkflowRun — workflow runs and their nodes.

  The statuses of a run and of a node, and the columns of the two tables that the
  modelled code reads or writes.  The times of a row are left out: no decision
  depends on them.
-/
import QingzhouSSH.Core.Tasks.Parameters
import QingzhouSSH.Domain.Workflow

namespace QingzhouSSH.Domain

open QingzhouSSH.Core.Tasks (isHyphenated)

/-! ## §1. Identifiers. -/

/-- A UUID, as its hyphenated text. -/
structure Uuid where
  text : Text
  hyphenated : isHyphenated text = true
  deriving DecidableEq

/-- `Uuid::parse_str` of a hyphenated text; the crate accepts other spellings too. -/
def Uuid.parseStr (text : Text) : Option Uuid :=
  if h : isHyphenated text = true then some ⟨text, h⟩ else none

theorem Uuid.parseStr_text (id : Uuid) : Uuid.parseStr id.text = some id := by
  unfold Uuid.parseStr
  rw [dif_pos id.hyphenated]

theorem Uuid.length_text (id : Uuid) : id.text.length = 36 := by
  have h := id.hyphenated
  unfold isHyphenated at h
  simp only [Bool.and_eq_true, beq_iff_eq] at h
  exact h.1.1

/-- The identifiers of examples differ in the last digit. -/
theorem hyphenated_digit (n : Fin 10) :
    isHyphenated ("00000000-0000-4000-8000-00000000000".toList ++ [Nat.digitChar n]) = true := by
  revert n
  decide

theorem hyphenated_one : isHyphenated "00000000-0000-4000-8000-000000000001".toList = true := by
  decide

theorem hyphenated_unversioned :
    isHyphenated "00000000-0000-0000-0000-000000000001".toList = true := by
  decide

/-- The digits of these identifiers are written as numerals. -/
instance neZeroTen : NeZero 10 := ⟨by decide⟩

/-- The characters of an identifier. -/
theorem Uuid.text_chars (id : Uuid) : ∀ c ∈ id.text,
    c = '-' ∨ (48 ≤ c.toNat ∧ c.toNat ≤ 57) ∨ (97 ≤ c.toNat ∧ c.toNat ≤ 102) := by
  have h := id.hyphenated
  unfold isHyphenated at h
  simp only [Bool.and_eq_true, List.all_eq_true, Bool.or_eq_true, beq_iff_eq,
    decide_eq_true_eq] at h
  intro c hc
  rcases h.1.2 c hc with (hdash | hdigit) | ⟨hlow, hhigh⟩
  · exact Or.inl hdash
  · exact Or.inr (Or.inl (Char.isDigit_iff_toNat.mp hdigit))
  · exact Or.inr (Or.inr ⟨UInt32.le_iff_toNat_le.mp hlow, UInt32.le_iff_toNat_le.mp hhigh⟩)

/-! ## §2. Statuses. -/

inductive WorkflowRunStatus where
  | queued
  | running
  | paused
  | succeeded
  | cancelled
  | uncertain
  | rolledBack
  | rollbackFailed
  deriving Repr, DecidableEq

namespace WorkflowRunStatus

def asStr : WorkflowRunStatus → Text
  | .queued => "queued".toList
  | .running => "running".toList
  | .paused => "paused".toList
  | .succeeded => "succeeded".toList
  | .cancelled => "cancelled".toList
  | .uncertain => "uncertain".toList
  | .rolledBack => "rolled_back".toList
  | .rollbackFailed => "rollback_failed".toList

def fromStr (value : Text) : Option WorkflowRunStatus :=
  [queued, running, paused, succeeded, cancelled, uncertain, rolledBack, rollbackFailed].find?
    fun status => status.asStr == value

end WorkflowRunStatus

inductive WorkflowNodeStatus where
  | pending
  | running
  | succeeded
  | failed
  | cancelled
  | uncertain
  | skipped
  deriving Repr, DecidableEq

namespace WorkflowNodeStatus

def asStr : WorkflowNodeStatus → Text
  | .pending => "pending".toList
  | .running => "running".toList
  | .succeeded => "succeeded".toList
  | .failed => "failed".toList
  | .cancelled => "cancelled".toList
  | .uncertain => "uncertain".toList
  | .skipped => "skipped".toList

def fromStr (value : Text) : Option WorkflowNodeStatus :=
  [pending, running, succeeded, failed, cancelled, uncertain, skipped].find?
    fun status => status.asStr == value

/-- `is_terminal`. -/
def isTerminal : WorkflowNodeStatus → Bool
  | .succeeded | .failed | .cancelled | .uncertain | .skipped => true
  | .pending | .running => false

end WorkflowNodeStatus

inductive WorkflowRestorePointStatus where
  | creating
  | available
  | failed
  | rollingBack
  | rolledBack
  | expired
  deriving Repr, DecidableEq

def WorkflowRestorePointStatus.asStr : WorkflowRestorePointStatus → Text
  | .creating => "creating".toList
  | .available => "available".toList
  | .failed => "failed".toList
  | .rollingBack => "rolling_back".toList
  | .rolledBack => "rolled_back".toList
  | .expired => "expired".toList

/-! ## §3. Rows. -/

/-- A stored version of a workflow. -/
structure WorkflowDefinition where
  id : Uuid
  version : Int
  nodes : List (WorkflowNode Uuid)
  edges : List (WorkflowEdge Uuid)

/-- `WorkflowDraft::from`. -/
def WorkflowDefinition.draft (definition : WorkflowDefinition) : WorkflowDraft Uuid :=
  { nodes := definition.nodes, edges := definition.edges }

/-- A row of `workflow_runs`. -/
structure WorkflowRunRecord where
  id : Uuid
  workflowId : Uuid
  workflowVersion : Int
  serverId : Text
  status : WorkflowRunStatus
  currentNodeId : Option Uuid
  errorCategory : Option Text
  errorMessage : Option Text
  retryable : Bool

/-- A row of `workflow_node_runs`, of one run. -/
structure WorkflowNodeRun where
  nodeId : Uuid
  attempt : Nat
  status : WorkflowNodeStatus
  executionId : Option Uuid
  exitCode : Option Int
  result : Option Value
  outputSummary : Option Text
  errorMessage : Option Text
  retryable : Bool

structure FinishWorkflowNode where
  nodeId : Uuid
  attempt : Nat
  status : WorkflowNodeStatus
  exitCode : Option Int
  result : Option Value
  outputSummary : Option Text
  errorMessage : Option Text
  retryable : Bool

structure FinishWorkflowRun where
  status : WorkflowRunStatus
  errorCategory : Option Text
  errorMessage : Option Text
  retryable : Bool

/-- `attempt` is an `i32` that counts from one. -/
abbrev Attempt := Fin (2 ^ 31)

end QingzhouSSH.Domain
