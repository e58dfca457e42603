/-
  QingzhouSSH.Core.Workflows.StateMachine — the changes of a run's status that the domain
  allows.
-/
import QingzhouSSH.Domain.WorkflowRun

namespace QingzhouSSH.Core.Workflows

open QingzhouSSH.Domain

def validateRunTransition (source target : WorkflowRunStatus) : AppResult Unit :=
  let allowed :=
    match source, target with
    | .queued, .running | .queued, .cancelled
    | .running, .paused | .running, .succeeded | .running, .cancelled | .running, .uncertain
    | .paused, .running | .paused, .cancelled | .paused, .rolledBack | .paused, .rollbackFailed
    | .succeeded, .rolledBack | .succeeded, .rollbackFailed
    | .cancelled, .rolledBack | .cancelled, .rollbackFailed
    | .uncertain, .rolledBack | .uncertain, .rollbackFailed
    | .rollbackFailed, .rolledBack => true
    | _, _ => false
  if allowed then .ok ()
  else
    .error (.validation
      ("工作流状态不能从 ".toList ++ source.asStr ++ " 转为 ".toList ++ target.asStr))

/-- A row of a run before and after a statement: it stays, and its status stays or changes
as the domain allows; a new one is queued. -/
def Follows (before after : Option WorkflowRunRecord) : Prop :=
  match before, after with
  | none, none => True
  | none, some run => run.status = .queued
  | some run, some run' =>
      run.status = run'.status ∨ validateRunTransition run.status run'.status = .ok ()
  | some _, none => False

theorem Follows.same (row : Option WorkflowRunRecord) : Follows row row := by
  cases row with
  | none => trivial
  | some run => exact Or.inl rfl

end QingzhouSSH.Core.Workflows
