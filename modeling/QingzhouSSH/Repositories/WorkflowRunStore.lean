/-
  QingzhouSSH.Repositories.WorkflowRunStore — the runs of all workflows.

  The store keeps the tables of every run.  An operation that is refused changes nothing.

  Main results:
    * `updateRun_follows`, `perform_follows` — what one operation does to the rows;
    * `every_change_allowed` — no operation of any history leaves the state machine of a run.
-/
import Mathlib.Logic.Function.Basic
import QingzhouSSH.Core.Workflows.StateMachine
import QingzhouSSH.Lib.History
import QingzhouSSH.Repositories.WorkflowRepository

namespace QingzhouSSH.Repositories.WorkflowRepository

open QingzhouSSH.Core.Workflows
open QingzhouSSH.Domain
open QingzhouSSH.Lib

/-! ## §1. Operations. -/

abbrev RunStore := Uuid → RunTables

def RunStore.empty : RunStore := fun _ => { run := none, nodeRuns := [], events := [] }

/-- The operations that write a run's status, with their arguments. -/
inductive RunOperation where
  | createRun (id workflowId : Uuid) (workflowVersion : Int) (serverId : Text)
  | markRunRunning (runId currentNodeId : Uuid)
  | finishRun (runId : Uuid) (finish : FinishWorkflowRun)
  | resumePausedRun (runId : Uuid)
  | finishRollbackRun (runId : Uuid) (succeeded : Bool) (errorMessage : Option Text)
  | recoverInterrupted

/-- A transaction on the tables of one run. -/
def onRun (runId : Uuid) (f : RunTables → AppResult RunTables) (store : RunStore) :
    AppResult RunStore :=
  (f (store runId)).map (Function.update store runId)

/-- A new run; the table has one row for an identifier. -/
def insertRun (id workflowId : Uuid) (workflowVersion : Int) (serverId : Text)
    (tables : RunTables) : AppResult RunTables :=
  if tables.run.isSome then
    .error (.database "UNIQUE constraint failed: workflow_runs.id".toList)
  else createRun id workflowId workflowVersion serverId tables

def RunOperation.apply : RunOperation → RunStore → AppResult RunStore
  | .createRun id workflowId workflowVersion serverId =>
      onRun id (insertRun id workflowId workflowVersion serverId)
  | .markRunRunning runId currentNodeId =>
      onRun runId (WorkflowRepository.markRunRunning currentNodeId)
  | .finishRun runId finish => onRun runId (WorkflowRepository.finishRun finish)
  | .resumePausedRun runId => onRun runId WorkflowRepository.resumePausedRun
  | .finishRollbackRun runId succeeded errorMessage =>
      onRun runId (WorkflowRepository.finishRollbackRun succeeded errorMessage)
  | .recoverInterrupted => fun store =>
      .ok fun runId => WorkflowRepository.recoverInterrupted (store runId)

/-- The store after an operation, be it refused or not. -/
def RunOperation.perform (operation : RunOperation) (store : RunStore) : RunStore :=
  match operation.apply store with
  | .ok store' => store'
  | .error _ => store

/-- The row of a run after these operations, the latest first. -/
def rowAfter (history : List RunOperation) (runId : Uuid) : Option WorkflowRunRecord :=
  (History.replay RunOperation.perform RunStore.empty history runId).run

/-! ## §2. One operation. -/

theorem updateRun_follows {guard : WorkflowRunRecord → Bool}
    {f : WorkflowRunRecord → WorkflowRunRecord} {message : String} {tables tables' : RunTables}
    (hallowed : ∀ run, guard run = true →
      run.status = (f run).status ∨ validateRunTransition run.status (f run).status = .ok ())
    (h : updateRun guard f message tables = .ok tables') : Follows tables.run tables'.run := by
  obtain ⟨run, hrun, hguard, rfl⟩ := updateRun_ok h
  rw [hrun]
  exact hallowed run hguard

theorem createRun_follows {id workflowId : Uuid} {workflowVersion : Int} {serverId : Text}
    {tables tables' : RunTables}
    (h : insertRun id workflowId workflowVersion serverId tables = .ok tables') :
    Follows tables.run tables'.run := by
  unfold insertRun createRun at h
  cases hrun : tables.run with
  | some run =>
      rw [hrun] at h
      cases h
  | none =>
      rw [hrun, if_neg nofun] at h
      split at h
      next => cases h
      next =>
        cases h
        exact rfl

theorem markRunRunning_follows {currentNodeId : Uuid} {tables tables' : RunTables}
    (h : markRunRunning currentNodeId tables = .ok tables') : Follows tables.run tables'.run := by
  refine updateRun_follows (fun run hguard => Or.inr ?_) h
  rw [eq_of_beq hguard]
  rfl

theorem finishRun_follows {finish : FinishWorkflowRun} {tables tables' : RunTables}
    (h : finishRun finish tables = .ok tables') : Follows tables.run tables'.run := by
  unfold finishRun at h
  split at h
  next hend =>
    refine updateRun_follows (fun run hguard => Or.inr ?_) h
    rw [eq_of_beq hguard]
    show validateRunTransition .running finish.status = .ok ()
    cases hstatus : finish.status with
    | paused | succeeded | cancelled | uncertain => rfl
    | queued | running | rolledBack | rollbackFailed =>
        rw [hstatus] at hend
        cases hend
  next => cases h

theorem resumePausedRun_follows {tables tables' : RunTables}
    (h : resumePausedRun tables = .ok tables') : Follows tables.run tables'.run := by
  refine updateRun_follows (fun run hguard => Or.inr ?_) h
  rw [eq_of_beq (Bool.and_eq_true_iff.mp hguard).1]
  rfl

/-- A rollback that fails once more leaves the status as it is; the table of transitions has
no entry for that. -/
theorem finishRollbackRun_follows {succeeded : Bool} {errorMessage : Option Text}
    {tables tables' : RunTables} (h : finishRollbackRun succeeded errorMessage tables = .ok tables') :
    Follows tables.run tables'.run := by
  refine updateRun_follows (fun run hguard => ?_) h
  show run.status = (if succeeded then .rolledBack else .rollbackFailed) ∨
    validateRunTransition run.status (if succeeded then .rolledBack else .rollbackFailed) = .ok ()
  cases hstatus : run.status with
  | paused | succeeded | cancelled | uncertain => cases succeeded <;> exact Or.inr rfl
  | rollbackFailed =>
      cases succeeded with
      | true => exact Or.inr rfl
      | false => exact Or.inl rfl
  | queued | running | rolledBack =>
      rw [hstatus] at hguard
      cases hguard

theorem recoverInterrupted_follows (tables : RunTables) :
    Follows tables.run (recoverInterrupted tables).run := by
  unfold recoverInterrupted
  cases tables.run with
  | none => trivial
  | some run =>
      dsimp only [Option.map_some]
      by_cases hrunning : run.status = .running
      · rw [if_pos hrunning]
        refine Or.inr ?_
        rw [hrunning]
        rfl
      · rw [if_neg hrunning]
        exact Or.inl rfl

theorem onRun_follows {runId : Uuid} {f : RunTables → AppResult RunTables}
    (hf : ∀ tables tables', f tables = .ok tables' → Follows tables.run tables'.run)
    {store store' : RunStore} (h : onRun runId f store = .ok store') (id : Uuid) :
    Follows (store id).run (store' id).run := by
  unfold onRun at h
  cases hresult : f (store runId) with
  | error e =>
      rw [hresult] at h
      cases h
  | ok tables' =>
      rw [hresult] at h
      cases h
      by_cases hid : id = runId
      · rw [hid, Function.update_self]
        exact hf _ _ hresult
      · rw [Function.update_of_ne hid]
        exact .same _

/-- **One operation changes a run's status as the domain allows, and no other run.** -/
theorem perform_follows (operation : RunOperation) (store : RunStore) (id : Uuid) :
    Follows (store id).run (operation.perform store id).run := by
  unfold RunOperation.perform
  cases happly : operation.apply store with
  | error e => exact .same _
  | ok store' =>
      cases operation with
      | createRun => exact onRun_follows (fun _ _ => createRun_follows) happly id
      | markRunRunning => exact onRun_follows (fun _ _ => markRunRunning_follows) happly id
      | finishRun => exact onRun_follows (fun _ _ => finishRun_follows) happly id
      | resumePausedRun => exact onRun_follows (fun _ _ => resumePausedRun_follows) happly id
      | finishRollbackRun => exact onRun_follows (fun _ _ => finishRollbackRun_follows) happly id
      | recoverInterrupted =>
          cases happly
          exact recoverInterrupted_follows (store id)

/-! ## §3. Histories. -/

/-- **Every change of a run's status is a transition of the domain**, in every history that
starts from an empty store. -/
theorem every_change_allowed (history : List RunOperation) (operation : RunOperation)
    (runId : Uuid) : Follows (rowAfter history runId) (rowAfter (operation :: history) runId) :=
  perform_follows operation _ runId

end QingzhouSSH.Repositories.WorkflowRepository
