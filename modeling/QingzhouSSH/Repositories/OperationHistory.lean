/-
  QingzhouSSH.Repositories.OperationHistory — what any calls make of an operation run.

  The repository checks one change at a time, and its callers may interleave.  Whatever they
  call in whatever order, a run goes through its statuses once, and one that waits for its
  confirmation does not run before it has been backed up.

  Main results:
    * `perform_forward` — what one call does to a run;
    * `operation_run_lives_once` — what any sequence of calls keeps.
-/
import QingzhouSSH.Lib.History
import QingzhouSSH.Repositories.OperationRepository

namespace QingzhouSSH.Repositories.OperationRepository

open QingzhouSSH.Domain
open QingzhouSSH.Lib

/-! ## §1. Calls. -/

/-- The rows of one run. -/
structure OperationRows where
  run : OperationRunRecord
  steps : List OperationStepRecord

/-- The functions that write, with their arguments. -/
inductive RepositoryCall where
  | createStep (draft : NewOperationStep)
  | transition (next : OperationStatus)
  | startConfirmedUnrecoverablePersonalScript
  | setResult (encoded : Text)
  | markStepRunning (phase : OperationPhase) (index : Nat)
  | finishStep (finish : FinishOperationStep)
  | skipPendingSteps (phase : OperationPhase) (fromIndex : Nat)
  | recoverInterrupted

namespace OperationRows

/-- A call that is refused changes nothing. -/
def setRun (rows : OperationRows) (run : AppResult OperationRunRecord) : OperationRows :=
  { rows with run := run.toOption.getD rows.run }

def setSteps (rows : OperationRows) (steps : AppResult (List OperationStepRecord)) :
    OperationRows :=
  { rows with steps := steps.toOption.getD rows.steps }

def perform (call : RepositoryCall) (rows : OperationRows) : OperationRows :=
  match call with
  | .createStep draft => rows.setSteps (createStep draft rows.steps)
  | .transition next => rows.setRun (transition next rows.run)
  | .startConfirmedUnrecoverablePersonalScript =>
      rows.setRun (startConfirmedUnrecoverablePersonalScript rows.steps rows.run)
  | .setResult encoded => rows.setRun (setResult encoded rows.run)
  | .markStepRunning phase index => rows.setSteps (markStepRunning phase index rows.steps)
  | .finishStep finish => rows.setSteps (finishStep finish rows.steps)
  | .skipPendingSteps phase fromIndex =>
      { rows with steps := skipPendingSteps phase fromIndex rows.steps }
  | .recoverInterrupted =>
      let (run, steps) := recoverInterrupted rows.run rows.steps
      { run := run, steps := steps }

/-- The rows after these calls, the latest first. -/
def after (rows : OperationRows) (calls : List RepositoryCall) : OperationRows :=
  History.replay perform rows calls

/-- The one kind of run that needs no backup. -/
def IsPersonalScript (rows : OperationRows) : Prop :=
  rows.run.taskId = "script.personal".toList ∧ rows.run.riskLevel = .dangerous ∧ rows.steps = []

end OperationRows

/-- How far a run has come: 7 once it has ended, whatever is rolled back later. -/
def stage : OperationStatus → Nat
  | .validating => 0
  | .preflighting => 1
  | .previewReady => 2
  | .waitingConfirmation => 3
  | .backingUp => 4
  | .running => 5
  | .verifying => 6
  | _ => 7

/-! ## §2. One call. -/

/-- A run that goes on from these rows. -/
structure Forward (rows : OperationRows) (run : OperationRunRecord) : Prop where
  stage_le : stage rows.run.status ≤ stage run.status
  result : stage rows.run.status = 7 → run.result = rows.run.result
  final : rows.run.status = .cancelled ∨ rows.run.status = .rolledBack →
    run.status = rows.run.status
  waiting : rows.run.status = .waitingConfirmation →
    run.status = .waitingConfirmation ∨ run.status = .cancelled ∨ run.status = .backingUp
      ∨ rows.IsPersonalScript

theorem stage_le_seven (s : OperationStatus) : stage s ≤ 7 := by cases s <;> decide

theorem forward_transition {rows : OperationRows} {next : OperationStatus}
    (h : rows.run.status.canTransitionTo next = true) :
    Forward rows { rows.run with status := next } where
  stage_le := by
    show stage rows.run.status ≤ stage next
    revert h
    cases rows.run.status <;> cases next <;> decide
  result _ := rfl
  final hend := by
    rcases hend with hend | hend <;> rw [hend] at h <;> cases next <;> cases h
  waiting hwaiting := by
    rw [hwaiting] at h
    cases next with
    | cancelled => exact .inr (.inl rfl)
    | backingUp => exact .inr (.inr (.inl rfl))
    | _ => cases h

/-- **Every call takes a run forward.** -/
theorem perform_forward (call : RepositoryCall) (rows : OperationRows) :
    Forward rows (rows.perform call).run := by
  have hsame : Forward rows rows.run := ⟨Nat.le_refl _, fun _ => rfl, fun _ => rfl, .inl⟩
  have hset : ∀ result : AppResult OperationRunRecord,
      (∀ run, result = .ok run → Forward rows run) → Forward rows (rows.setRun result).run := by
    intro result h
    cases result with
    | error e => exact hsame
    | ok run => exact h run rfl
  cases call with
  | createStep | markStepRunning | finishStep | skipPendingSteps => exact hsame
  | transition next =>
      refine hset _ fun run h => ?_
      obtain ⟨hallowed, rfl⟩ := transition_ok h
      exact forward_transition hallowed
  | startConfirmedUnrecoverablePersonalScript =>
      refine hset _ fun run h => ?_
      unfold startConfirmedUnrecoverablePersonalScript at h
      split at h
      next => cases h
      next hscript =>
        obtain rfl := Except.ok.inj h
        simp only [not_or, not_not, Bool.not_eq_true', Bool.not_eq_false,
          List.isEmpty_iff] at hscript
        refine ⟨?_, fun _ => rfl, ?_, fun _ => .inr (.inr (.inr hscript.2))⟩
        · rw [hscript.1]
          show 3 ≤ 5
          decide
        · rw [hscript.1]
          rintro (hend | hend) <;> cases hend
  | setResult encoded =>
      refine hset _ fun run h => ?_
      obtain ⟨hrunning, -, rfl⟩ := setResult_ok h
      refine ⟨Nat.le_refl _, fun hended => ?_, fun _ => rfl, .inl⟩
      rcases hrunning with h | h <;> rw [h] at hended <;> cases hended
  | recoverInterrupted =>
      show Forward rows (recoverInterrupted rows.run rows.steps).1
      unfold recoverInterrupted
      split
      next h =>
        refine ⟨stage_le_seven _, fun _ => rfl, fun hend => ?_, fun hwaiting => ?_⟩
        · rcases hend with hend | hend <;> rw [hend] at h <;> cases h
        · rw [hwaiting] at h
          cases h
      next => exact hsame

/-! ## §3. Any sequence of calls. -/

/-- What holds between a state of the rows and the state after some calls. -/
structure LivesOnce (rows : OperationRows) (calls : List RepositoryCall) : Prop where
  /-- A status before the end that was left is not entered again. -/
  once : (rows.after calls).run.status = rows.run.status → stage rows.run.status < 7 →
    ∀ earlier, earlier <:+ calls → (rows.after earlier).run.status = rows.run.status
  /-- A run that waits for its confirmation does not run without a backup. -/
  backedUp : rows.run.status = .waitingConfirmation → (rows.after calls).run.status = .running →
    ∃ earlier, earlier <:+ calls ∧ ((rows.after earlier).run.status = .backingUp
      ∨ (rows.after earlier).IsPersonalScript)
  /-- What has ended keeps its result. -/
  result : stage rows.run.status = 7 → stage (rows.after calls).run.status = 7
    ∧ (rows.after calls).run.result = rows.run.result
  /-- A cancelled run stays cancelled, and one that is rolled back stays so. -/
  final : rows.run.status = .cancelled ∨ rows.run.status = .rolledBack →
    (rows.after calls).run.status = rows.run.status

section Calls

variable (rows : OperationRows)

theorem forward_after (call : RepositoryCall) (calls : List RepositoryCall) :
    Forward (rows.after calls) (rows.after (call :: calls)).run := perform_forward call _

theorem stage_le_after {earlier calls : List RepositoryCall} (h : earlier <:+ calls) :
    stage (rows.after earlier).run.status ≤ stage (rows.after calls).run.status := by
  obtain ⟨later, rfl⟩ := h
  induction later with
  | nil => exact Nat.le_refl _
  | cons call later ih => exact ih.trans (forward_after rows call _).stage_le

theorem cancelled_after {status : OperationStatus}
    (hend : status = .cancelled ∨ status = .rolledBack) (hstatus : rows.run.status = status)
    (calls : List RepositoryCall) : (rows.after calls).run.status = status := by
  induction calls with
  | nil => exact hstatus
  | cons call calls ih => exact ((forward_after rows call calls).final (ih ▸ hend)).trans ih

/-- Until it runs, a run that waited is waiting or cancelled, or it is backed up. -/
theorem waiting_or_backedUp (hwaiting : rows.run.status = .waitingConfirmation)
    (calls : List RepositoryCall) :
    (rows.after calls).run.status = .waitingConfirmation
      ∨ (rows.after calls).run.status = .cancelled
      ∨ ∃ earlier, earlier <:+ calls ∧ ((rows.after earlier).run.status = .backingUp
        ∨ (rows.after earlier).IsPersonalScript) := by
  induction calls with
  | nil => exact .inl hwaiting
  | cons call calls ih =>
      have hforward := forward_after rows call calls
      rcases ih with hstatus | hstatus | ⟨earlier, hearlier, hseen⟩
      · rcases hforward.waiting hstatus with h | h | h | h
        · exact .inl h
        · exact .inr (.inl h)
        · exact .inr (.inr ⟨_, List.suffix_rfl, .inl h⟩)
        · exact .inr (.inr ⟨calls, List.suffix_cons call calls, .inr h⟩)
      · exact .inr (.inl ((hforward.final (.inl hstatus)).trans hstatus))
      · exact .inr (.inr ⟨earlier, hearlier.trans (List.suffix_cons call calls), hseen⟩)

/-- **However the calls on a run are ordered, it goes through its statuses once, runs only
after its backup, and keeps what it has come to.** -/
theorem operation_run_lives_once (calls : List RepositoryCall) : LivesOnce rows calls where
  once hsame hbefore earlier hearlier := by
    have hinjective : ∀ {s t : OperationStatus}, stage s = stage t → stage t < 7 → s = t := by
      intro s t
      cases s <;> cases t <;> decide
    have hlow := stage_le_after rows (List.nil_suffix (l := earlier))
    have hhigh := stage_le_after rows hearlier
    rw [hsame] at hhigh
    exact hinjective (Nat.le_antisymm hhigh hlow) hbefore
  backedUp hwaiting hrunning := by
    rcases waiting_or_backedUp rows hwaiting calls with h | h | h
    · exact absurd (h.symm.trans hrunning) (by decide)
    · exact absurd (h.symm.trans hrunning) (by decide)
    · exact h
  result hended := by
    induction calls with
    | nil => exact ⟨hended, rfl⟩
    | cons call calls ih =>
        have hforward := forward_after rows call calls
        have hstage := hforward.stage_le
        rw [ih.1] at hstage
        exact ⟨Nat.le_antisymm (stage_le_seven _) hstage, (hforward.result ih.1).trans ih.2⟩
  final hend := cancelled_after rows hend rfl calls

end Calls

end QingzhouSSH.Repositories.OperationRepository
