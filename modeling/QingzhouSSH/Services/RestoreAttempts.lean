/-
  QingzhouSSH.Services.RestoreAttempts — what a rollback makes of a restore point.

  One rollback takes up the items of a point that are not settled, last to first, until
  it is cancelled or loses the connection.  It counts what it restores itself, while the
  statuses of the items are kept from one rollback to the next.

  Main results:
    * `rollbackItems_spec` — what the loop over the items leaves, from the outcomes;
    * `rollback_classified` — when the status of the point is the one its items call for.
-/
import QingzhouSSH.Repositories.OperationRestoreItems
import QingzhouSSH.Services.OperationRestoreService

namespace QingzhouSSH.Services.OperationRestoreService

open QingzhouSSH.Lib
open QingzhouSSH.Domain
open QingzhouSSH.Core.Tasks (PrivilegeMode)
open QingzhouSSH.Repositories.OperationRestoreRepository
open Process (runOn runOn_then runOn_error)

variable {ι : Type}

/-! ## §1. Outcomes. -/

/-- What comes of an item that a rollback takes up. -/
inductive ItemOutcome where
  | cancelled
  | refused
  | restored
  | failed (error : AppError)

/-- After it no further item is taken up. -/
def ItemOutcome.stops : ItemOutcome → Bool
  | .cancelled | .refused => true
  | .restored => false
  | .failed e => isConnectionUncertain e

def ItemOutcome.isRestored : ItemOutcome → Bool
  | .restored => true
  | _ => false

/-- The connection is lost. -/
def ItemOutcome.isLost : ItemOutcome → Bool
  | .failed e => isConnectionUncertain e
  | _ => false

/-- The rollback passes over the item. -/
def Settled (item : OperationRestoreItem ι) : Prop :=
  item.status = .rolledBack ∨ item.status = .skipped

instance : DecidablePred (@Settled ι) := fun item =>
  inferInstanceAs (Decidable (item.status = .rolledBack ∨ item.status = .skipped))

section

variable (answer : Nat → (question : RollbackQuestion ι) → RollbackAnswer question)
  (taskId : Text) (privilegeMode : PrivilegeMode)

/-- The outcome of an item that is taken up after `n` questions. -/
def outcomeAt (n : Nat) (item : OperationRestoreItem ι) : ItemOutcome :=
  let cancelled : Bool := answer n .isCancelled
  if cancelled then .cancelled
  -- `mark_item_rolling_back` only takes items in these two statuses
  else if item.status ∉ [.available, .failed] then .refused
  else
    let result : AppResult Unit := answer (n + 1) (.rollbackItem taskId item privilegeMode)
    match result with
    | .ok _ => .restored
    | .error e => .failed e

/-- The outcomes of the items that are taken up, in their order. -/
def outcomes : Nat → List (OperationRestoreItem ι) → List ItemOutcome
  | _, [] => []
  | n, item :: rest =>
      if Settled item then outcomes n rest
      else
        let outcome := outcomeAt answer taskId privilegeMode n item
        if outcome.stops then [outcome] else outcome :: outcomes (n + 2) rest

end

/-- How many items are still to be taken up. -/
def unsettled (items : List (OperationRestoreItem ι)) : Nat := items.countP fun item => ¬ Settled item

/-- How many items are restored. -/
def restoredAmong (outcomes : List ItemOutcome) : Nat := outcomes.countP fun o => o.isRestored

theorem isRestored_iff {o : ItemOutcome} : o.isRestored = true ↔ o = .restored := by
  cases o <;> simp [ItemOutcome.isRestored]

section

variable {answer : Nat → (question : RollbackQuestion ι) → RollbackAnswer question}
  {taskId : Text} {privilegeMode : PrivilegeMode}

theorem outcomes_settled {item : OperationRestoreItem ι} (h : Settled item) (n : Nat)
    (rest : List (OperationRestoreItem ι)) :
    outcomes answer taskId privilegeMode n (item :: rest)
      = outcomes answer taskId privilegeMode n rest := if_pos h

theorem outcomes_stops {item : OperationRestoreItem ι} (h : ¬ Settled item) {n : Nat}
    {o : ItemOutcome} (ho : outcomeAt answer taskId privilegeMode n item = o) (hstops : o.stops = true)
    (rest : List (OperationRestoreItem ι)) :
    outcomes answer taskId privilegeMode n (item :: rest) = [o] := by
  subst ho
  exact (if_neg h).trans (if_pos hstops)

theorem outcomes_goes_on {item : OperationRestoreItem ι} (h : ¬ Settled item) {n : Nat}
    {o : ItemOutcome} (ho : outcomeAt answer taskId privilegeMode n item = o) (hstops : o.stops = false)
    (rest : List (OperationRestoreItem ι)) :
    outcomes answer taskId privilegeMode n (item :: rest)
      = o :: outcomes answer taskId privilegeMode (n + 2) rest := by
  subst ho
  exact (if_neg h).trans (if_neg (by rw [hstops]; decide))

/-- All items that were to be taken up are restored, exactly when everything that was
taken up is. -/
theorem restoredAmong_outcomes (items : List (OperationRestoreItem ι)) (n : Nat) :
    restoredAmong (outcomes answer taskId privilegeMode n items) ≤ unsettled items
      ∧ (restoredAmong (outcomes answer taskId privilegeMode n items) = unsettled items
        ↔ ∀ o ∈ outcomes answer taskId privilegeMode n items, o = .restored) := by
  induction items generalizing n with
  | nil => exact ⟨Nat.le_refl _, by simp [outcomes, restoredAmong, unsettled]⟩
  | cons item rest ih =>
      by_cases hsettled : Settled item
      · have hsame : unsettled (item :: rest) = unsettled rest :=
          List.countP_cons_of_neg (by simpa using hsettled)
        rw [outcomes_settled hsettled, hsame]
        exact ih n
      have hmore : unsettled (item :: rest) = unsettled rest + 1 :=
        List.countP_cons_of_pos (by simpa using hsettled)
      cases hstops : (outcomeAt answer taskId privilegeMode n item).stops with
      | true =>
          -- nothing that stops the loop is a restored item
          have hnot : (outcomeAt answer taskId privilegeMode n item).isRestored = false := by
            cases ho : outcomeAt answer taskId privilegeMode n item with
            | restored => rw [ho] at hstops; cases hstops
            | _ => rfl
          rw [outcomes_stops hsettled rfl hstops, hmore]
          have hzero : restoredAmong [outcomeAt answer taskId privilegeMode n item] = 0 := by
            unfold restoredAmong
            rw [List.countP_singleton, hnot]
            rfl
          rw [hzero]
          refine ⟨Nat.zero_le _, by omega, fun hall => ?_⟩
          rw [isRestored_iff.mpr (hall _ List.mem_cons_self)] at hnot
          cases hnot
      | false =>
          obtain ⟨hle, hiff⟩ := ih (n + 2)
          rw [outcomes_goes_on hsettled rfl hstops, hmore]
          by_cases hrestored : outcomeAt answer taskId privilegeMode n item = .restored
          · have hone : restoredAmong (outcomeAt answer taskId privilegeMode n item
                  :: outcomes answer taskId privilegeMode (n + 2) rest)
                = restoredAmong (outcomes answer taskId privilegeMode (n + 2) rest) + 1 :=
              List.countP_cons_of_pos (isRestored_iff.mpr hrestored)
            rw [hone, List.forall_mem_cons]
            refine ⟨by omega, fun heq => ⟨hrestored, hiff.mp (by omega)⟩, fun hall => ?_⟩
            rw [hiff.mpr hall.2]
          · have hone : restoredAmong (outcomeAt answer taskId privilegeMode n item
                  :: outcomes answer taskId privilegeMode (n + 2) rest)
                = restoredAmong (outcomes answer taskId privilegeMode (n + 2) rest) :=
              List.countP_cons_of_neg fun h => hrestored (isRestored_iff.mp h)
            rw [hone]
            exact ⟨by omega, by omega, fun hall => absurd (hall _ List.mem_cons_self) hrestored⟩

end

/-! ## §2. The loop. -/

def rolledBackAmong (items : List (OperationRestoreItem ι)) : Nat :=
  items.countP fun item => item.status = .rolledBack

/-- What the loop returns, from where it starts and from the outcomes. -/
structure Progressed (os : List ItemOutcome) (before after : RollbackProgress) : Prop where
  succeeded : after.succeeded = before.succeeded + restoredAmong os
  failures : after.failures = [] ↔ before.failures = [] ∧ ∀ o ∈ os, o = .restored
  uncertain : after.uncertainFailure.isSome
    = (before.uncertainFailure.isSome || os.any fun o => o.isLost)

theorem Progressed.nothing (progress : RollbackProgress) : Progressed [] progress progress where
  succeeded := rfl
  failures := by simp
  uncertain := by simp

theorem Progressed.cons_restored {os : List ItemOutcome} {before after : RollbackProgress}
    (h : Progressed os { before with succeeded := before.succeeded + 1 } after) :
    Progressed (.restored :: os) before after where
  succeeded := by
    have hcons : restoredAmong (.restored :: os) = restoredAmong os + 1 :=
      List.countP_cons_of_pos rfl
    have := h.succeeded
    dsimp only at this
    omega
  failures := by simpa using h.failures
  uncertain := h.uncertain

/-- An item that failed, with the connection still there. -/
theorem Progressed.cons_failed {os : List ItemOutcome} {before after : RollbackProgress} {e : AppError}
    (he : isConnectionUncertain e = false) {failure : Text}
    (h : Progressed os { before with failures := before.failures ++ [failure] } after) :
    Progressed (.failed e :: os) before after where
  succeeded := h.succeeded
  failures := by simpa using h.failures
  uncertain := by
    have hlost := h.uncertain
    rw [List.any_cons, show (ItemOutcome.failed e).isLost = false from he, Bool.false_or]
    exact hlost

variable [DecidableEq ι]

theorem runOn_call (answer : Nat → (question : RollbackQuestion ι) → RollbackAnswer question) (n : Nat)
    (c : Call ι) (calls : List (Call ι)) :
    runOn answer n (call c).run calls
      = (n, (c.apply (tableAfter calls)).map fun _ => (), calls ++ [c]) := rfl

theorem runOn_call_ok (answer : Nat → (question : RollbackQuestion ι) → RollbackAnswer question)
    (n : Nat) {c : Call ι} {calls : List (Call ι)} {table : Table ι}
    (h : c.apply (tableAfter calls) = .ok table) :
    runOn answer n (call c).run calls = (n, .ok (), calls ++ [c])
      ∧ tableAfter (calls ++ [c]) = table := by
  rw [runOn_call, tableAfter_snoc, h]
  refine ⟨rfl, ?_⟩
  unfold Call.rows
  rw [h]

/-- What marking an item and recording its outcome make of it. -/
def recorded (status : OperationRestoreItemStatus) (summary : Option Text)
    (item : OperationRestoreItem ι) : OperationRestoreItem ι :=
  { item with status := status, errorSummary := capUtf8 summary (8 * 1024) }

/-- Marking an item and recording its outcome. -/
theorem takenUp (answer : Nat → (question : RollbackQuestion ι) → RollbackAnswer question) {point : ι}
    {calls : List (Call ι)} {d : OperationRestoreDetails ι} {item : OperationRestoreItem ι}
    (hget : get point (tableAfter calls) = some d) (hitem : item ∈ d.items)
    (hmarkable : item.status ∈ [OperationRestoreItemStatus.available, .failed])
    (status : OperationRestoreItemStatus)
    (hstatus : [OperationRestoreItemStatus.rolledBack, .failed, .skipped].contains status = true)
    (summary : Option Text) :
    (∀ n, runOn answer n (call (.markItemRollingBack item.id)).run calls
        = (n, .ok (), calls ++ [.markItemRollingBack item.id]))
      ∧ (∀ n, runOn answer n (call (.finishItemRollback item.id status summary)).run
            (calls ++ [.markItemRollingBack item.id])
          = (n, .ok (), calls ++ [.markItemRollingBack item.id]
              ++ [.finishItemRollback item.id status summary]))
      ∧ get point (tableAfter (calls ++ [.markItemRollingBack item.id]
            ++ [.finishItemRollback item.id status summary]))
          = some (changeItem item.id (recorded status summary) d) := by
  let marking : OperationRestoreItem ι → OperationRestoreItem ι :=
    fun item => { item with status := .rollingBack, errorSummary := none }
  obtain ⟨marked, hmark, hgetMarked⟩ : ∃ marked,
      (Call.markItemRollingBack item.id).apply (tableAfter calls) = .ok marked
        ∧ get point marked = some (changeItem item.id marking d) :=
    updateItem_one hget (items_apart hget) hitem hmarkable
  have hmarked := fun n => runOn_call_ok answer n hmark
  rw [← (hmarked 0).2] at hgetMarked
  have hitemMarked : marking item ∈ (changeItem item.id marking d).items :=
    List.mem_map.mpr ⟨item, hitem, if_pos rfl⟩
  obtain ⟨finished, hfinish, hgetFinished⟩ : ∃ finished,
      updateItem item.id [.rollingBack] (recorded status summary)
          (.validation "恢复项不处于回滚执行状态".toList)
          (tableAfter (calls ++ [.markItemRollingBack item.id])) = .ok finished
        ∧ get point finished = some (changeItem item.id (recorded status summary)
            (changeItem item.id marking d)) :=
    updateItem_one hgetMarked (items_apart hgetMarked) hitemMarked List.mem_cons_self
  have hfinish : (Call.finishItemRollback item.id status summary).apply
      (tableAfter (calls ++ [.markItemRollingBack item.id])) = .ok finished :=
    (if_pos hstatus).trans hfinish
  have hfinished := fun n => runOn_call_ok answer n hfinish
  refine ⟨fun n => (hmarked n).1, fun n => (hfinished n).1, ?_⟩
  have hsameId : ∀ item, (marking item).id = item.id := fun _ => rfl
  rw [(hfinished 0).2, hgetFinished]
  exact congrArg some (changeItem_changeItem hsameId item.id d)

/-- The counts of a point when one of its items is recorded. -/
theorem changeItem_counts {d : OperationRestoreDetails ι} {item : OperationRestoreItem ι}
    (hapart : (d.items.map fun item => item.id).Nodup) (hitem : item ∈ d.items)
    (hunsettled : ¬ Settled item) (summary : Option Text) :
    (unsettled (changeItem item.id (recorded .rolledBack summary) d).items + 1 = unsettled d.items
        ∧ rolledBackAmong (changeItem item.id (recorded .rolledBack summary) d).items
          = rolledBackAmong d.items + 1)
      ∧ unsettled (changeItem item.id (recorded .failed summary) d).items = unsettled d.items
      ∧ rolledBackAmong (changeItem item.id (recorded .failed summary) d).items
          = rolledBackAmong d.items := by
  have hnot : item.status ≠ .rolledBack := fun h => hunsettled (.inl h)
  have hrolledBack : Settled (recorded .rolledBack summary item) := .inl rfl
  have hfailed : ¬ Settled (recorded .failed summary item) := by
    intro h
    rcases h with h | h <;> cases h
  have hcount := fun (status : OperationRestoreItemStatus) =>
    countP_changeItem (recorded status summary) hapart hitem
  have hpending := fun status => hcount status fun item => decide (¬ Settled item)
  have hdone := fun status => hcount status fun item => decide (item.status = .rolledBack)
  unfold unsettled rolledBackAmong
  refine ⟨⟨?_, ?_⟩, ?_, ?_⟩
  · have h := hpending .rolledBack
    rw [decide_eq_true hunsettled, decide_eq_false (not_not.mpr hrolledBack)] at h
    exact h
  · have h := hdone .rolledBack
    rw [decide_eq_false hnot] at h
    exact h
  · have h := hpending .failed
    rw [decide_eq_true hunsettled, decide_eq_true hfailed] at h
    exact Nat.add_right_cancel h
  · have h := hdone .failed
    rw [decide_eq_false hnot] at h
    exact h

/-- What the loop leaves in the tables, from the outcomes. -/
structure Left (os : List ItemOutcome) (point : ι) (d : OperationRestoreDetails ι)
    (table : Table ι) (d' : OperationRestoreDetails ι) : Prop where
  found : get point table = some d'
  same : d'.point = d.point
  pending : unsettled d'.items + restoredAmong os = unsettled d.items
  rolledBack : rolledBackAmong d'.items = rolledBackAmong d.items + restoredAmong os

section

variable {os : List ItemOutcome} {point : ι} {d changed d' : OperationRestoreDetails ι} {table : Table ι}

theorem Left.cons_restored (h : Left os point changed table d')
    (hcounts : unsettled changed.items + 1 = unsettled d.items
      ∧ rolledBackAmong changed.items = rolledBackAmong d.items + 1)
    (hpoint : changed.point = d.point) : Left (.restored :: os) point d table d' := by
  have hcons : restoredAmong (.restored :: os) = restoredAmong os + 1 := List.countP_cons_of_pos rfl
  refine ⟨h.found, h.same.trans hpoint, ?_, ?_⟩
  · have := h.pending
    omega
  · have := h.rolledBack
    omega

/-- The outcome of an item that is not restored changes no count. -/
theorem Left.cons_other {o : ItemOutcome} (h : Left os point changed table d')
    (ho : o.isRestored = false) (hcounts : unsettled changed.items = unsettled d.items
      ∧ rolledBackAmong changed.items = rolledBackAmong d.items)
    (hpoint : changed.point = d.point) : Left (o :: os) point d table d' := by
  have hcons : restoredAmong (o :: os) = restoredAmong os :=
    List.countP_cons_of_neg (by rw [ho]; decide)
  refine ⟨h.found, h.same.trans hpoint, ?_, ?_⟩
  · have := h.pending
    omega
  · have := h.rolledBack
    omega

end

/-- The loop with an item that it takes up. -/
theorem rollbackItems_cons (taskId : Text) (privilegeMode : PrivilegeMode)
    {item : OperationRestoreItem ι} (h : ¬ Settled item) (rest : List (OperationRestoreItem ι))
    (progress : RollbackProgress) :
    rollbackItems taskId privilegeMode (item :: rest) progress = (do
      if ← isCancelled then
        pure { progress with failures := progress.failures ++ ["用户已取消剩余回滚步骤".toList] }
      else do
        call (.markItemRollingBack item.id)
        match ← rollbackItem taskId item privilegeMode with
        | .ok _ => do
            call (.finishItemRollback item.id .rolledBack none)
            rollbackItems taskId privilegeMode rest
              { progress with succeeded := progress.succeeded + 1 }
        | .error e => do
            call (.finishItemRollback item.id .failed (some e.message))
            let progress := { progress with
              failures := progress.failures ++ [showNat item.ordinal ++ '：' :: e.message] }
            if isConnectionUncertain e then
              pure { progress with uncertainFailure := some e.message }
            else rollbackItems taskId privilegeMode rest progress) := if_neg h

section

variable {answer : Nat → (question : RollbackQuestion ι) → RollbackAnswer question}
  {taskId : Text} {privilegeMode : PrivilegeMode} {item : OperationRestoreItem ι}
  (progress : RollbackProgress) {n : Nat} {calls : List (Call ι)}

/-- A cancelled rollback leaves the items as they are. -/
theorem runOn_cancelled (hsettled : ¬ Settled item) (hcancelled : answer n .isCancelled = true)
    (rest : List (OperationRestoreItem ι)) :
    runOn answer n (rollbackItems taskId privilegeMode (item :: rest) progress).run calls
      = (n + 1, .ok { progress with
          failures := progress.failures ++ ["用户已取消剩余回滚步骤".toList] }, calls) := by
  rw [rollbackItems_cons taskId privilegeMode hsettled]
  have hasked : runOn answer n (isCancelled : RestoreProcess ι Bool).run calls
      = (n + 1, .ok true, calls) := by
    rw [← hcancelled]
    rfl
  rw [runOn_then hasked]
  rfl

omit [DecidableEq ι] in
/-- The loop goes on to the item. -/
theorem runOn_asked (hcancelled : answer n .isCancelled = false) :
    runOn answer n (isCancelled : RestoreProcess ι Bool).run calls = (n + 1, .ok false, calls) := by
  rw [← hcancelled]
  rfl

theorem runOn_refused (hsettled : ¬ Settled item) (hcancelled : answer n .isCancelled = false)
    {e : AppError} (hrefused : (Call.markItemRollingBack item.id).apply (tableAfter calls) = .error e)
    (rest : List (OperationRestoreItem ι)) :
    runOn answer n (rollbackItems taskId privilegeMode (item :: rest) progress).run calls
      = (n + 1, .error e, calls ++ [.markItemRollingBack item.id]) := by
  rw [rollbackItems_cons taskId privilegeMode hsettled, runOn_then (runOn_asked hcancelled)]
  have hmark : runOn answer (n + 1) (call (.markItemRollingBack item.id)).run calls
      = (n + 1, .error e, calls ++ [.markItemRollingBack item.id]) := by
    rw [runOn_call, hrefused]
    rfl
  exact runOn_error hmark

variable {point : ι} {d : OperationRestoreDetails ι}

/-- An item is restored. -/
theorem runOn_restored (hget : get point (tableAfter calls) = some d) (hitem : item ∈ d.items)
    (hsettled : ¬ Settled item) (hcancelled : answer n .isCancelled = false)
    (hmarkable : item.status ∈ [OperationRestoreItemStatus.available, .failed])
    (hrestored : answer (n + 1) (.rollbackItem taskId item privilegeMode) = .ok ()) :
    ∃ calls', get point (tableAfter calls') = some (changeItem item.id (recorded .rolledBack none) d)
      ∧ ∀ rest, runOn answer n (rollbackItems taskId privilegeMode (item :: rest) progress).run calls
        = runOn answer (n + 2) (rollbackItems taskId privilegeMode rest
            { progress with succeeded := progress.succeeded + 1 }).run calls' := by
  obtain ⟨hmark, hfinish, hget'⟩ := takenUp answer hget hitem hmarkable .rolledBack (by decide) none
  refine ⟨_, hget', fun rest => ?_⟩
  have hasked : runOn answer (n + 1) (rollbackItem taskId item privilegeMode).run
      (calls ++ [.markItemRollingBack item.id])
      = (n + 2, .ok (.ok ()), calls ++ [.markItemRollingBack item.id]) := by
    rw [← hrestored]
    rfl
  rw [rollbackItems_cons taskId privilegeMode hsettled, runOn_then (runOn_asked hcancelled)]
  refine (runOn_then (hmark (n + 1))).trans ?_
  refine (runOn_then hasked).trans ?_
  exact runOn_then (hfinish (n + 2))

/-- The restoring of an item fails. -/
theorem runOn_failed (hget : get point (tableAfter calls) = some d) (hitem : item ∈ d.items)
    (hsettled : ¬ Settled item) (hcancelled : answer n .isCancelled = false)
    (hmarkable : item.status ∈ [OperationRestoreItemStatus.available, .failed]) {e : AppError}
    (hfailed : answer (n + 1) (.rollbackItem taskId item privilegeMode) = .error e) :
    ∃ calls', get point (tableAfter calls')
        = some (changeItem item.id (recorded .failed (some e.message)) d)
      ∧ ∀ rest, runOn answer n (rollbackItems taskId privilegeMode (item :: rest) progress).run calls
        = runOn answer (n + 2) (
            let progress := { progress with
              failures := progress.failures ++ [showNat item.ordinal ++ '：' :: e.message] }
            if isConnectionUncertain e then
              pure { progress with uncertainFailure := some e.message }
            else rollbackItems taskId privilegeMode rest progress :
              RestoreProcess ι RollbackProgress).run calls' := by
  obtain ⟨hmark, hfinish, hget'⟩ := takenUp answer hget hitem hmarkable .failed (by decide)
    (some e.message)
  refine ⟨_, hget', fun rest => ?_⟩
  have hasked : runOn answer (n + 1) (rollbackItem taskId item privilegeMode).run
      (calls ++ [.markItemRollingBack item.id])
      = (n + 2, .ok (.error e), calls ++ [.markItemRollingBack item.id]) := by
    rw [← hfailed]
    rfl
  rw [rollbackItems_cons taskId privilegeMode hsettled, runOn_then (runOn_asked hcancelled)]
  refine (runOn_then (hmark (n + 1))).trans ?_
  refine (runOn_then hasked).trans ?_
  exact runOn_then (hfinish (n + 2))

end

/-- **What the loop leaves and returns.** -/
theorem rollbackItems_spec {answer : Nat → (question : RollbackQuestion ι) → RollbackAnswer question}
    {taskId : Text} {privilegeMode : PrivilegeMode} {point : ι}
    (items : List (OperationRestoreItem ι)) (n : Nat) (progress : RollbackProgress)
    {calls : List (Call ι)} {d : OperationRestoreDetails ι}
    (hget : get point (tableAfter calls) = some d)
    (hapart : (items.map fun item => item.id).Nodup) (hitems : ∀ item ∈ items, item ∈ d.items) :
    ∃ n' result calls' d',
      runOn answer n (rollbackItems taskId privilegeMode items progress).run calls
        = (n', result, calls')
      ∧ Left (outcomes answer taskId privilegeMode n items) point d (tableAfter calls') d'
      ∧ (.refused ∈ outcomes answer taskId privilegeMode n items → ∃ e, result = .error e)
      ∧ (.refused ∉ outcomes answer taskId privilegeMode n items → ∃ progress', result = .ok progress'
        ∧ Progressed (outcomes answer taskId privilegeMode n items) progress progress') := by
  induction items generalizing n progress calls d with
  | nil =>
      refine ⟨n, .ok progress, calls, d, rfl, ⟨hget, rfl, rfl, rfl⟩, ?_, fun _ =>
        ⟨progress, rfl, .nothing progress⟩⟩
      intro h
      cases h
  | cons item rest ih =>
      rw [List.map_cons, List.nodup_cons] at hapart
      have hitem : item ∈ d.items := hitems item List.mem_cons_self
      have hrest : ∀ other ∈ rest, other ∈ d.items := fun other hother =>
        hitems other (List.mem_cons_of_mem _ hother)
      by_cases hsettled : Settled item
      · -- a settled item is passed over
        have hskip : rollbackItems taskId privilegeMode (item :: rest) progress
            = rollbackItems taskId privilegeMode rest progress := if_pos hsettled
        rw [hskip, outcomes_settled hsettled]
        exact ih n progress hget hapart.2 hrest
      -- with the item recorded, the items that follow are as they were
      have hothers : ∀ (status : OperationRestoreItemStatus) (summary : Option Text),
          ∀ other ∈ rest, other ∈ (changeItem item.id (recorded status summary) d).items := by
        intro status summary other hother
        refine List.mem_map.mpr ⟨other, hrest other hother, if_neg fun hid => hapart.1 ?_⟩
        rw [← hid]
        exact List.mem_map_of_mem hother
      have hcounts := changeItem_counts (items_apart hget) hitem hsettled
      cases hcancelled : (answer n .isCancelled : Bool) with
      | true =>
          have ho : outcomeAt answer taskId privilegeMode n item = .cancelled := if_pos hcancelled
          rw [outcomes_stops hsettled ho rfl, runOn_cancelled progress hsettled hcancelled]
          refine ⟨_, _, _, d, rfl, ⟨hget, rfl, rfl, rfl⟩, fun h => ?_, fun _ => ⟨_, rfl, ?_⟩⟩
          · rw [List.mem_singleton] at h
            cases h
          · exact { succeeded := rfl, failures := by simp
                    uncertain := by simp [ItemOutcome.isLost] }
      | false =>
          by_cases hmarkable : item.status ∈ [OperationRestoreItemStatus.available, .failed]
          · cases hresult : (answer (n + 1) (.rollbackItem taskId item privilegeMode) : AppResult Unit) with
            | ok _ =>
                have ho : outcomeAt answer taskId privilegeMode n item = .restored := by
                  unfold outcomeAt
                  rw [hcancelled, hresult]
                  exact (if_neg (by decide)).trans (if_neg (not_not.mpr hmarkable))
                obtain ⟨calls', hget', hrun⟩ := runOn_restored progress hget hitem
                  hsettled hcancelled hmarkable hresult
                rw [hrun rest, outcomes_goes_on hsettled ho rfl]
                obtain ⟨n', result, calls'', d', hend, hleft, hrefused, hreturns⟩ :=
                  ih (n + 2) { progress with succeeded := progress.succeeded + 1 } hget' hapart.2
                    (hothers _ _)
                refine ⟨n', result, calls'', d', hend, ?_, ?_, ?_⟩
                · exact hleft.cons_restored (hcounts none).1 rfl
                · exact fun h => hrefused (by simpa using h)
                · intro h
                  obtain ⟨progress', hok, hprogress⟩ := hreturns (by simpa using h)
                  exact ⟨progress', hok, hprogress.cons_restored⟩
            | error e =>
                have ho : outcomeAt answer taskId privilegeMode n item = .failed e := by
                  unfold outcomeAt
                  rw [hcancelled, hresult]
                  exact (if_neg (by decide)).trans (if_neg (not_not.mpr hmarkable))
                obtain ⟨calls', hget', hrun⟩ := runOn_failed progress hget hitem
                  hsettled hcancelled hmarkable hresult
                rw [hrun rest]
                cases hstops : isConnectionUncertain e with
                | true =>
                    rw [outcomes_stops hsettled ho hstops]
                    refine ⟨_, _, calls', changeItem item.id (recorded .failed (some e.message)) d, rfl,
                      ?_, fun h => ?_, fun _ => ⟨_, rfl, ?_⟩⟩
                    · exact Left.cons_other ⟨hget', rfl, rfl, rfl⟩ rfl (hcounts _).2 rfl
                    · rw [List.mem_singleton] at h
                      cases h
                    · exact { succeeded := rfl, failures := by simp
                              uncertain := by simp [ItemOutcome.isLost, hstops] }
                | false =>
                    rw [outcomes_goes_on hsettled ho hstops]
                    obtain ⟨n', result, calls'', d', hend, hleft, hrefused, hreturns⟩ :=
                      ih (n + 2) { progress with
                        failures := progress.failures ++ [showNat item.ordinal ++ '：' :: e.message] }
                        hget' hapart.2 (hothers _ _)
                    refine ⟨n', result, calls'', d', hend, ?_, ?_, ?_⟩
                    · exact hleft.cons_other rfl (hcounts _).2 rfl
                    · exact fun h => hrefused (by simpa using h)
                    · intro h
                      obtain ⟨progress', hok, hprogress⟩ := hreturns (by simpa using h)
                      exact ⟨progress', hok, hprogress.cons_failed hstops⟩
          · have ho : outcomeAt answer taskId privilegeMode n item = .refused := by
              unfold outcomeAt
              rw [hcancelled]
              exact (if_neg (by decide)).trans (if_pos hmarkable)
            have hrefused : (Call.markItemRollingBack item.id).apply (tableAfter calls)
                = .error (.validation "恢复项当前状态不允许回滚".toList) :=
              updateItem_refused (apart_after calls) hget hitem hmarkable
            have hsame : tableAfter (calls ++ [.markItemRollingBack item.id]) = tableAfter calls := by
              rw [tableAfter_snoc]
              unfold Call.rows
              rw [hrefused]
            rw [outcomes_stops hsettled ho rfl, runOn_refused progress hsettled hcancelled hrefused]
            refine ⟨_, _, _, d, rfl, ?_, fun _ => ⟨_, rfl⟩, fun h => absurd List.mem_cons_self h⟩
            rw [hsame]
            exact ⟨hget, rfl, rfl, rfl⟩

/-! ## §3. A whole rollback. -/

/-- The status that outcomes call for. -/
def endStatus (os : List ItemOutcome) : OperationRestorePointStatus :=
  if os.all fun o => o.isRestored then .rolledBack
  else if restoredAmong os = 0 then .failed
  else .partially

/-- What a rollback that takes up items leaves and returns, from the outcomes. -/
structure Ends (os : List ItemOutcome) (d : OperationRestoreDetails ι)
    (result : AppResult (OperationRestoreDetails ι)) (d' : OperationRestoreDetails ι) : Prop where
  pending : unsettled d'.items + restoredAmong os = unsettled d.items
  rolledBack : rolledBackAmong d'.items = rolledBackAmong d.items + restoredAmong os
  stuck : .refused ∈ os → d'.point.status = .rollingBack ∧ ∃ e, result = .error e
  ended : .refused ∉ os → d'.point.status = endStatus os
  returns : .refused ∉ os → (os.any fun o => o.isLost) = false → result = .ok d'
  fails : .refused ∉ os → (os.any fun o => o.isLost) = true →
    ∃ message, result = .error (.remoteStateUncertain message)

theorem Progressed.endStatus {os : List ItemOutcome} {progress : RollbackProgress}
    (h : Progressed os { succeeded := 0, failures := [], uncertainFailure := none } progress) :
    rollbackStatus progress = OperationRestoreService.endStatus os := by
  unfold rollbackStatus OperationRestoreService.endStatus
  have hsucceeded : progress.succeeded = restoredAmong os := by
    rw [h.succeeded]
    exact Nat.zero_add _
  have hall : progress.failures.isEmpty = os.all fun o => o.isRestored := by
    rw [Bool.eq_iff_iff, List.isEmpty_iff, List.all_eq_true, h.failures]
    simp only [true_and, isRestored_iff]
  rw [hall, hsucceeded]

theorem updatePoint_one {id : ι} {allowed : OperationRestoreDetails ι → Bool}
    {change : OperationRestoreDetails ι → OperationRestoreDetails ι} {refusal : AppError}
    {table : Table ι} {d : OperationRestoreDetails ι} (hget : get id table = some d)
    (hallowed : allowed d = true) (hid : ∀ d, (change d).point.id = d.point.id) :
    ∃ table', updatePoint id allowed change refusal table = .ok table'
      ∧ get id table' = some (change d) := by
  unfold updatePoint
  rw [hget]
  refine ⟨_, if_pos hallowed, ?_⟩
  rw [get_map, hget, Option.map_some, if_pos (get_id hget)]
  intro d
  split
  · exact hid d
  · rfl

/-- A rollback after its items: what is recorded, and what it returns. -/
def conclude (id : ι) (progress : RollbackProgress) : RestoreProcess ι (OperationRestoreDetails ι) := do
  call (.finishRollback id (rollbackStatus progress))
  match progress.uncertainFailure with
  | some message => throw (.remoteStateUncertain ("自动回滚期间连接中断：".toList ++ message))
  | none => do
      match ← details id with
      | none => throw (.database "RowNotFound".toList)
      | some restored => pure restored

section

variable {answer : Nat → (question : RollbackQuestion ι) → RollbackAnswer question}
  {n : Nat} {id : ι} {calls : List (Call ι)} {d : OperationRestoreDetails ι}
  {privilegeMode : PrivilegeMode}

theorem runOn_details (hget : get id (tableAfter calls) = some d) :
    runOn answer n (details id).run calls = (n, .ok (some d), calls) := by
  rw [← hget]
  rfl

/-- With the point claimed and the connection there, the items are taken up. -/
theorem runOn_rollback (hget : get id (tableAfter calls) = some d)
    (hbegins : d.point.status ∈ [OperationRestorePointStatus.available, .partially, .failed])
    (hconnect : answer n (.connect d.point.serverId) = .ok ())
    (hprobe : answer (n + 1) .probePrivilege = .ok privilegeMode) :
    get id (tableAfter (calls ++ [.beginRollback id])) = some (setStatus .rollingBack d)
      ∧ runOn answer n (rollback id).run calls
        = runOn answer (n + 2)
            (rollbackItems d.point.taskId privilegeMode d.items.reverse
              { succeeded := 0, failures := [], uncertainFailure := none } >>= conclude id).run
            (calls ++ [.beginRollback id]) := by
  obtain ⟨begun, hbegin, hgetBegun⟩ : ∃ begun,
      (Call.beginRollback id).apply (tableAfter calls) = .ok begun
        ∧ get id begun = some (setStatus .rollingBack d) :=
    updatePoint_one hget (List.contains_iff_mem.mpr hbegins) (fun _ => rfl)
  obtain ⟨hrunBegin, htable⟩ := runOn_call_ok answer n hbegin
  rw [← htable] at hgetBegun
  refine ⟨hgetBegun, ?_⟩
  have hconnected : runOn answer n (connect d.point.serverId).run (calls ++ [.beginRollback id])
      = (n + 1, .ok (.ok ()), calls ++ [.beginRollback id]) := by
    rw [← hconnect]
    rfl
  have hprobed : runOn answer (n + 1) probePrivilege.run (calls ++ [.beginRollback id])
      = (n + 2, .ok (.ok privilegeMode), calls ++ [.beginRollback id]) := by
    rw [← hprobe]
    rfl
  refine (runOn_then (runOn_details hget)).trans ?_
  refine (runOn_then hrunBegin).trans ?_
  refine (runOn_then hconnected).trans ?_
  exact runOn_then hprobed

omit [DecidableEq ι] in
/-- What goes on to an error ends with one. -/
theorem runOn_throw {α β : Type} (e : AppError) (p : RestoreProcess ι α) :
    ∃ e', (runOn answer n (p >>= fun _ => (throw e : RestoreProcess ι β)).run calls).2.1 = .error e' := by
  cases hp : runOn answer n p.run calls with
  | mk n' ended =>
      obtain ⟨result, calls'⟩ := ended
      cases result with
      | ok a => exact ⟨e, by rw [runOn_then hp]; rfl⟩
      | error e' => exact ⟨e', by rw [runOn_error hp]⟩

/-- Without a connection, or without privileges, a rollback fails. -/
theorem runOn_unconnected (hget : get id (tableAfter calls) = some d)
    (hbegins : d.point.status ∈ [OperationRestorePointStatus.available, .partially, .failed])
    (hconnect : answer n (.connect d.point.serverId) = .ok () →
      ∀ privilegeMode, answer (n + 1) .probePrivilege ≠ .ok privilegeMode) :
    ∃ e, (runOn answer n (rollback id).run calls).2.1 = .error e := by
  obtain ⟨begun, hbegin, _⟩ : ∃ begun,
      (Call.beginRollback id).apply (tableAfter calls) = .ok begun
        ∧ get id begun = some (setStatus .rollingBack d) :=
    updatePoint_one hget (List.contains_iff_mem.mpr hbegins) (fun _ => rfl)
  obtain ⟨hrunBegin, _⟩ := runOn_call_ok answer n hbegin
  unfold rollback
  rw [runOn_then (runOn_details hget)]
  dsimp only
  rw [runOn_then hrunBegin]
  cases hconnected : (answer n (.connect d.point.serverId) : AppResult Unit) with
  | error e =>
      have hasked : runOn answer n (connect d.point.serverId).run (calls ++ [.beginRollback id])
          = (n + 1, .ok (.error e), calls ++ [.beginRollback id]) := by
        rw [← hconnected]
        rfl
      rw [runOn_then hasked]
      exact runOn_throw e _
  | ok _ =>
      have hasked : runOn answer n (connect d.point.serverId).run (calls ++ [.beginRollback id])
          = (n + 1, .ok (.ok ()), calls ++ [.beginRollback id]) := by
        rw [← hconnected]
        rfl
      cases hprobed : (answer (n + 1) .probePrivilege : AppResult PrivilegeMode) with
      | ok privilegeMode => exact absurd hprobed (hconnect hconnected privilegeMode)
      | error e =>
          have hasked' : runOn answer (n + 1) probePrivilege.run (calls ++ [.beginRollback id])
              = (n + 2, .ok (.error e), calls ++ [.beginRollback id]) := by
            rw [← hprobed]
            rfl
          rw [runOn_then hasked]
          dsimp only
          rw [runOn_then hasked']
          exact runOn_throw e _

/-- Recording the status of a point that is being rolled back. -/
theorem runOn_conclude (hget : get id (tableAfter calls) = some d)
    (hrolling : d.point.status = .rollingBack) (progress : RollbackProgress) :
    ∃ calls', get id (tableAfter calls') = some (setStatus (rollbackStatus progress) d)
      ∧ runOn answer n (conclude id progress).run calls = (n, match progress.uncertainFailure with
          | some message => .error (.remoteStateUncertain ("自动回滚期间连接中断：".toList ++ message))
          | none => .ok (setStatus (rollbackStatus progress) d), calls') := by
  have hstatus : [OperationRestorePointStatus.rolledBack, .partially, .failed].contains
      (rollbackStatus progress) = true := by
    unfold rollbackStatus
    split
    · rfl
    · split <;> rfl
  obtain ⟨finished, hfinish, hgetFinished⟩ : ∃ finished,
      updatePoint id (hasStatus [.rollingBack]) (setStatus (rollbackStatus progress))
          (.validation "恢复点不处于回滚执行状态".toList) (tableAfter calls) = .ok finished
        ∧ get id finished = some (setStatus (rollbackStatus progress) d) :=
    updatePoint_one hget (List.contains_iff_mem.mpr (by rw [hrolling]; exact List.mem_cons_self))
      (fun _ => rfl)
  have hfinish : (Call.finishRollback id (rollbackStatus progress)).apply (tableAfter calls)
      = .ok finished := (if_pos hstatus).trans hfinish
  obtain ⟨hrunFinish, htable⟩ := runOn_call_ok answer n hfinish
  rw [← htable] at hgetFinished
  refine ⟨_, hgetFinished, (runOn_then hrunFinish).trans ?_⟩
  cases progress.uncertainFailure with
  | some message => rfl
  | none => exact runOn_then (runOn_details hgetFinished)

/-- **What a rollback that takes up items leaves and returns.** -/
theorem rollback_spec (hget : get id (tableAfter calls) = some d)
    (hbegins : d.point.status ∈ [OperationRestorePointStatus.available, .partially, .failed])
    (hconnect : answer n (.connect d.point.serverId) = .ok ())
    (hprobe : answer (n + 1) .probePrivilege = .ok privilegeMode) :
    ∃ n' result calls' d', runOn answer n (rollback id).run calls = (n', result, calls')
      ∧ get id (tableAfter calls') = some d'
      ∧ Ends (outcomes answer d.point.taskId privilegeMode (n + 2) d.items.reverse) d result d' := by
  obtain ⟨hgetBegun, hrollback⟩ := runOn_rollback hget hbegins hconnect hprobe
  have hapart : (d.items.reverse.map fun item => item.id).Nodup := by
    rw [List.map_reverse, List.nodup_reverse]
    exact items_apart hget
  obtain ⟨n', result, calls', d', hitems, hleft, hrefused, hreturns⟩ :=
    rollbackItems_spec d.items.reverse (n + 2) { succeeded := 0, failures := [], uncertainFailure := none }
      hgetBegun hapart fun item hitem => List.mem_reverse.mp hitem
  have hrolling : d'.point.status = .rollingBack := by
    rw [hleft.same]
    rfl
  rw [hrollback]
  generalize hos : outcomes answer d.point.taskId privilegeMode (n + 2) d.items.reverse = os at *
  by_cases hstuck : ItemOutcome.refused ∈ os
  · obtain ⟨e, rfl⟩ := hrefused hstuck
    refine ⟨n', .error e, calls', d', runOn_error hitems, hleft.found, ?_⟩
    exact { pending := hleft.pending, rolledBack := hleft.rolledBack
            stuck := fun _ => ⟨hrolling, e, rfl⟩, ended := fun h => absurd hstuck h
            returns := fun h => absurd hstuck h, fails := fun h => absurd hstuck h }
  · obtain ⟨progress, rfl, hprogress⟩ := hreturns hstuck
    obtain ⟨calls'', hget'', hend⟩ := runOn_conclude hleft.found hrolling progress
    refine ⟨n', _, calls'', _, (runOn_then hitems).trans hend, hget'', ?_⟩
    have hlost := hprogress.uncertain
    refine { pending := hleft.pending, rolledBack := hleft.rolledBack
             stuck := fun h => absurd h hstuck, ended := fun _ => hprogress.endStatus
             returns := fun _ hnot => ?_, fails := fun _ hsome => ?_ }
    · have hlost : progress.uncertainFailure.isSome = false := hlost.trans hnot
      rw [Option.isSome_eq_false_iff, Option.isNone_iff_eq_none] at hlost
      rw [hlost]
    · obtain ⟨message, hmessage⟩ := Option.isSome_iff_exists.mp (hlost.trans hsome)
      rw [hmessage]
      exact ⟨_, rfl⟩

end

/-! ## §4. What the status says. -/

/-- The status of the point is the one that all its items, and all that happened to
them, call for. -/
def Classified (id : ι) (calls : List (Call ι)) : Prop :=
  ∃ d, get id (tableAfter calls) = some d
    ∧ (d.point.status = .rolledBack ↔ ∀ item ∈ d.items, Settled item)
    ∧ (d.point.status = .failed ↔ ¬ EverRolledBack id calls)
    ∧ (d.point.status = .partially ↔ ¬ (∀ item ∈ d.items, Settled item) ∧ EverRolledBack id calls)

omit [DecidableEq ι] in
theorem unsettled_eq_zero {items : List (OperationRestoreItem ι)} :
    unsettled items = 0 ↔ ∀ item ∈ items, Settled item := by
  unfold unsettled
  rw [List.countP_eq_zero]
  simp only [decide_eq_true_eq, not_not]

omit [DecidableEq ι] in
theorem restoredAmong_pos {os : List ItemOutcome} : 0 < restoredAmong os ↔ .restored ∈ os := by
  unfold restoredAmong
  rw [List.countP_pos_iff]
  simp only [isRestored_iff, exists_eq_right]

theorem everRolledBack_count {id : ι} {calls : List (Call ι)} {d : OperationRestoreDetails ι}
    (hget : get id (tableAfter calls) = some d) :
    EverRolledBack id calls ↔ 0 < rolledBackAmong d.items := by
  rw [everRolledBack_iff]
  unfold SomeRolledBack rolledBackAmong
  rw [hget, List.countP_pos_iff]
  simp only [Option.some.injEq, exists_eq_left', decide_eq_true_eq]

/-- **The status of a point after a rollback took up its items is the one they call for,
exactly when every item it took up could be marked, it restored an item itself where an
earlier one was rolled back, and there was something to restore.** -/
theorem rollback_classified {answer : Nat → (question : RollbackQuestion ι) → RollbackAnswer question}
    {id : ι} {calls : List (Call ι)} {d : OperationRestoreDetails ι} {privilegeMode : PrivilegeMode}
    (hget : get id (tableAfter calls) = some d)
    (hbegins : d.point.status ∈ [OperationRestorePointStatus.available, .partially, .failed])
    (hconnect : answer 0 (.connect d.point.serverId) = .ok ())
    (hprobe : answer 1 .probePrivilege = .ok privilegeMode) :
    Classified id (Process.run answer 0 (rollback id).run calls).2
      ↔ .refused ∉ outcomes answer d.point.taskId privilegeMode 2 d.items.reverse
        ∧ (EverRolledBack id calls → (∀ item ∈ d.items, Settled item)
          ∨ .restored ∈ outcomes answer d.point.taskId privilegeMode 2 d.items.reverse)
        ∧ (¬ EverRolledBack id calls → ∃ item ∈ d.items, ¬ Settled item) := by
  obtain ⟨n', result, calls', d', hrun, hget', hends⟩ := rollback_spec hget hbegins hconnect hprobe
  have hamong : restoredAmong (outcomes answer d.point.taskId privilegeMode 2 d.items.reverse)
        ≤ unsettled d.items.reverse
      ∧ (restoredAmong (outcomes answer d.point.taskId privilegeMode 2 d.items.reverse)
          = unsettled d.items.reverse
        ↔ ∀ o ∈ outcomes answer d.point.taskId privilegeMode 2 d.items.reverse, o = .restored) :=
    restoredAmong_outcomes d.items.reverse 2
  obtain ⟨hle, hall⟩ := hamong
  have hreverse : unsettled d.items.reverse = unsettled d.items :=
    (List.reverse_perm d.items).countP_eq _
  rw [Process.run_eq_runOn, hrun]
  simp only [Nat.zero_add] at hends
  generalize outcomes answer d.point.taskId privilegeMode 2 d.items.reverse = os at *
  have hclassified : Classified id calls' ↔ (d'.point.status = .rolledBack ↔ unsettled d'.items = 0)
      ∧ (d'.point.status = .failed ↔ rolledBackAmong d'.items = 0)
      ∧ (d'.point.status = .partially ↔ unsettled d'.items ≠ 0 ∧ rolledBackAmong d'.items ≠ 0) := by
    unfold Classified
    rw [hget', everRolledBack_count hget']
    simp only [Option.some.injEq, exists_eq_left', unsettled_eq_zero, Nat.pos_iff_ne_zero, ne_eq,
      not_not]
  have hpending := hends.pending
  have hrolledBack := hends.rolledBack
  have hsome : (∃ item ∈ d.items, ¬ Settled item) ↔ unsettled d.items ≠ 0 := by
    rw [ne_eq, unsettled_eq_zero]
    simp
  rw [hclassified, everRolledBack_count hget, ← unsettled_eq_zero, ← restoredAmong_pos, hsome]
  by_cases hstuck : ItemOutcome.refused ∈ os
  · -- the point stays in a status that no items call for
    rw [(hends.stuck hstuck).1]
    simp only [reduceCtorEq, false_iff]
    constructor
    · intro h
      exact absurd ⟨h.1, h.2.1⟩ h.2.2
    · intro h
      exact absurd hstuck h.1
  rw [hends.ended hstuck]
  unfold endStatus
  by_cases hrestored : (os.all fun o => o.isRestored) = true
  · -- everything that was to be restored is
    have hsame : restoredAmong os = unsettled d.items.reverse := hall.mpr fun o ho =>
      isRestored_iff.mp (List.all_eq_true.mp hrestored o ho)
    rw [if_pos hrestored]
    simp only [reduceCtorEq, false_iff, true_iff]
    constructor
    · intro h
      exact ⟨hstuck, by omega, by omega⟩
    · intro h
      omega
  · have hless : restoredAmong os ≠ unsettled d.items.reverse := fun hsame =>
      hrestored (List.all_eq_true.mpr fun o ho => isRestored_iff.mpr (hall.mp hsame o ho))
    rw [if_neg hrestored]
    by_cases hnone : restoredAmong os = 0
    · rw [if_pos hnone]
      simp only [reduceCtorEq, false_iff, true_iff]
      constructor
      · intro h
        exact ⟨hstuck, by omega, by omega⟩
      · intro h
        omega
    · rw [if_neg hnone]
      simp only [reduceCtorEq, false_iff, true_iff]
      constructor
      · intro h
        exact ⟨hstuck, by omega, by omega⟩
      · intro h
        omega

/-- A file that the host had before the operation. -/
def fileItem (id ordinal : Nat) (target : Text) : Call Nat :=
  .addItem id
    { restorePointId := 2, ordinal := ordinal, itemKind := .remoteFile, remoteTarget := target,
      localRelativePath := none, sha256 := none, originalMetadata := .null, status := .available,
      errorSummary := none }

/-- A point with two files. -/
def twoFiles : List (Call Nat) :=
  [createHostnamePoint, fileItem 3 0 "/etc/hostname".toList, fileItem 4 1 "/etc/hosts".toList,
    .markAvailable 2]

/-- Everything succeeds except what the second file needs. -/
def withoutSecondFile : Nat → (q : RollbackQuestion Nat) → RollbackAnswer q
  | _, .connect _ => .ok ()
  | _, .probePrivilege => .ok .root
  | _, .isCancelled => false
  | _, .rollbackItem _ item _ =>
      if item.id = 4 then .error (.integrity "恢复项缺少 SHA-256".toList) else .ok ()

/-- The calls after a rollback of the point. -/
def attempt (answer : Nat → (q : RollbackQuestion Nat) → RollbackAnswer q) (calls : List (Call Nat)) :
    List (Call Nat) := (Process.run answer 0 (rollback 2).run calls).2

def foundIn (calls : List (Call Nat)) : Option (OperationRestorePointStatus × Nat × Nat) :=
  (get 2 (tableAfter calls)).map fun d =>
    (d.point.status, unsettled d.items, rolledBackAmong d.items)

theorem twoFiles_found : (get 2 (tableAfter twoFiles)).isSome = true := by decide

def twoFilesPoint : OperationRestoreDetails Nat := (get 2 (tableAfter twoFiles)).get twoFiles_found

/-- A first rollback restores both files. -/
theorem rollback_classified_restored : Classified 2 (attempt obligingHost twoFiles) := by
  have hget : get 2 (tableAfter twoFiles) = some twoFilesPoint :=
    (Option.some_get twoFiles_found).symm
  refine (rollback_classified hget (by decide) rfl rfl).mpr ⟨?_, fun _ => .inr ?_, fun _ => ?_⟩
  · intro hstuck
    have hall : ((outcomes obligingHost twoFilesPoint.point.taskId .root 2
        twoFilesPoint.items.reverse).all fun o => o.isRestored) = true := by decide
    exact absurd (List.all_eq_true.mp hall _ hstuck) (by decide)
  · rw [← restoredAmong_pos]
    decide
  · decide

/-- One file is restored by a first rollback, and none by a second: the point is then
reported as failed. -/
theorem retry_reported_failed :
    foundIn (attempt withoutSecondFile twoFiles) = some (.partially, 1, 1)
      ∧ ¬ Classified 2 (attempt withoutSecondFile (attempt withoutSecondFile twoFiles)) := by
  refine ⟨by decide, ?_⟩
  rintro ⟨d, hget, _, hfailed, _⟩
  have hfound : foundIn (attempt withoutSecondFile (attempt withoutSecondFile twoFiles))
      = some (.failed, 1, 1) := by decide
  unfold foundIn at hfound
  rw [hget, Option.map_some, Option.some_inj, Prod.mk.injEq, Prod.mk.injEq] at hfound
  obtain ⟨hstatus, _, hrolledBack⟩ := hfound
  have hever : EverRolledBack 2 (attempt withoutSecondFile (attempt withoutSecondFile twoFiles)) :=
    (everRolledBack_count hget).mpr (by omega)
  exact hfailed.mp hstatus hever

end QingzhouSSH.Services.OperationRestoreService
