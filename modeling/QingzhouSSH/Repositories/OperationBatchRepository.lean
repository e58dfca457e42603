/-
  QingzhouSSH.Repositories.OperationBatchRepository — the rows of one batch.

  Every function is one statement: it returns the new rows, or an error and nothing has
  changed.

  Main results:
    * `completionStatus_settled` — the status that a settled batch is given.
-/
import QingzhouSSH.Domain.OperationBatch
import QingzhouSSH.Lib.Table

namespace QingzhouSSH.Repositories.OperationBatchRepository

open QingzhouSSH.Domain
open QingzhouSSH.Lib

abbrev Items := List OperationBatchItem

/-! ## §1. Statements. -/

/-- The items of `create`. -/
def create (serverIds : List Text) : OperationBatchDetails where
  status := .queued
  items := serverIds.map fun serverId =>
    { serverId := serverId, operationRunId := none, status := .queued, errorMessage := none }

/-- The item of a server, where it has this status. -/
def isItem (serverId : Text) (status : OperationBatchItemStatus) (item : OperationBatchItem) :
    Bool :=
  item.serverId == serverId && item.status == status

theorem isItem_iff {serverId : Text} {status : OperationBatchItemStatus}
    {item : OperationBatchItem} :
    isItem serverId status item = true ↔ item.serverId = serverId ∧ item.status = status := by
  unfold isItem
  rw [Bool.and_eq_true, beq_iff_eq, beq_iff_eq]

def markItemRunning (serverId : Text) : Items → AppResult Items :=
  updateOne (isItem serverId .queued) (fun item => { item with status := .running })
    (.validation "批量子任务已被取消或启动".toList)

/-- The row that `finish_item` leaves. -/
def finishedItem (outcome : BatchItemOutcome) (item : OperationBatchItem) : OperationBatchItem :=
  { item with status := outcome.status
              operationRunId := outcome.operationRunId.or item.operationRunId
              errorMessage := capUtf8 outcome.errorMessage (8 * 1024) }

def finishItem (serverId : Text) (outcome : BatchItemOutcome) (items : Items) : AppResult Items :=
  if !outcome.status.isTerminal then .error (.validation "批量子任务终态无效".toList)
  else
    updateOne (isItem serverId .running) (finishedItem outcome)
      (.validation "批量子任务状态已改变".toList) items

def cancelQueuedItems (items : Items) : Items :=
  items.map fun item =>
    if item.status = .queued then
      { item with status := .cancelled, errorMessage := some "用户取消，未开始执行".toList }
    else item

def failNonterminalItems (message : Text) (items : Items) : Items :=
  items.map fun item =>
    if item.status = .queued ∨ item.status = .running then
      { item with status := .failed, errorMessage := capUtf8 (some message) (8 * 1024) }
    else item

/-- The part of `complete` that reads the items. -/
def completionStatus (cancelled : Bool) (items : Items) : AppResult OperationBatchStatus :=
  let count := fun status => items.countP fun item => item.status == status
  if 0 < count .queued + count .running then .error (.validation "批量任务仍有未结束的子任务".toList)
  else if cancelled || 0 < count .cancelled then .ok .cancelled
  else if count .failed = 0 ∧ 0 < count .succeeded then .ok .succeeded
  else if count .succeeded = 0 ∧ 0 < count .failed then .ok .failed
  else .ok .partly

/-- `transition_batch`. -/
def transitionBatch (current next : OperationBatchStatus) (status : OperationBatchStatus) :
    AppResult OperationBatchStatus :=
  if status = current then .ok next else .error (.validation "批量任务状态已改变".toList)

/-! ## §2. The status of a settled batch. -/

/-- Cancelled, or what has become of the items. -/
def statusOf (cancelled : Bool) (items : Items) : OperationBatchStatus :=
  if cancelled || items.any fun item => item.status == .cancelled then .cancelled
  else if items.all fun item => item.status == .succeeded then .succeeded
  else if items.all fun item => item.status != .succeeded then .failed
  else .partly

theorem statusOf_terminal (cancelled : Bool) (items : Items) :
    (statusOf cancelled items).isTerminal = true := by
  unfold statusOf
  split
  · rfl
  split
  · rfl
  split <;> rfl

theorem statusOf_eq_cancelled {items : Items} :
    statusOf false items = .cancelled ↔ ∃ item ∈ items, item.status = .cancelled := by
  have hany : (items.any fun item => item.status == .cancelled) = true
      ↔ ∃ item ∈ items, item.status = .cancelled := by
    rw [List.any_eq_true]
    exact exists_congr fun item => and_congr_right fun _ => beq_iff_eq
  unfold statusOf
  rw [Bool.false_or, ← hany]
  split
  next hcancelled => exact iff_of_true rfl hcancelled
  next hnone =>
    refine iff_of_false ?_ hnone
    split
    · nofun
    · split <;> nofun

theorem cancelQueuedItems_eq {items : Items} (h : ∀ item ∈ items, item.status ≠ .queued) :
    cancelQueuedItems items = items := by
  refine (List.map_congr_left fun item hitem => ?_).trans (List.map_id items)
  exact if_neg (h item hitem)

/-- **A batch whose items have ended is given the status that they call for.** -/
theorem completionStatus_settled (cancelled : Bool) {items : Items} (hne : items ≠ [])
    (hsettled : ∀ item ∈ items, item.status.isTerminal = true) :
    completionStatus cancelled items = .ok (statusOf cancelled items) := by
  have hpositive : ∀ status, 0 < items.countP (fun item => item.status == status)
      ↔ ∃ item ∈ items, item.status = status := by
    intro status
    rw [List.countP_pos_iff]
    exact exists_congr fun item => and_congr_right fun _ => beq_iff_eq
  have hnone : ∀ status, status.isTerminal = false →
      items.countP (fun item => item.status == status) = 0 := by
    intro status hstatus
    by_contra hcount
    obtain ⟨item, hitem, heq⟩ := (hpositive status).mp (Nat.pos_of_ne_zero hcount)
    have hterminal := hsettled item hitem
    rw [heq, hstatus] at hterminal
    cases hterminal
  unfold completionStatus statusOf
  dsimp only
  have hqueued := hnone .queued rfl
  have hrunning := hnone .running rfl
  rw [if_neg (by omega)]
  have hany : (items.any fun item => item.status == .cancelled) = true
      ↔ 0 < items.countP fun item => item.status == .cancelled := by
    rw [hpositive, List.any_eq_true]
    exact exists_congr fun item => and_congr_right fun _ => beq_iff_eq
  by_cases hcancelled : (cancelled || items.any fun item => item.status == .cancelled) = true
  · rw [if_pos hcancelled, if_pos ?_]
    rw [Bool.or_eq_true, decide_eq_true_eq]
    rw [Bool.or_eq_true, hany] at hcancelled
    exact hcancelled
  · rw [if_neg hcancelled, if_neg ?_]
    · rw [Bool.or_eq_true, not_or, hany] at hcancelled
      -- every item has succeeded or failed
      have hended : ∀ item ∈ items, item.status = .succeeded ∨ item.status = .failed := by
        intro item hitem
        have hterminal := hsettled item hitem
        cases hstatus : item.status with
        | queued | running =>
            rw [hstatus] at hterminal
            cases hterminal
        | succeeded => exact Or.inl rfl
        | failed => exact Or.inr rfl
        | cancelled => exact absurd ((hpositive .cancelled).mpr ⟨item, hitem, hstatus⟩) hcancelled.2
      obtain ⟨first, hfirst⟩ := List.exists_mem_of_ne_nil items hne
      by_cases hfailed : ∃ item ∈ items, item.status = .failed
      · have hfailedCount := (hpositive .failed).mpr hfailed
        rw [if_neg fun h => absurd h.1 (Nat.ne_of_gt hfailedCount)]
        obtain ⟨item, hitem, hstatus⟩ := hfailed
        have hnotAll : ¬ (items.all fun item => item.status == .succeeded) = true := by
          intro hall
          have hsucceeded := eq_of_beq (List.all_eq_true.mp hall item hitem)
          rw [hstatus] at hsucceeded
          cases hsucceeded
        rw [if_neg hnotAll]
        by_cases hsucceeded : ∃ item ∈ items, item.status = .succeeded
        · have hcount := (hpositive .succeeded).mpr hsucceeded
          rw [if_neg fun h => absurd h.1 (Nat.ne_of_gt hcount)]
          obtain ⟨other, hother, hotherStatus⟩ := hsucceeded
          rw [if_neg fun hall => ?_]
          have hdifferent := List.all_eq_true.mp hall other hother
          rw [hotherStatus] at hdifferent
          cases hdifferent
        · have hcount : items.countP (fun item => item.status == .succeeded) = 0 := by
            by_contra hsome
            exact hsucceeded ((hpositive .succeeded).mp (Nat.pos_of_ne_zero hsome))
          rw [if_pos ⟨hcount, hfailedCount⟩, if_pos ?_]
          refine List.all_eq_true.mpr fun other hother => ?_
          exact bne_iff_ne.mpr fun heq => hsucceeded ⟨other, hother, heq⟩
      · have hall : ∀ item ∈ items, item.status = .succeeded := fun item hitem =>
          (hended item hitem).resolve_right fun heq => hfailed ⟨item, hitem, heq⟩
        have hcount : items.countP (fun item => item.status == .failed) = 0 := by
          by_contra hsome
          exact hfailed ((hpositive .failed).mp (Nat.pos_of_ne_zero hsome))
        rw [if_pos ⟨hcount, (hpositive .succeeded).mpr ⟨first, hfirst, hall first hfirst⟩⟩, if_pos ?_]
        exact List.all_eq_true.mpr fun item hitem => beq_iff_eq.mpr (hall item hitem)
    · rw [Bool.or_eq_true, decide_eq_true_eq, ← hany, ← Bool.or_eq_true]
      exact hcancelled

end QingzhouSSH.Repositories.OperationBatchRepository
