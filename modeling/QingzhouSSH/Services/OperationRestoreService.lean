/-
  QingzhouSSH.Services.OperationRestoreService — rolling back to a restore point.

  `rollback` is a procedure over the restore tables: what the connection, the
  privilege probe and the restoring of an item answer is not its own doing.

  Main results:
    * `restored_only_after_available` — when every restored point was available once.
-/
import QingzhouSSH.Lib.Process
import QingzhouSSH.Repositories.OperationRestoreRepository

namespace QingzhouSSH.Services.OperationRestoreService

open QingzhouSSH.Lib
open QingzhouSSH.Domain
open QingzhouSSH.Core.Tasks (PrivilegeMode)
open QingzhouSSH.Repositories.OperationRestoreRepository

variable {ι : Type}

/-! ## §1. The procedure. -/

/-- What `rollback` asks the world outside the database. -/
inductive RollbackQuestion (ι : Type) where
  | connect (serverId : Text)
  | probePrivilege
  | isCancelled
  | rollbackItem (taskId : Text) (item : OperationRestoreItem ι) (privilegeMode : PrivilegeMode)

def RollbackAnswer : RollbackQuestion ι → Type
  | .connect _ => AppResult Unit
  | .probePrivilege => AppResult PrivilegeMode
  | .isCancelled => Bool
  | .rollbackItem _ _ _ => AppResult Unit

variable (ι) in
/-- Procedures over the restore tables, given as the calls made so far. -/
abbrev RestoreProcess (α : Type) := ExceptT AppError (Process (List (Call ι)) (@RollbackAnswer ι)) α

/-- `connect`; a failure is an answer here, for `rollback` records it first. -/
def connect (serverId : Text) : RestoreProcess ι (AppResult Unit) :=
  ExceptT.lift (Process.query (RollbackQuestion.connect serverId))

/-- `probe_privilege`. -/
def probePrivilege : RestoreProcess ι (AppResult PrivilegeMode) :=
  ExceptT.lift (Process.query RollbackQuestion.probePrivilege)

/-- `is_cancelled`. -/
def isCancelled : RestoreProcess ι Bool :=
  ExceptT.lift (Process.query RollbackQuestion.isCancelled)

/-- `rollback_item`. -/
def rollbackItem (taskId : Text) (item : OperationRestoreItem ι) (privilegeMode : PrivilegeMode) :
    RestoreProcess ι (AppResult Unit) :=
  ExceptT.lift (Process.query (RollbackQuestion.rollbackItem taskId item privilegeMode))

/-- `is_connection_uncertain`. -/
def isConnectionUncertain : AppError → Bool
  | .remoteStateUncertain _ | .ssh _ | .io _ | .transfer _ => true
  | _ => false

variable [DecidableEq ι]

/-- One call of the repository. -/
def call (c : Call ι) : RestoreProcess ι Unit :=
  Process.atomic fun calls => ((c.apply (tableAfter calls)).map fun _ => (), calls ++ [c])

def details (id : ι) : RestoreProcess ι (Option (OperationRestoreDetails ι)) :=
  Process.read fun calls => .ok (get id (tableAfter calls))

/-- What the loop over the items leaves. -/
structure RollbackProgress where
  succeeded : Nat
  failures : List Text
  uncertainFailure : Option Text

/-- The loop of `rollback`, over the items in reverse order. -/
def rollbackItems (taskId : Text) (privilegeMode : PrivilegeMode) :
    List (OperationRestoreItem ι) → RollbackProgress → RestoreProcess ι RollbackProgress
  | [], progress => pure progress
  | item :: rest, progress =>
      if item.status = .rolledBack ∨ item.status = .skipped then
        rollbackItems taskId privilegeMode rest progress
      else do
        if ← isCancelled then
          pure { progress with
            failures := progress.failures ++ ["用户已取消剩余回滚步骤".toList] }
        else do
          call (.markItemRollingBack item.id)
          match ← rollbackItem taskId item privilegeMode with
          | .ok _ => do
              call (.finishItemRollback item.id .rolledBack none)
              rollbackItems taskId privilegeMode rest
                { progress with succeeded := progress.succeeded + 1 }
          | .error e => do
              call (.finishItemRollback item.id .failed (some e.message))
              let progress := { progress with
                failures := progress.failures ++ [showNat item.ordinal ++ '：' :: e.message] }
              if isConnectionUncertain e then
                pure { progress with uncertainFailure := some e.message }
              else rollbackItems taskId privilegeMode rest progress

/-- The status that `rollback` records at the end. -/
def rollbackStatus (progress : RollbackProgress) : OperationRestorePointStatus :=
  if progress.failures.isEmpty then .rolledBack
  else if progress.succeeded = 0 then .failed
  else .partially

/-- `OperationRestoreService::rollback`. -/
def rollback (restorePointId : ι) : RestoreProcess ι (OperationRestoreDetails ι) := do
  let found ← details restorePointId
  match found with
  | none => throw (.validation "运维恢复点不存在".toList)
  | some found => do
      call (.beginRollback restorePointId)
      match ← connect found.point.serverId with
      | .error e => do
          call (.finishRollback restorePointId .failed)
          throw e
      | .ok _ => do
          match ← probePrivilege with
          | .error e => do
              call (.finishRollback restorePointId .failed)
              throw e
          | .ok privilegeMode => do
              let progress ← rollbackItems found.point.taskId privilegeMode found.items.reverse
                { succeeded := 0, failures := [], uncertainFailure := none }
              call (.finishRollback restorePointId (rollbackStatus progress))
              match progress.uncertainFailure with
              | some message =>
                  throw (.remoteStateUncertain ("自动回滚期间连接中断：".toList ++ message))
              | none => do
                  match ← details restorePointId with
                  | none => throw (.database "RowNotFound".toList)
                  | some restored => pure restored

/-! ## §2. Any callers, in any order. -/

/-- One call of the repository, or one rollback. -/
inductive Client (ι : Type) where
  | call (c : Call ι)
  | rollback (restorePointId : ι)

def Client.process : Client ι → Process (List (Call ι)) (@RollbackAnswer ι) (AppResult Unit)
  | .call c => (OperationRestoreService.call c).run
  | .rollback id => (do let _ ← OperationRestoreService.rollback id : RestoreProcess ι Unit).run

/-- The clients have made these calls, in this order. -/
def Made (clients : List (Client ι)) (calls : List (Call ι)) : Prop :=
  ∃ running, Relation.ReflTransGen Process.Interleaved (clients.map Client.process, [])
    (running, calls)

/-- A point that is rolled back, or is being rolled back, was available once. -/
def RestoredWereAvailable (calls : List (Call ι)) : Prop :=
  ∀ id, statusOf id (tableAfter calls) = some .rollingBack
      ∨ statusOf id (tableAfter calls) = some .rolledBack →
    Succeeded (.markAvailable id) calls

/-- The point is `failed` because its creation failed. -/
def CreationFailed (id : ι) (calls : List (Call ι)) : Prop :=
  statusOf id (tableAfter calls) = some .failed ∧ Succeeded (.markCreationFailed id) calls

/-- No rollback is begun on a point whose creation failed. -/
def SparesFailedCreations (calls : List (Call ι)) : Prop :=
  ∀ before id, before ++ [.beginRollback id] <+: calls → ¬ CreationFailed id before

/-- The statuses that a point has only after it was available, if no rollback is begun
on a failed creation. -/
theorem available_of_spared {calls : List (Call ι)} (h : SparesFailedCreations calls) (id : ι)
    {status : OperationRestorePointStatus}
    (hstatus : statusOf id (tableAfter calls) = some status) :
    (status ∈ [.available, .rollingBack, .rolledBack, .partially] →
        Succeeded (.markAvailable id) calls)
      ∧ (status = .failed →
        Succeeded (.markAvailable id) calls ∨ Succeeded (.markCreationFailed id) calls) := by
  induction calls using List.reverseRecOn generalizing status with
  | nil => cases hstatus
  | append_singleton calls call ih =>
      have hspared : SparesFailedCreations calls := fun before id hbefore =>
        h before id (hbefore.trans (List.prefix_append _ _))
      have hkept : ∀ c, Succeeded c calls → Succeeded c (calls ++ [call]) := fun c hc =>
        succeeded_snoc.mpr (Or.inl hc)
      rcases statusStep_snoc calls call id with ⟨_, hsame⟩ | ⟨⟨table, hok⟩, hstep⟩
      · rw [hsame] at hstatus
        obtain ⟨hwas, hfailed⟩ := ih hspared hstatus
        exact ⟨fun hmem => hkept _ (hwas hmem), fun heq =>
          (hfailed heq).imp (hkept _) (hkept _)⟩
      · have hnow : ∀ c, c = call → Succeeded c (calls ++ [call]) := by
          rintro c rfl
          exact succeeded_snoc.mpr (Or.inr ⟨rfl, table, hok⟩)
        rw [hstatus] at hstep
        cases hbefore : statusOf id (tableAfter calls) with
        | none =>
            rw [hbefore] at hstep
            cases hstep with
            | created run draft hcall => exact ⟨by simp, by simp⟩
        | some old =>
            obtain ⟨hwas, hfailed⟩ := ih hspared hbefore
            rw [hbefore] at hstep
            cases hstep with
            | same _ _ _ _ =>
                exact ⟨fun hmem => hkept _ (hwas hmem), fun heq =>
                  (hfailed heq).imp (hkept _) (hkept _)⟩
            | available hcall => exact ⟨fun _ => hnow _ hcall.symm, by simp⟩
            | creationFailed hcall => exact ⟨by simp, fun _ => Or.inr (hnow _ hcall.symm)⟩
            | begun _ hcall hold =>
                refine ⟨fun _ => hkept _ ?_, by simp⟩
                by_cases hfail : old = .failed
                · -- a failed point that is spared was available before it failed
                  rcases hfailed hfail with havailable | hcreation
                  · exact havailable
                  · refine absurd ⟨?_, hcreation⟩ (h calls id ?_)
                    · rw [← hcall]
                    · rw [hbefore, hfail]
                · refine hwas ?_
                  simp only [List.mem_cons, List.not_mem_nil, or_false] at hold ⊢
                  rcases hold with rfl | rfl | rfl
                  · exact Or.inl rfl
                  · exact Or.inr (Or.inr (Or.inr rfl))
                  · exact absurd rfl hfail
            | finished _ _ _ =>
                exact ⟨fun _ => hkept _ (hwas (by simp)), fun _ =>
                  Or.inl (hkept _ (hwas (by simp)))⟩
            | observed _ => exact ⟨fun _ => hkept _ (hwas (by simp)), by simp⟩
            | interrupted _ => exact ⟨fun _ => hkept _ (hwas (by simp)), by simp⟩
            | cleanup _ _ _ _ => exact ⟨by simp, by simp⟩
            | cleaned _ => exact ⟨by simp, by simp⟩

/-- **However repository calls and rollbacks interleave: in every state on the way, the
points that are restored were available once, exactly when no rollback is begun on a
point whose creation failed.** -/
theorem restored_only_after_available (clients : List (Client ι)) {calls : List (Call ι)}
    (_hmade : Made clients calls) :
    (∀ before, before <+: calls → RestoredWereAvailable before)
      ↔ SparesFailedCreations calls := by
  constructor
  · rintro hrestored before id hbefore ⟨hfailed, hcreation⟩
    -- the rollback is accepted, and the point has never been available
    have hrolling : statusOf id (tableAfter (before ++ [.beginRollback id]))
        = some .rollingBack := by
      rcases statusStep_snoc before (.beginRollback id) id with ⟨⟨e, hfails⟩, _⟩ | ⟨_, hstep⟩
      · obtain ⟨d, hd, hstatus⟩ := Option.map_eq_some_iff.mp hfailed
        have hallowed : hasStatus [.available, .partially, .failed] d = true := by
          unfold hasStatus
          rw [hstatus]
          rfl
        have hfails : beginRollback id (tableAfter before) = .error e := hfails
        unfold beginRollback updatePoint at hfails
        rw [hd] at hfails
        dsimp only at hfails
        rw [if_pos hallowed] at hfails
        cases hfails
      · exact hstep.of_beginRollback.1
    have havailable := hrestored _ hbefore id (Or.inl hrolling)
    rcases succeeded_snoc.mp havailable with havailable | ⟨heq, _⟩
    · exact (marked_once id before).once ⟨havailable, hcreation⟩
    · cases heq
  · intro hspared before hbefore id hstatus
    have hspared' : SparesFailedCreations before := fun b i hb => hspared b i (hb.trans hbefore)
    rcases hstatus with hstatus | hstatus
    · exact (available_of_spared hspared' id hstatus).1 (by simp)
    · exact (available_of_spared hspared' id hstatus).1 (by simp)

/-! ## §3. Two runs. -/

/-- The connection and the probe succeed, and so does every item. -/
def obligingHost : Nat → (q : RollbackQuestion Nat) → RollbackAnswer q
  | _, .connect _ => .ok ()
  | _, .probePrivilege => .ok .root
  | _, .isCancelled => false
  | _, .rollbackItem _ _ _ => .ok ()

def hostnamePoint : NewOperationRestorePoint Nat :=
  { operationRunId := 1, serverId := "web-1".toList, taskId := "system.hostname_change".toList,
    localRelativeDir := "backups/tasks/1".toList, remoteAssetId := none, expiresAt := none }

def createHostnamePoint : Call Nat :=
  .create 2 (some ("web-1".toList, "system.hostname_change".toList)) hostnamePoint

def hostnameItem : Call Nat :=
  .addItem 3
    { restorePointId := 2, ordinal := 0, itemKind := .commandSnapshot,
      remoteTarget := "hostname".toList, localRelativePath := none, sha256 := none,
      originalMetadata := .null, status := .available, errorSummary := none }

/-- A capture that succeeds, and a rollback. -/
def capturedClients : List (Client Nat) :=
  [.call createHostnamePoint, .call hostnameItem, .call (.markAvailable 2), .rollback 2]

/-- A capture that is cancelled at once, and a rollback. -/
def abandonedClients : List (Client Nat) :=
  [.call createHostnamePoint, .call (.markCreationFailed 2), .rollback 2]

/-- The calls that clients make one after the other. -/
def callsInTurn (clients : List (Client Nat)) : List (Call Nat) :=
  (Process.runAll obligingHost (clients.map Client.process) []).2

theorem made_callsInTurn (clients : List (Client Nat)) : Made clients (callsInTurn clients) :=
  ⟨_, Process.runAll_interleaved obligingHost [] (clients.map Client.process) []⟩

/-- After a capture the rolled back point was available. -/
theorem restored_only_after_available_captured :
    Made capturedClients (callsInTurn capturedClients)
      ∧ ∀ before, before <+: callsInTurn capturedClients → RestoredWereAvailable before := by
  refine ⟨made_callsInTurn _,
    (restored_only_after_available capturedClients (made_callsInTurn _)).mpr ?_⟩
  have hnone : ((callsInTurn capturedClients).all fun c =>
      match c with
      | .markCreationFailed _ => false
      | _ => true) = true := by decide
  rintro before id hbefore ⟨_, hcreation⟩
  have hmem := hbefore.subset (List.mem_append_left _ hcreation.mem)
  exact absurd (List.all_eq_true.mp hnone _ hmem) (by simp)

/-- A point whose capture was cancelled is rolled back, with nothing to restore. -/
theorem abandoned_reported_restored :
    Made abandonedClients (callsInTurn abandonedClients)
      ∧ statusOf 2 (tableAfter (callsInTurn abandonedClients)) = some .rolledBack
      ∧ ¬ RestoredWereAvailable (callsInTurn abandonedClients) := by
  have hrolledBack : statusOf 2 (tableAfter (callsInTurn abandonedClients))
      = some .rolledBack := by decide
  refine ⟨made_callsInTurn _, hrolledBack, ?_⟩
  intro hrestored
  have hnone : ((callsInTurn abandonedClients).all fun c =>
      match c with
      | .markAvailable _ => false
      | _ => true) = true := by decide
  have hmem := (hrestored 2 (Or.inr hrolledBack)).mem
  exact absurd (List.all_eq_true.mp hnone _ hmem) (by simp)

end QingzhouSSH.Services.OperationRestoreService
