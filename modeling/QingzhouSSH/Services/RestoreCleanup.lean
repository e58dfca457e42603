/-
  QingzhouSSH.Services.RestoreCleanup — removing the assets of a restore point.

  `cleanup_assets` removes what a restore point has kept on the server and in the data
  directory.  It runs among other cleanups, among rollbacks to the same point, and among
  operations that find a point rolled back by the server itself; the application may stop at
  any time and start again.

  Main results:
    * `Moves.sound` — what a step of any of them leaves true;
    * `cleanupAssets_behaves`, `rollback_behaves` — what each of them guarantees;
    * `cleanup_excludes_rollback` — assets are removed of points that are to be cleaned up,
      and items are restored while all assets are there.
-/
import QingzhouSSH.Lib.Rely
import QingzhouSSH.Services.OperationRestoreService

namespace QingzhouSSH.Services.RestoreCleanup

open QingzhouSSH.Domain
open QingzhouSSH.Lib
open QingzhouSSH.Lib.Process
open QingzhouSSH.Repositories.OperationRestoreRepository
open QingzhouSSH.Services.OperationRestoreService (RollbackQuestion RollbackAnswer RestoreProcess)

variable {ι π : Type}

/-! ## §1. Assets. -/

/-- Where a restore point keeps its assets. -/
inductive Place where
  | localDir
  | remoteDir
  deriving DecidableEq

/-- What is left there. -/
inductive Remains where
  | whole
  | touched
  | gone
  deriving DecidableEq

/-- The restore tables, given as the calls made so far; the party that has begun the last
rollback to the point; and its assets. -/
structure Shared (ι π : Type) where
  calls : List (Call ι)
  holder : Option π
  assets : Place → Remains

/-- From here on the assets are being removed. -/
def Shared.touch (place : Place) (s : Shared ι π) : Shared ι π :=
  { s with
    assets := Function.update s.assets place
      (if s.assets place = .gone then .gone else .touched) }

def Shared.clear (place : Place) (s : Shared ι π) : Shared ι π :=
  { s with assets := Function.update s.assets place .gone }

/-! ## §2. The procedures. -/

inductive MetadataAnswer where
  | directory
  | other
  | notFound
  | failed (error : AppError)

inductive CleanupQuestion (ι : Type) where
  | now
  | cleanupOperationAssets (serverId : Text) (operationRunId : ι)
  | resolveTaskRestorePath (relative : Text)
  | symlinkMetadata (path : Text)
  | removeDirAll (path : Text)
  | rollback (question : RollbackQuestion ι)

/-- A removal that succeeds leaves nothing: the command on the server ends with a test that
the directory is gone. -/
def CleanupAnswer : CleanupQuestion ι → Type
  | .now => Int
  | .cleanupOperationAssets _ _ => AppResult Unit
  | .resolveTaskRestorePath _ => AppResult Text
  | .symlinkMetadata _ => MetadataAnswer
  | .removeDirAll _ => AppResult Unit
  | .rollback question => RollbackAnswer question

abbrev CleanupProcess (ι π α : Type) :=
  ExceptT AppError (Process (Shared ι π) (@CleanupAnswer ι)) α

def ask (question : CleanupQuestion ι) : CleanupProcess ι π (CleanupAnswer question) :=
  ExceptT.lift (query question)

def require {α : Type} (result : AppResult α) : CleanupProcess ι π α := ExceptT.mk (pure result)

def change (f : Shared ι π → Shared ι π) : CleanupProcess ι π Unit :=
  ExceptT.lift (atomic fun s => ((), f s))

section Procedures

variable [DecidableEq ι] (uuidText : ι → Text)

/-- One call of the repository. -/
def call (c : Call ι) : CleanupProcess ι π Unit :=
  atomic fun s =>
    ((c.apply (tableAfter s.calls)).map fun _ => (), { s with calls := s.calls ++ [c] })

def readDetails (id : ι) : CleanupProcess ι π (Option (OperationRestoreDetails ι)) :=
  read fun s => .ok (get id (tableAfter s.calls))

/-- `task_restore_dir`, with slashes. -/
def taskRestoreDir (operationRunId : ι) : Text :=
  "backups/tasks/".toList ++ uuidText operationRunId

/-- The remote part of `cleanup_assets`. -/
def removeRemoteAsset (point : OperationRestorePoint ι) : CleanupProcess ι π Unit :=
  match point.remoteAssetId with
  | none => return
  | some remoteAssetId => do
      if remoteAssetId ≠ "qingzhou-recovery/".toList ++ uuidText point.operationRunId then
        throw (.security "远程恢复资产标识与运维运行不匹配".toList)
      change (Shared.touch .remoteDir)
      let removed ← ask (.cleanupOperationAssets point.serverId point.operationRunId)
      require removed
      change (Shared.clear .remoteDir)

/-- The local part of `cleanup_assets`. -/
def removeLocalDir (point : OperationRestorePoint ι) : CleanupProcess ι π Unit := do
  let resolved ← ask (.resolveTaskRestorePath point.localRelativeDir)
  let localDir ← require resolved
  let metadata ← ask (.symlinkMetadata localDir)
  match metadata with
  | .failed error => throw error
  | .other => throw (.security "恢复资产目录类型无效".toList)
  | .notFound => change (Shared.clear .localDir)
  | .directory => do
      change (Shared.touch .localDir)
      let removed ← ask (.removeDirAll localDir)
      require removed
      change (Shared.clear .localDir)

/-- The first part of `cleanup_assets`: a cleanup that was begun is taken up. -/
def claimCleanup (point : OperationRestorePoint ι) (restorePointId : ι) :
    CleanupProcess ι π Unit := do
  if point.status ≠ .cleanupPending then do
    let now ← ask .now
    call (.beginCleanup restorePointId now)

/-- The middle part of `cleanup_assets`. -/
def removeAssets (point : OperationRestorePoint ι) : CleanupProcess ι π Unit := do
  if point.localRelativeDir ≠ taskRestoreDir uuidText point.operationRunId then
    throw (.security "恢复资产目录与运维运行不匹配".toList)
  removeRemoteAsset uuidText point
  removeLocalDir point

/-- `OperationRestoreService::cleanup_assets`. -/
def cleanupAssets (restorePointId : ι) : CleanupProcess ι π (OperationRestoreDetails ι) := do
  let found ← readDetails restorePointId
  match found with
  | none => throw (.validation "恢复点不存在".toList)
  | some details => do
      claimCleanup details.point restorePointId
      removeAssets uuidText details.point
      call (.finishCleanup restorePointId)
      let cleaned ← readDetails restorePointId
      match cleaned with
      | none => throw (.database "RowNotFound".toList)
      | some details => return details

/-- `OperationRestoreService::mark_remote_rollback_observed`.  A run has one restore point. -/
def markRemoteRollbackObserved (operationRunId : ι) : CleanupProcess ι π Unit := do
  let found ← read fun s => .ok ((tableAfter s.calls).find? fun details =>
    details.point.operationRunId = operationRunId ∧ details.point.status = .available)
  match found with
  | none => throw (.integrity "远程自动回滚缺少可用恢复点".toList)
  | some details => call (.markRemoteRollbackObserved details.point.id)

/-! ## §3. Any callers, in any order. -/

def Shared.status (id : ι) (s : Shared ι π) : Option OperationRestorePointStatus :=
  statusOf id (tableAfter s.calls)

/-- The calls of a rollback: who makes the point roll back holds it. -/
def Shared.record (id : ι) (party : π) (calls : List (Call ι)) (s : Shared ι π) : Shared ι π :=
  { s with
    calls := calls
    holder :=
      if statusOf id (tableAfter calls) = some .rollingBack ∧ s.status id ≠ some .rollingBack then
        some party
      else s.holder }

/-- A caller that is about the one restore point, or about one operation. -/
inductive Client (ι : Type) where
  | cleanup
  | rollback
  | observe (operationRunId : ι)

/-- A procedure over the restore tables, taken over what is shared. -/
def overShared {α : Type} (id : ι) (party : π) :
    Process (List (Call ι)) (@RollbackAnswer ι) α → Process (Shared ι π) (@CleanupAnswer ι) α :=
  embed Shared.calls (Shared.record id party) CleanupQuestion.rollback fun _ answer => answer

def Client.process (id : ι) (party : π) :
    Client ι → Process (Shared ι π) (@CleanupAnswer ι) (AppResult Unit)
  | .cleanup => (do let _ ← cleanupAssets uuidText id : CleanupProcess ι π Unit).run
  | .rollback =>
      overShared id party
        (do let _ ← OperationRestoreService.rollback id : RestoreProcess ι Unit).run
  | .observe operationRunId => (markRemoteRollbackObserved operationRunId).run

/-- The application has stopped and started again. -/
def Shared.recovered (s : Shared ι π) : Shared ι π :=
  { s with calls := s.calls ++ [.recoverInterrupted], holder := none }

variable [DecidableEq π]

/-- Any number of callers take their steps in turn.  When the application stops, what they
were doing ends; others come after its start. -/
inductive Reached (id : ι) :
    (π → Process (Shared ι π) (@CleanupAnswer ι) (AppResult Unit)) → Shared ι π → Prop where
  | started (calls : List (Call ι)) (clients : π → Client ι) :
      Reached id (fun party => (clients party).process uuidText id party)
        ⟨calls, none, fun _ => .whole⟩
  | step {parties parties' : π → Process (Shared ι π) (@CleanupAnswer ι) (AppResult Unit)}
      {s s' : Shared ι π} : Reached id parties s → Parallel (parties, s) (parties', s') →
      Reached id parties' s'
  | restarted {parties : π → Process (Shared ι π) (@CleanupAnswer ι) (AppResult Unit)}
      {s : Shared ι π} (clients : π → Client ι) : Reached id parties s →
      Reached id (fun party => (clients party).process uuidText id party) s.recovered

end Procedures

/-! ## §4. What a step may do. -/

section Moves

variable [DecidableEq ι]

/-- The remote asset that a point is registered with. -/
def remoteIn (id : ι) (table : Table ι) : Option Text :=
  (get id table).bind fun details => details.point.remoteAssetId

def Shared.remote (id : ι) (s : Shared ι π) : Option Text := remoteIn id (tableAfter s.calls)

/-- Nothing is left of the assets that the point is registered with. -/
def Gone (registered : Option Text) (s : Shared ι π) : Prop :=
  s.assets .localDir = .gone ∧ (registered.isSome = true → s.assets .remoteDir = .gone)

/-- A step that is not about the assets. -/
structure Elsewhere (id : ι) (s s' : Shared ι π) : Prop where
  assets : s'.assets = s.assets
  remote : s'.status id ≠ some .expired → s'.remote id = s.remote id

/-- The steps of one party. -/
inductive Moves (id : ι) (registered : Option Text) (party : π) (s s' : Shared ι π) : Prop where
  | silent : s'.status id = s.status id → s'.holder = s.holder → Elsewhere id s s' →
      Moves id registered party s s'
  | begun (status : OperationRestorePointStatus) : s.status id = some status →
      status ∈ [.available, .partially, .failed] → s'.status id = some .rollingBack →
      s'.holder = some party → Elsewhere id s s' → Moves id registered party s s'
  | finished (status : OperationRestorePointStatus) : s.status id = some .rollingBack →
      s.holder = some party → status ∈ [.rolledBack, .partially, .failed] →
      s'.status id = some status → s'.calls = s.calls ++ [.finishRollback id status] →
      Elsewhere id s s' → Moves id registered party s s'
  | observed : s.status id = some .available → s'.status id = some .rolledBack →
      Elsewhere id s s' → Moves id registered party s s'
  | pended (status : OperationRestorePointStatus) : s.status id = some status →
      status ∈ [.rolledBack, .available, .partially, .failed] →
      s'.status id = some .cleanupPending → Elsewhere id s s' → Moves id registered party s s'
  | removed : s.status id = some .cleanupPending → s'.calls = s.calls →
      (∀ place, s.assets place = .gone → s'.assets place = .gone) →
      Moves id registered party s s'
  | cleaned : s.status id = some .cleanupPending → s'.status id = some .expired →
      Gone registered s → Elsewhere id s s' → Moves id registered party s s'

/-- What is true of the point at any time. -/
structure Sound (id : ι) (registered : Option Text) (s : Shared ι π) : Prop where
  touched : ∀ place, s.assets place ≠ .whole →
    s.status id = some .cleanupPending ∨ s.status id = some .expired
  remote : s.status id ≠ some .expired → s.remote id = registered

variable {id : ι} {registered : Option Text} {party : π} {s s' : Shared ι π}

theorem Elsewhere.sound (h : Elsewhere id s s') (hsound : Sound id registered s)
    (hbefore : s.status id ≠ some .expired ∨ s'.status id = s.status id)
    (htouched : s.status id ≠ some .cleanupPending ∨ s'.status id = s.status id
      ∨ s'.status id = some .expired) : Sound id registered s' where
  touched place hplace := by
    rw [h.assets] at hplace
    rcases hsound.touched place hplace with hpending | hexpired
    · rcases htouched with hnot | hsame | hafter
      · exact absurd hpending hnot
      · exact Or.inl (hsame.trans hpending)
      · exact Or.inr hafter
    · rcases hbefore with hnot | hsame
      · exact absurd hexpired hnot
      · exact Or.inr (hsame.trans hexpired)
  remote hafter := by
    have hnot : s.status id ≠ some .expired := by
      rcases hbefore with hnot | hsame
      · exact hnot
      · exact hsame ▸ hafter
    rw [h.remote hafter]
    exact hsound.remote hnot

/-- **What a step of any of them leaves true.** -/
theorem Moves.sound (h : Moves id registered party s s') (hsound : Sound id registered s) :
    Sound id registered s' := by
  cases h with
  | silent hstatus _ helse => exact helse.sound hsound (Or.inr hstatus) (Or.inr (Or.inl hstatus))
  | begun status hbefore hmem hafter _ helse | pended status hbefore hmem hafter helse =>
      refine helse.sound hsound (Or.inl ?_) (Or.inl ?_)
      · rw [hbefore]
        rintro hsame
        rw [Option.some.inj hsame] at hmem
        exact absurd hmem (by decide)
      · rw [hbefore]
        rintro hsame
        rw [Option.some.inj hsame] at hmem
        exact absurd hmem (by decide)
  | finished status hbefore _ _ _ _ helse =>
      exact helse.sound hsound (Or.inl (by rw [hbefore]; simp)) (Or.inl (by rw [hbefore]; simp))
  | observed hbefore _ helse =>
      exact helse.sound hsound (Or.inl (by rw [hbefore]; simp)) (Or.inl (by rw [hbefore]; simp))
  | removed hbefore hcalls _ =>
      have hstatus : s'.status id = s.status id :=
        congrArg (fun c => statusOf id (tableAfter c)) hcalls
      exact {
        touched := fun _ _ => Or.inl (hstatus.trans hbefore)
        remote := fun hafter => by
          have hsame : s'.remote id = s.remote id := by
            unfold Shared.remote
            rw [hcalls]
          rw [hsame]
          exact hsound.remote (hstatus ▸ hafter) }
  | cleaned hbefore hafter _ helse =>
      exact helse.sound hsound (Or.inl (by rw [hbefore]; simp)) (Or.inr (Or.inr hafter))

/-- Where a cleanup has been let in. -/
structure Cleaning (id : ι) (registered : Option Text) (s : Shared ι π) : Prop where
  sound : Sound id registered s
  status : s.status id = some .cleanupPending
    ∨ (s.status id = some .expired ∧ Gone registered s)

omit [DecidableEq ι] in
theorem Gone.moves (h : Gone registered s)
    (hkept : ∀ place, s.assets place = .gone → s'.assets place = .gone) : Gone registered s' :=
  ⟨hkept _ h.1, fun hsome => hkept _ (h.2 hsome)⟩

theorem Moves.gone (h : Moves id registered party s s') (place : Place)
    (hgone : s.assets place = .gone) : s'.assets place = .gone := by
  cases h with
  | silent _ _ helse | begun _ _ _ _ _ helse | finished _ _ _ _ _ _ helse | observed _ _ helse
  | pended _ _ _ _ helse | cleaned _ _ _ helse =>
      rw [helse.assets]
      exact hgone
  | removed _ _ hkept => exact hkept place hgone

/-- **A cleanup is not put out.** -/
theorem Moves.cleaning (h : Moves id registered party s s') (hcleaning : Cleaning id registered s) :
    Cleaning id registered s' := by
  refine ⟨h.sound hcleaning.sound, ?_⟩
  have hgone : Gone registered s → Gone registered s' := fun hgone => hgone.moves h.gone
  cases h with
  | silent hstatus _ _ =>
      rw [hstatus]
      exact hcleaning.status.imp_right fun h => ⟨h.1, hgone h.2⟩
  | begun status hbefore hmem _ _ _ | pended status hbefore hmem _ _ =>
      rcases hcleaning.status with hpending | ⟨hexpired, _⟩
      · rw [Option.some.inj (hbefore.symm.trans hpending)] at hmem
        exact absurd hmem (by decide)
      · rw [Option.some.inj (hbefore.symm.trans hexpired)] at hmem
        exact absurd hmem (by decide)
  | finished _ hbefore _ _ _ _ _ | observed hbefore _ _ =>
      rcases hcleaning.status with hpending | ⟨hexpired, _⟩
      · exact absurd (hbefore.symm.trans hpending) (by simp)
      · exact absurd (hbefore.symm.trans hexpired) (by simp)
  | removed hbefore hcalls _ =>
      have hstatus : s'.status id = s.status id :=
        congrArg (fun c => statusOf id (tableAfter c)) hcalls
      exact Or.inl (hstatus.trans hbefore)
  | cleaned _ hafter hall _ => exact Or.inr ⟨hafter, hgone hall⟩

/-- Where a rollback is under way. -/
structure RollingBack (id : ι) (registered : Option Text) (party : π) (s : Shared ι π) : Prop where
  sound : Sound id registered s
  status : s.status id = some .rollingBack
  holder : s.holder = some party

theorem RollingBack.whole (h : RollingBack id registered party s) (place : Place) :
    s.assets place = .whole := by
  by_contra hplace
  have htouched := h.sound.touched place hplace
  rw [h.status] at htouched
  exact absurd htouched (by simp)

/-- **A rollback is ended by its own party only.** -/
theorem Moves.rollingBack {other : π} (h : Moves id registered other s s') (hne : other ≠ party)
    (hrolling : RollingBack id registered party s) : RollingBack id registered party s' := by
  have hsound := h.sound hrolling.sound
  have hstatus := hrolling.status
  cases h with
  | silent hsame hholder _ =>
      exact ⟨hsound, hsame.trans hstatus, hholder.trans hrolling.holder⟩
  | begun status hbefore hmem _ _ _ | pended status hbefore hmem _ _ =>
      rw [Option.some.inj (hbefore.symm.trans hstatus)] at hmem
      exact absurd hmem (by decide)
  | finished _ _ hholder _ _ _ _ =>
      exact absurd (Option.some.inj (hholder.symm.trans hrolling.holder)) hne
  | observed hbefore _ _ | removed hbefore _ _ | cleaned hbefore _ _ _ =>
      exact absurd (hbefore.symm.trans hstatus) (by simp)

/-- **An expired point stays expired.** -/
theorem Moves.expired (h : Moves id registered party s s')
    (hexpired : s.status id = some .expired) : s'.status id = some .expired := by
  cases h with
  | silent hsame _ _ => exact hsame.trans hexpired
  | begun status hbefore hmem _ _ _ | pended status hbefore hmem _ _ =>
      rw [Option.some.inj (hbefore.symm.trans hexpired)] at hmem
      exact absurd hmem (by decide)
  | finished _ hbefore _ _ _ _ _ | observed hbefore _ _ | removed hbefore _ _
  | cleaned hbefore _ _ _ => exact absurd (hbefore.symm.trans hexpired) (by simp)

end Moves

/-! ## §5. What a call does. -/

section Calls

variable [DecidableEq ι]

theorem remoteIn_map {f : OperationRestoreDetails ι → OperationRestoreDetails ι} {id : ι}
    {table : Table ι} (hid : ∀ d, (f d).point.id = d.point.id)
    (hremote : ∀ d, d.point.id = id → (f d).point.remoteAssetId = d.point.remoteAssetId) :
    remoteIn id (table.map f) = remoteIn id table := by
  unfold remoteIn
  rw [get_map hid]
  cases hget : get id table with
  | none => rfl
  | some d => exact hremote d (get_id hget)

theorem remoteIn_updatePoint {target id : ι} {allowed : OperationRestoreDetails ι → Bool}
    {f : OperationRestoreDetails ι → OperationRestoreDetails ι} {refusal : AppError}
    {table table' : Table ι} (h : updatePoint target allowed f refusal table = .ok table')
    (hid : ∀ d, (f d).point.id = d.point.id)
    (hremote : id = target → ∀ d, (f d).point.remoteAssetId = d.point.remoteAssetId) :
    remoteIn id table' = remoteIn id table := by
  obtain ⟨_, _, _, rfl⟩ := updatePoint_ok h
  refine remoteIn_map (fun d => ?_) fun d hd => ?_
  · by_cases htarget : d.point.id = target
    · rw [if_pos htarget, hid]
    · rw [if_neg htarget]
  · by_cases htarget : d.point.id = target
    · rw [if_pos htarget, hremote (hd.symm.trans htarget)]
    · rw [if_neg htarget]

theorem remoteIn_updateItem {id item : ι} {allowed : List OperationRestoreItemStatus}
    {f : OperationRestoreItem ι → OperationRestoreItem ι} {refusal : AppError}
    {table table' : Table ι} (h : updateItem item allowed f refusal table = .ok table') :
    remoteIn id table' = remoteIn id table := by
  unfold updateItem at h
  dsimp only at h
  split at h
  next =>
    obtain rfl := Except.ok.inj h
    exact remoteIn_map (fun _ => rfl) fun _ _ => rfl
  next => exact absurd h (by simp)

/-- The calls of cleanups, rollbacks and observed rollbacks. -/
def Concerned : Call ι → Prop
  | .create _ _ _ | .addItem _ _ | .markAvailable _ | .attachRemoteAsset _ _ _
  | .markCreationFailed _ => False
  | _ => True

/-- A point keeps its registration until it has expired. -/
theorem remoteIn_apply {c : Call ι} (hconcerned : Concerned c) {id : ι} {table table' : Table ι}
    (h : c.apply table = .ok table') (hexpired : statusOf id table' ≠ some .expired) :
    remoteIn id table' = remoteIn id table := by
  cases c with
  | create _ _ _ | addItem _ _ | markAvailable _ | attachRemoteAsset _ _ _
  | markCreationFailed _ => exact hconcerned.elim
  | beginCleanup target now => exact remoteIn_updatePoint h (fun _ => rfl) fun _ _ => rfl
  | finishCleanup target =>
      have h : finishCleanup target table = .ok table' := h
      unfold finishCleanup at h
      refine remoteIn_updatePoint h (fun _ => rfl) fun hid => ?_
      obtain ⟨d, _, _, hstatus, _⟩ := statusOf_updatePoint (by intro _; rfl) h
      exact absurd (hid ▸ hstatus) hexpired
  | markRemoteRollbackObserved target =>
      exact remoteIn_updatePoint h (fun _ => rfl) fun _ _ => rfl
  | markItemRollingBack item => exact remoteIn_updateItem h
  | finishItemRollback item status errorSummary =>
      have h : finishItemRollback item status errorSummary table = .ok table' := h
      unfold finishItemRollback at h
      split at h
      next => exact remoteIn_updateItem h
      next => exact absurd h (by simp)
  | recoverInterrupted =>
      obtain rfl := Except.ok.inj h
      refine remoteIn_map (fun d => ?_) fun d _ => ?_
      · unfold recoverDetails
        dsimp only
        split <;> rfl
      · unfold recoverDetails
        dsimp only
        split <;> rfl
  | beginRollback target => exact remoteIn_updatePoint h (fun _ => rfl) fun _ _ => rfl
  | finishRollback target status =>
      have h : finishRollback target status table = .ok table' := h
      unfold finishRollback at h
      split at h
      next => exact remoteIn_updatePoint h (fun _ => rfl) fun _ _ => rfl
      next => exact absurd h (by simp)

variable {id : ι} {registered : Option Text} {party : π} {s : Shared ι π}

theorem elsewhere_call {c : Call ι} (hconcerned : Concerned c) (id : ι) (s : Shared ι π) :
    Elsewhere id s { s with calls := s.calls ++ [c] } where
  assets := rfl
  remote hexpired := by
    have hexpired : statusOf id (tableAfter (s.calls ++ [c])) ≠ some .expired := hexpired
    show remoteIn id (tableAfter (s.calls ++ [c])) = remoteIn id (tableAfter s.calls)
    rw [tableAfter_snoc] at hexpired ⊢
    unfold Call.rows at hexpired ⊢
    cases happly : c.apply (tableAfter s.calls) with
    | error e => rfl
    | ok table' =>
        rw [happly] at hexpired
        exact remoteIn_apply hconcerned happly hexpired

/-- **A call of a cleanup or of an observed rollback.** -/
theorem moves_call {c : Call ι} (hconcerned : Concerned c)
    (hrecover : c ≠ .recoverInterrupted) (hbegin : ∀ target, c ≠ .beginRollback target)
    (hfinish : ∀ target status, c ≠ .finishRollback target status)
    (hcleaned : c = .finishCleanup id → s.status id = some .cleanupPending → Gone registered s) :
    Moves id registered party s { s with calls := s.calls ++ [c] } := by
  have helse := elsewhere_call hconcerned id s
  rcases statusStep_snoc s.calls c id with ⟨_, hsame⟩ | ⟨_, hstep⟩
  · exact .silent hsame rfl helse
  · -- what the accepted call does to the status
    generalize hbefore : statusOf id (tableAfter s.calls) = before at hstep
    generalize hafter : statusOf id (tableAfter (s.calls ++ [c])) = after at hstep
    cases hstep with
    | same _ _ _ _ => exact .silent (hafter.trans hbefore.symm) rfl helse
    | observed _ => exact .observed hbefore hafter helse
    | cleanup _ status _ hmem => exact .pended status hbefore hmem hafter helse
    | cleaned hcall => exact .cleaned hbefore hafter (hcleaned hcall hbefore) helse
    | begun _ hcall _ => exact absurd hcall (hbegin id)
    | finished status hcall _ => exact absurd hcall (hfinish id status)
    | interrupted hcall => exact absurd hcall hrecover
    | created _ _ hcall | available hcall | creationFailed hcall =>
        subst hcall
        exact hconcerned.elim

/-- **A call of a rollback.** -/
theorem moves_record {c : Call ι} (hconcerned : Concerned c)
    (hrecover : c ≠ .recoverInterrupted)
    (hobserve : ∀ target, c ≠ .markRemoteRollbackObserved target)
    (hcleanup : ∀ target now, c ≠ .beginCleanup target now)
    (hcleaned : ∀ target, c ≠ .finishCleanup target)
    (hfinish : ∀ status, c = .finishRollback id status → s.holder = some party) :
    Moves id registered party s (s.record id party (s.calls ++ [c])) := by
  have helse : Elsewhere id s (s.record id party (s.calls ++ [c])) :=
    ⟨rfl, (elsewhere_call hconcerned id s).remote⟩
  rcases statusStep_snoc s.calls c id with ⟨_, hsame⟩ | ⟨_, hstep⟩
  · refine .silent hsame ?_ helse
    show (if _ then some party else s.holder) = s.holder
    rw [if_neg]
    rintro ⟨hrolling, hnot⟩
    exact hnot (hsame.symm.trans hrolling)
  · generalize hbefore : statusOf id (tableAfter s.calls) = before at hstep
    generalize hafter : statusOf id (tableAfter (s.calls ++ [c])) = after at hstep
    cases hstep with
    | same _ _ _ _ =>
        refine .silent (hafter.trans hbefore.symm) ?_ helse
        show (if _ then some party else s.holder) = s.holder
        rw [if_neg]
        rintro ⟨hrolling, hnot⟩
        exact hnot (hbefore.trans (hafter.symm.trans hrolling))
    | begun status _ hmem =>
        refine .begun status hbefore hmem hafter ?_ helse
        show (if _ then some party else s.holder) = some party
        rw [if_pos]
        refine ⟨hafter, fun hrolling => ?_⟩
        rw [Option.some.inj (hbefore.symm.trans hrolling)] at hmem
        exact absurd hmem (by decide)
    | finished status hcall hmem =>
        exact .finished status hbefore (hfinish status hcall) hmem hafter
          (by rw [hcall]; rfl) helse
    | observed hcall => exact absurd hcall (hobserve id)
    | cleanup now _ hcall _ => exact absurd hcall (hcleanup id now)
    | cleaned hcall => exact absurd hcall (hcleaned id)
    | interrupted hcall => exact absurd hcall hrecover
    | created _ _ hcall | available hcall | creationFailed hcall =>
        subst hcall
        exact hconcerned.elim

theorem moves_read : Moves id registered party s s := .silent rfl rfl ⟨rfl, fun _ => rfl⟩

/-- **Assets are removed where a cleanup has been let in.** -/
theorem moves_assets (hcleaning : Cleaning id registered s) {assets : Place → Remains}
    (hkept : ∀ place, s.assets place = .gone → assets place = .gone)
    (helse : Gone registered s → assets = s.assets) :
    Moves id registered party s { s with assets := assets } := by
  rcases hcleaning.status with hpending | ⟨_, hgone⟩
  · exact .removed hpending rfl hkept
  · exact .silent rfl rfl ⟨helse hgone, fun _ => rfl⟩

end Calls

/-! ## §6. What each of them guarantees. -/

section Guarantees

variable [DecidableEq ι]

/-- The steps of the other parties. -/
def Others (id : ι) (registered : Option Text) (party : π) (s s' : Shared ι π) : Prop :=
  ∃ other, other ≠ party ∧ Moves id registered other s s'

/-- What is so where a removal is asked for, and where a rollback asks for anything. -/
def Asked (id : ι) : CleanupQuestion ι → Shared ι π → Prop
  | .cleanupOperationAssets _ _, s =>
      s.status id = some .cleanupPending ∨ s.assets .remoteDir = .gone
  | .removeDirAll _, s => s.status id = some .cleanupPending ∨ s.assets .localDir = .gone
  | .rollback _, s => s.status id = some .rollingBack ∧ ∀ place, s.assets place = .whole
  | .now, _ | .resolveTaskRestorePath _, _ | .symlinkMetadata _, _ => True

/-- The rows that a cleanup has read. -/
structure Seen (id : ι) (registered : Option Text) (details : OperationRestoreDetails ι)
    (s : Shared ι π) : Prop where
  sound : Sound id registered s
  pending : details.point.status = .cleanupPending → Cleaning id registered s
  asset : details.point.status ≠ .expired → details.point.remoteAssetId = registered
  expired : details.point.status = .expired → s.status id = some .expired

/-- A cleanup for which the places are empty already. -/
structure Emptied (id : ι) (registered : Option Text) (places : List Place) (s : Shared ι π) :
    Prop where
  cleaning : Cleaning id registered s
  gone : ∀ place ∈ places, s.assets place = .gone

variable {id : ι} {registered : Option Text} {party : π}

theorem stable_sound : Stable (Others (π := π) id registered party) (Sound id registered) := by
  rintro s s' ⟨other, _, hmove⟩ hsound
  exact hmove.sound hsound

theorem stable_cleaning :
    Stable (Others (π := π) id registered party) (Cleaning id registered) := by
  rintro s s' ⟨other, _, hmove⟩ hcleaning
  exact hmove.cleaning hcleaning

theorem stable_rollingBack :
    Stable (Others (π := π) id registered party) (RollingBack id registered party) := by
  rintro s s' ⟨other, hne, hmove⟩ hrolling
  exact hmove.rollingBack hne hrolling

theorem stable_emptied {places : List Place} :
    Stable (Others (π := π) id registered party) (Emptied id registered places) := by
  rintro s s' ⟨other, _, hmove⟩ hemptied
  exact ⟨hmove.cleaning hemptied.cleaning, fun place hplace =>
    hmove.gone place (hemptied.gone place hplace)⟩

theorem stable_seen {details : OperationRestoreDetails ι} :
    Stable (Others (π := π) id registered party) (Seen id registered details) := by
  rintro s s' ⟨other, _, hmove⟩ hseen
  exact {
    sound := hmove.sound hseen.sound
    pending := fun hpending => hmove.cleaning (hseen.pending hpending)
    asset := hseen.asset
    expired := fun hexpired => hmove.expired (hseen.expired hexpired) }

theorem seen_of_get {s : Shared ι π} (hsound : Sound id registered s)
    {details : OperationRestoreDetails ι} (hget : get id (tableAfter s.calls) = some details) :
    Seen id registered details s := by
  have hstatus : s.status id = some details.point.status := statusOf_of_get hget
  have hremote : s.remote id = details.point.remoteAssetId := by
    show (get id (tableAfter s.calls)).bind _ = _
    rw [hget]
    rfl
  exact {
    sound := hsound
    pending := fun hpending => ⟨hsound, Or.inl (by rw [hstatus, hpending])⟩
    asset := fun hnot => by
      rw [← hremote]
      exact hsound.remote (by rw [hstatus]; simpa using hnot)
    expired := fun hexpired => by rw [hstatus, hexpired] }

variable {s : Shared ι π}

omit [DecidableEq ι] in
theorem stable_unless {α : Type} {Q : α → Shared ι π → Prop} {R : Shared ι π → Shared ι π → Prop}
    (h : ∀ a, Stable R (Q a)) (r : AppResult α) : Stable R (Unless Q r) := by
  cases r with
  | ok a => exact h a
  | error e => exact fun _ _ _ _ => trivial

/-- A call whose result is looked at. -/
theorem call_behaves {P Q : Shared ι π → Prop} (hP : Stable (Others id registered party) P)
    (hQ : Stable (Others id registered party) Q) (hs : P s) {c : Call ι}
    (h : ∀ s', P s' → Moves id registered party s' { s' with calls := s'.calls ++ [c] }
      ∧ ((∃ table, c.apply (tableAfter s'.calls) = .ok table) →
        Q { s' with calls := s'.calls ++ [c] })) :
    Behaves (Others id registered party) (Moves id registered party) (Asked id)
      (Unless fun _ => Q) (call c).run s := by
  refine behaves_atomic hP (stable_unless fun _ => hQ) hs fun s' hs' => ?_
  obtain ⟨hmoves, hnext⟩ := h s' hs'
  refine ⟨hmoves, ?_⟩
  dsimp only
  cases happly : c.apply (tableAfter s'.calls) with
  | error e => exact trivial
  | ok table => exact hnext ⟨table, happly⟩

theorem look_behaves {α : Type} {f : Shared ι π → α} {P : Shared ι π → Prop}
    {Q : α → Shared ι π → Prop} (hP : Stable (Others id registered party) P)
    (hQ : ∀ found, Stable (Others id registered party) (Q found)) (hs : P s)
    (h : ∀ s', P s' → Q (f s') s') :
    Behaves (Others id registered party) (Moves id registered party) (Asked id) (Unless Q)
      (read fun s => (.ok (f s) : AppResult α) :
        Process (Shared ι π) (@CleanupAnswer ι) (AppResult α)) s := by
  show Behaves _ _ _ _ (atomic fun s => ((.ok (f s) : AppResult α), s)) s
  refine behaves_atomic hP (stable_unless hQ) hs fun s' hs' => ?_
  exact ⟨moves_read, h s' hs'⟩

theorem change_behaves {P Q : Shared ι π → Prop} (hP : Stable (Others id registered party) P)
    (hQ : Stable (Others id registered party) Q) (hs : P s) {f : Shared ι π → Shared ι π}
    (h : ∀ s', P s' → Moves id registered party s' (f s') ∧ Q (f s')) :
    Behaves (Others id registered party) (Moves id registered party) (Asked id)
      (Unless fun _ => Q) (change f).run s := by
  show Behaves _ _ _ _ (atomic fun s => ((.ok () : AppResult Unit), f s)) s
  exact behaves_atomic hP (stable_unless fun _ => hQ) hs h

/-- A point that can be claimed has not expired. -/
theorem beginCleanup_ok {now : Int} {table table' : Table ι}
    (h : beginCleanup id now table = .ok table') :
    statusOf id table ≠ some .expired ∧ statusOf id table' = some .cleanupPending := by
  unfold beginCleanup at h
  obtain ⟨details, hget, hallowed, hstatus, _⟩ := statusOf_updatePoint (by intro _; rfl) h
  refine ⟨fun hexpired => ?_, hstatus⟩
  have hdetails : details.point.status = .expired :=
    Option.some.inj ((statusOf_of_get hget).symm.trans hexpired)
  have hnot : ∀ statuses, hasStatus statuses details = statuses.contains .expired := by
    intro statuses
    unfold hasStatus
    rw [hdetails]
  rw [hnot, hnot] at hallowed
  simp at hallowed

/-- **Who goes on has read the rows as they were registered.** -/
theorem claimCleanup_behaves {details : OperationRestoreDetails ι}
    (hseen : Seen id registered details s) :
    Behaves (Others id registered party) (Moves id registered party) (Asked id)
      (Unless fun _ s' => details.point.remoteAssetId = registered ∧ Cleaning id registered s')
      (claimCleanup details.point id).run s := by
  have hstable : Stable (Others (π := π) id registered party) fun s' =>
      details.point.remoteAssetId = registered ∧ Cleaning id registered s' :=
    fun s s' hother h => ⟨h.1, stable_cleaning s s' hother h.2⟩
  unfold claimCleanup
  by_cases hpending : details.point.status = .cleanupPending
  · rw [if_neg (by simpa using hpending)]
    exact behaves_ok hstable ⟨hseen.asset (by rw [hpending]; simp), hseen.pending hpending⟩
  · rw [if_pos hpending]
    refine behaves_then (behaves_lift stable_seen hseen fun _ _ => trivial) fun now s' hseen => ?_
    refine call_behaves stable_seen hstable hseen fun s' hseen => ?_
    have hmoves : Moves id registered party s'
        { s' with calls := s'.calls ++ [.beginCleanup id now] } :=
      moves_call trivial (by simp) (by simp) (by simp) (by simp)
    refine ⟨hmoves, ?_⟩
    rintro ⟨table, hok⟩
    obtain ⟨hbefore, hafter⟩ := beginCleanup_ok hok
    refine ⟨hseen.asset fun hexpired => hbefore (hseen.expired hexpired),
      hmoves.sound hseen.sound, Or.inl ?_⟩
    show statusOf id (tableAfter (s'.calls ++ [.beginCleanup id now])) = some .cleanupPending
    rw [tableAfter_snoc]
    unfold Call.rows
    rw [hok]
    exact hafter

/-- The places where something was kept. -/
def remotePlaces (registered : Option Text) : List Place :=
  registered.toList.map fun _ => .remoteDir

theorem touch_moves (hcleaning : Cleaning id registered s) {place : Place}
    (hplace : Gone registered s → s.assets place = .gone) :
    Moves id registered party s (s.touch place) := by
  refine moves_assets hcleaning (fun other hother => ?_) fun hgone => ?_
  · by_cases heq : other = place
    · subst heq
      rw [Function.update_self, if_pos hother]
    · rw [Function.update_of_ne heq]
      exact hother
  · rw [if_pos (hplace hgone), ← hplace hgone, Function.update_eq_self]

theorem clear_moves (hcleaning : Cleaning id registered s) {place : Place}
    (hplace : Gone registered s → s.assets place = .gone) :
    Moves id registered party s (s.clear place) := by
  refine moves_assets hcleaning (fun other hother => ?_) fun hgone => ?_
  · by_cases heq : other = place
    · subst heq
      rw [Function.update_self]
    · rw [Function.update_of_ne heq]
      exact hother
  · rw [← hplace hgone, Function.update_eq_self]

variable {places : List Place}

omit [DecidableEq ι] in
theorem Emptied.moves [DecidableEq ι] {s' : Shared ι π} (h : Emptied id registered places s)
    (hmoves : Moves id registered party s s') : Emptied id registered places s' :=
  ⟨hmoves.cleaning h.cleaning, fun place hplace => hmoves.gone place (h.gone place hplace)⟩

/-- What is left of a place is being removed. -/
theorem touch_behaves (hemptied : Emptied id registered places s) {place : Place}
    (hplace : ∀ s' : Shared ι π, Gone registered s' → s'.assets place = .gone) :
    Behaves (Others id registered party) (Moves id registered party) (Asked id)
      (Unless fun _ => Emptied id registered places) (change (Shared.touch place)).run s := by
  refine change_behaves stable_emptied stable_emptied hemptied fun s' hemptied => ?_
  have hmoves : Moves id registered party s' (s'.touch place) :=
    touch_moves hemptied.cleaning (hplace s')
  exact ⟨hmoves, hemptied.moves hmoves⟩

theorem clear_behaves (hemptied : Emptied id registered places s) {place : Place}
    (hplace : ∀ s' : Shared ι π, Gone registered s' → s'.assets place = .gone) :
    Behaves (Others id registered party) (Moves id registered party) (Asked id)
      (Unless fun _ => Emptied id registered (place :: places))
      (change (Shared.clear place)).run s := by
  refine change_behaves stable_emptied stable_emptied hemptied fun s' hemptied => ?_
  have hmoves : Moves id registered party s' (s'.clear place) :=
    clear_moves hemptied.cleaning (hplace s')
  refine ⟨hmoves, hmoves.cleaning hemptied.cleaning, fun other hother => ?_⟩
  rcases List.mem_cons.mp hother with rfl | hother
  · exact Function.update_self _ _ _
  · exact hmoves.gone other (hemptied.gone other hother)

/-- A removal is asked for while the cleanup is under way, or after another one has ended. -/
theorem Emptied.asked (hemptied : Emptied id registered places s) {place : Place}
    (hplace : ∀ s' : Shared ι π, Gone registered s' → s'.assets place = .gone) :
    s.status id = some .cleanupPending ∨ s.assets place = .gone :=
  hemptied.cleaning.status.imp_right fun h => hplace s h.2

omit [DecidableEq ι] in
theorem Emptied.all [DecidableEq ι]
    (hemptied : Emptied id registered (.localDir :: remotePlaces registered) s) :
    Gone registered s := by
  refine ⟨hemptied.gone _ List.mem_cons_self, fun hsome => hemptied.gone _ ?_⟩
  obtain ⟨asset, rfl⟩ := Option.isSome_iff_exists.mp hsome
  exact List.mem_cons_of_mem _ (List.mem_singleton_self _)

theorem require_behaves {α : Type} {result : AppResult α}
    (hemptied : Emptied id registered places s) :
    Behaves (Others id registered party) (Moves id registered party) (Asked id)
      (Unless fun _ => Emptied id registered places) (require result).run s := by
  cases result with
  | error e => exact behaves_error
  | ok a => exact behaves_ok stable_emptied hemptied

theorem removeRemoteAsset_behaves (uuidText : ι → Text) {point : OperationRestorePoint ι}
    (hpoint : point.remoteAssetId = registered) (hemptied : Emptied id registered [] s) :
    Behaves (Others id registered party) (Moves id registered party) (Asked id)
      (Unless fun _ => Emptied id registered (remotePlaces registered))
      (removeRemoteAsset uuidText point).run s := by
  unfold removeRemoteAsset
  cases hregistered : point.remoteAssetId with
  | none =>
      obtain rfl := hpoint.symm.trans hregistered
      exact behaves_ok stable_emptied hemptied
  | some asset =>
      obtain rfl := hpoint.symm.trans hregistered
      have hplace : ∀ s' : Shared ι π, Gone (some asset) s' → s'.assets .remoteDir = .gone :=
        fun s' hgone => hgone.2 rfl
      dsimp only
      by_cases hname : asset = "qingzhou-recovery/".toList ++ uuidText point.operationRunId
      · rw [if_neg (by simpa using hname)]
        refine behaves_then (touch_behaves hemptied hplace) fun _ s' hemptied => ?_
        refine behaves_then (behaves_lift stable_emptied hemptied fun s' hemptied =>
          hemptied.asked hplace) fun removed s' hemptied => ?_
        refine behaves_then (require_behaves hemptied) fun _ s' hemptied => ?_
        exact clear_behaves hemptied hplace
      · rw [if_pos hname]
        exact behaves_then (P := fun _ _ => False) behaves_error fun _ _ h => h.elim

theorem removeLocalDir_behaves {point : OperationRestorePoint ι}
    (hemptied : Emptied id registered places s) :
    Behaves (Others id registered party) (Moves id registered party) (Asked id)
      (Unless fun _ => Emptied id registered (.localDir :: places))
      (removeLocalDir point).run s := by
  have hplace : ∀ s' : Shared ι π, Gone registered s' → s'.assets .localDir = .gone :=
    fun s' hgone => hgone.1
  unfold removeLocalDir
  refine behaves_then (behaves_lift stable_emptied hemptied fun _ _ => trivial)
    fun resolved s' hemptied => ?_
  refine behaves_then (require_behaves hemptied) fun localDir s' hemptied => ?_
  refine behaves_then (behaves_lift stable_emptied hemptied fun _ _ => trivial)
    fun metadata s' hemptied => ?_
  cases metadata with
  | failed error => exact behaves_error
  | other => exact behaves_error
  | notFound => exact clear_behaves hemptied hplace
  | directory =>
      refine behaves_then (touch_behaves hemptied hplace) fun _ s' hemptied => ?_
      refine behaves_then (behaves_lift stable_emptied hemptied fun s' hemptied =>
        hemptied.asked hplace) fun removed s' hemptied => ?_
      refine behaves_then (require_behaves hemptied) fun _ s' hemptied => ?_
      exact clear_behaves hemptied hplace

theorem removeAssets_behaves (uuidText : ι → Text) {point : OperationRestorePoint ι}
    (hpoint : point.remoteAssetId = registered) (hcleaning : Cleaning id registered s) :
    Behaves (Others id registered party) (Moves id registered party) (Asked id)
      (Unless fun _ => Emptied id registered (.localDir :: remotePlaces registered))
      (removeAssets uuidText point).run s := by
  unfold removeAssets
  by_cases hdir : point.localRelativeDir = taskRestoreDir uuidText point.operationRunId
  · rw [if_neg (by simpa using hdir)]
    refine behaves_then (removeRemoteAsset_behaves uuidText hpoint ⟨hcleaning, by simp⟩)
      fun _ s' hemptied => ?_
    exact removeLocalDir_behaves hemptied
  · rw [if_pos hdir]
    exact behaves_then (P := fun _ _ => False) behaves_error fun _ _ h => h.elim

/-- **A cleanup removes assets of a point that is to be cleaned up, and no others.** -/
theorem cleanupAssets_behaves (uuidText : ι → Text) (hsound : Sound id registered s) :
    Behaves (Others id registered party) (Moves id registered party) (Asked id)
      (Unless fun _ => Sound id registered) (cleanupAssets uuidText id).run s := by
  unfold cleanupAssets
  refine behaves_then (P := fun found s' => ∀ details, found = some details →
    Seen id registered details s') ?_ fun found s' hseen => ?_
  · refine look_behaves stable_sound (fun found s s' hother hseen details hfound =>
      stable_seen s s' hother (hseen details hfound)) hsound fun s' hsound details hget => ?_
    exact seen_of_get hsound hget
  · cases found with
    | none => exact behaves_error
    | some details =>
        have hseen := hseen details rfl
        refine behaves_then (claimCleanup_behaves hseen) fun _ s' hclaimed => ?_
        refine behaves_then (removeAssets_behaves uuidText hclaimed.1 hclaimed.2)
          fun _ s' hemptied => ?_
        refine behaves_then (P := fun _ => Sound id registered) ?_ fun _ s' hsound => ?_
        · refine call_behaves stable_emptied stable_sound hemptied fun s' hemptied => ?_
          have hmoves : Moves id registered party s'
              { s' with calls := s'.calls ++ [.finishCleanup id] } :=
            moves_call trivial (by simp) (by simp) (by simp) fun _ _ => hemptied.all
          exact ⟨hmoves, fun _ => hmoves.sound hemptied.cleaning.sound⟩
        · refine behaves_then (P := fun _ => Sound id registered)
            (look_behaves stable_sound (fun _ => stable_sound) hsound fun _ h => h)
            fun cleaned s' hsound => ?_
          cases cleaned with
          | none => exact behaves_error
          | some details => exact behaves_ok stable_sound hsound

/-- A rollback that the server has made itself. -/
theorem markRemoteRollbackObserved_behaves (operationRunId : ι) (hsound : Sound id registered s) :
    Behaves (Others id registered party) (Moves id registered party) (Asked id)
      (Unless fun _ => Sound id registered) (markRemoteRollbackObserved operationRunId).run s := by
  unfold markRemoteRollbackObserved
  refine behaves_then (P := fun _ => Sound id registered)
    (look_behaves stable_sound (fun _ => stable_sound) hsound fun _ h => h)
    fun found s' hsound => ?_
  cases found with
  | none => exact behaves_error
  | some details =>
      refine call_behaves stable_sound stable_sound hsound fun s' hsound => ?_
      have hmoves : Moves id registered party s'
          { s' with calls := s'.calls ++ [.markRemoteRollbackObserved details.point.id] } :=
        moves_call trivial (by simp) (by simp) (by simp) (by simp)
      exact ⟨hmoves, fun _ => hmoves.sound hsound⟩

/-! ### Rollbacks. -/

theorem recorded_behaves {P Q : Shared ι π → Prop} (hP : Stable (Others id registered party) P)
    (hQ : Stable (Others id registered party) Q) (hs : P s) {c : Call ι}
    (h : ∀ s', P s' → Moves id registered party s' (s'.record id party (s'.calls ++ [c]))
      ∧ ((∃ table, c.apply (tableAfter s'.calls) = .ok table) →
        Q (s'.record id party (s'.calls ++ [c])))) :
    Behaves (Others id registered party) (Moves id registered party) (Asked id)
      (Unless fun _ => Q) (overShared id party (OperationRestoreService.call c).run) s := by
  show Behaves _ _ _ _ (atomic fun s =>
    (((c.apply (tableAfter s.calls)).map fun _ => () : AppResult Unit),
      Shared.record id party (s.calls ++ [c]) s)) s
  refine behaves_atomic hP (stable_unless fun _ => hQ) hs fun s' hs' => ?_
  obtain ⟨hmoves, hnext⟩ := h s' hs'
  refine ⟨hmoves, ?_⟩
  dsimp only
  cases happly : c.apply (tableAfter s'.calls) with
  | error e => exact trivial
  | ok table => exact hnext ⟨table, happly⟩

/-- The calls about one item. -/
def AboutItem : Call ι → Prop
  | .markItemRollingBack _ | .finishItemRollback _ _ _ => True
  | _ => False

theorem status_item {c : Call ι} (hitem : AboutItem c) (calls : List (Call ι)) :
    statusOf id (tableAfter (calls ++ [c])) = statusOf id (tableAfter calls) := by
  rcases statusStep_snoc calls c id with ⟨_, hsame⟩ | ⟨_, hstep⟩
  · exact hsame
  · generalize statusOf id (tableAfter calls) = before at hstep
    generalize statusOf id (tableAfter (calls ++ [c])) = after at hstep
    cases hstep with
    | same _ _ _ _ => rfl
    | created _ _ hcall | available hcall | creationFailed hcall | begun _ hcall _
    | finished _ hcall _ | observed hcall | interrupted hcall | cleanup _ _ hcall _
    | cleaned hcall =>
        subst hcall
        exact hitem.elim

/-- Who has begun the rollback goes on with the items. -/
theorem item_behaves {c : Call ι} (hitem : AboutItem c)
    (hrolling : RollingBack id registered party s) :
    Behaves (Others id registered party) (Moves id registered party) (Asked id)
      (Unless fun _ => RollingBack id registered party)
      (overShared id party (OperationRestoreService.call c).run) s := by
  refine recorded_behaves stable_rollingBack stable_rollingBack hrolling fun s' hrolling => ?_
  have hmoves : Moves id registered party s' (s'.record id party (s'.calls ++ [c])) := by
    cases c with
    | markItemRollingBack item =>
        exact moves_record trivial (by simp) (by simp) (by simp) (by simp) (by simp)
    | finishItemRollback item status errorSummary =>
        exact moves_record trivial (by simp) (by simp) (by simp) (by simp) (by simp)
    | _ => exact hitem.elim
  refine ⟨hmoves, fun _ => ⟨hmoves.sound hrolling.sound, ?_, ?_⟩⟩
  · exact (status_item hitem s'.calls).trans hrolling.status
  · show (if _ then some party else s'.holder) = some party
    rw [if_neg fun h => h.2 hrolling.status]
    exact hrolling.holder

theorem RollingBack.asked (h : RollingBack id registered party s) :
    s.status id = some .rollingBack ∧ ∀ place, s.assets place = .whole := ⟨h.status, h.whole⟩

theorem rollbackItems_behaves (taskId : Text) (privilegeMode : Core.Tasks.PrivilegeMode)
    (items : List (OperationRestoreItem ι)) (progress : OperationRestoreService.RollbackProgress)
    (hrolling : RollingBack id registered party s) :
    Behaves (Others id registered party) (Moves id registered party) (Asked id)
      (Unless fun _ => RollingBack id registered party)
      (overShared id party
        (OperationRestoreService.rollbackItems taskId privilegeMode items progress).run) s := by
  induction items generalizing progress s with
  | nil => exact behaves_ok stable_rollingBack hrolling
  | cons item rest ih =>
      unfold OperationRestoreService.rollbackItems
      split
      next => exact ih progress hrolling
      next =>
        refine embed_then (behaves_lift stable_rollingBack hrolling fun _ h => h.asked)
          fun cancelled s' hrolling => ?_
        by_cases hcancelled : cancelled = true
        · rw [if_pos hcancelled]
          exact behaves_ok stable_rollingBack hrolling
        · rw [if_neg hcancelled]
          refine embed_then (item_behaves trivial hrolling) fun _ s' hrolling => ?_
          -- the item is restored while the rollback is under way
          refine embed_then (behaves_lift stable_rollingBack hrolling fun _ h => h.asked)
            fun restored s' hrolling => ?_
          cases restored with
          | ok u =>
              exact embed_then (item_behaves trivial hrolling) fun _ s' hrolling => ih _ hrolling
          | error e =>
              refine embed_then (item_behaves trivial hrolling) fun _ s' hrolling => ?_
              by_cases huncertain : OperationRestoreService.isConnectionUncertain e = true
              · rw [if_pos huncertain]
                exact behaves_ok stable_rollingBack hrolling
              · rw [if_neg huncertain]
                exact ih _ hrolling

/-- Who has begun the rollback ends it. -/
theorem finishRollback_behaves (status : OperationRestorePointStatus)
    (hrolling : RollingBack id registered party s) :
    Behaves (Others id registered party) (Moves id registered party) (Asked id)
      (Unless fun _ => Sound id registered)
      (overShared id party (OperationRestoreService.call (.finishRollback id status)).run) s := by
  refine recorded_behaves stable_rollingBack stable_sound hrolling fun s' hrolling => ?_
  have hmoves : Moves id registered party s'
      (s'.record id party (s'.calls ++ [.finishRollback id status])) :=
    moves_record trivial (by simp) (by simp) (by simp) (by simp) fun _ _ => hrolling.holder
  exact ⟨hmoves, fun _ => hmoves.sound hrolling.sound⟩

theorem beginRollback_behaves (hsound : Sound id registered s) :
    Behaves (Others id registered party) (Moves id registered party) (Asked id)
      (Unless fun _ => RollingBack id registered party)
      (overShared id party (OperationRestoreService.call (.beginRollback id)).run) s := by
  refine recorded_behaves stable_sound stable_rollingBack hsound fun s' hsound => ?_
  have hmoves : Moves id registered party s'
      (s'.record id party (s'.calls ++ [.beginRollback id])) :=
    moves_record trivial (by simp) (by simp) (by simp) (by simp) (by simp)
  refine ⟨hmoves, ?_⟩
  rintro ⟨table, hok⟩
  rcases statusStep_snoc s'.calls (.beginRollback id) id with ⟨⟨e, herror⟩, _⟩ | ⟨_, hstep⟩
  · rw [hok] at herror
    exact absurd herror (by simp)
  · obtain ⟨hafter, status, hmem, hbefore⟩ := hstep.of_beginRollback
    refine ⟨hmoves.sound hsound, hafter, ?_⟩
    show (if _ then some party else s'.holder) = some party
    rw [if_pos]
    refine ⟨hafter, fun hrolling => ?_⟩
    rw [Option.some.inj (hbefore.symm.trans hrolling)] at hmem
    exact absurd hmem (by decide)

theorem record_calls (s : Shared ι π) : s.record id party s.calls = s := by
  have hholder : (if statusOf id (tableAfter s.calls) = some .rollingBack
      ∧ s.status id ≠ some .rollingBack then some party else s.holder) = s.holder :=
    if_neg fun h => h.2 h.1
  unfold Shared.record
  rw [hholder]

/-- **A rollback restores items after it has begun and before it ends.** -/
theorem rollback_behaves (hsound : Sound id registered s) :
    Behaves (Others id registered party) (Moves id registered party) (Asked id)
      (Unless fun _ => Sound id registered)
      (overShared id party (OperationRestoreService.rollback id).run) s := by
  have hlook : ∀ s : Shared ι π, Sound id registered s →
      Behaves (Others id registered party) (Moves id registered party) (Asked id)
        (Unless fun _ => Sound id registered)
        (overShared id party (OperationRestoreService.details id).run) s := by
    intro s hsound
    show Behaves _ _ _ _ (atomic fun s => ((.ok (get id (tableAfter s.calls)) : AppResult _),
      Shared.record id party s.calls s)) s
    refine behaves_atomic stable_sound (stable_unless fun _ => stable_sound) hsound
      fun s' hsound => ?_
    rw [record_calls]
    exact ⟨moves_read, hsound⟩
  unfold OperationRestoreService.rollback
  refine embed_then (hlook s hsound) fun found s' hsound => ?_
  cases found with
  | none => exact behaves_error
  | some found =>
      refine embed_then (beginRollback_behaves hsound) fun _ s' hrolling => ?_
      refine embed_then (behaves_lift stable_rollingBack hrolling fun _ h => h.asked)
        fun connected s' hrolling => ?_
      cases connected with
      | error e =>
          exact embed_then (finishRollback_behaves .failed hrolling) fun _ _ _ => behaves_error
      | ok u =>
          refine embed_then (behaves_lift stable_rollingBack hrolling fun _ h => h.asked)
            fun probed s' hrolling => ?_
          cases probed with
          | error e =>
              exact embed_then (finishRollback_behaves .failed hrolling) fun _ _ _ => behaves_error
          | ok privilegeMode =>
              refine embed_then (rollbackItems_behaves _ _ _ _ hrolling)
                fun progress s' hrolling => ?_
              refine embed_then (finishRollback_behaves _ hrolling) fun _ s' hsound => ?_
              cases progress.uncertainFailure with
              | some message => exact behaves_error
              | none =>
                  refine embed_then (hlook s' hsound) fun restored s' hsound => ?_
                  cases restored with
                  | none => exact behaves_error
                  | some restored => exact behaves_ok stable_sound hsound

theorem client_behaves (uuidText : ι → Text) (client : Client ι) (hsound : Sound id registered s) :
    (client.process uuidText id party).Behaves (Others id registered party)
      (Moves id registered party) (Asked id) (Unless fun _ => Sound id registered) s := by
  cases client with
  | cleanup =>
      exact behaves_then (cleanupAssets_behaves uuidText hsound) fun _ s' hsound =>
        behaves_ok stable_sound hsound
  | rollback =>
      exact embed_then (rollback_behaves hsound) fun _ s' hsound => behaves_ok stable_sound hsound
  | observe operationRunId => exact markRemoteRollbackObserved_behaves operationRunId hsound

end Guarantees

/-! ## §7. Every run. -/

section Runs

variable [DecidableEq ι] {id : ι} {registered : Option Text} {s : Shared ι π}

theorem status_recovered (s : Shared ι π) : s.recovered.status id
    = (s.status id).map fun status => if status = .rollingBack then .partially else status := by
  show statusOf id (tableAfter (s.calls ++ [.recoverInterrupted])) = _
  rw [tableAfter_snoc]
  exact statusOf_recoverInterrupted id (tableAfter s.calls)

/-- **The recovery at the start of the application keeps what is true of the point.** -/
theorem Sound.recovered (hsound : Sound id registered s) : Sound id registered s.recovered where
  touched place hplace := by
    rw [status_recovered]
    rcases hsound.touched place hplace with hstatus | hstatus
    · exact Or.inl (by rw [hstatus]; rfl)
    · exact Or.inr (by rw [hstatus]; rfl)
  remote hexpired := by
    have helse : Elsewhere id s { s with calls := s.calls ++ [.recoverInterrupted] } :=
      elsewhere_call (c := .recoverInterrupted) trivial id s
    refine (helse.remote hexpired).trans (hsound.remote fun hbefore => hexpired ?_)
    rw [status_recovered, hbefore]
    rfl

variable [DecidableEq π]

/-- **Whatever has happened: the point is as it should be, and so is everyone who goes on.** -/
theorem Reached.sound {uuidText : ι → Text}
    {parties : π → Process (Shared ι π) (@CleanupAnswer ι) (AppResult Unit)}
    (h : Reached uuidText id parties s) :
    ∃ registered, Sound id registered s ∧ ∀ party, (parties party).Behaves
      (Others id registered party) (Moves id registered party) (Asked id)
      (Unless fun _ => Sound id registered) s := by
  induction h with
  | started calls clients =>
      have hsound : Sound id (remoteIn id (tableAfter calls))
          (⟨calls, none, fun _ => .whole⟩ : Shared ι π) :=
        ⟨fun _ hplace => absurd rfl hplace, fun _ => rfl⟩
      exact ⟨_, hsound, fun party => client_behaves uuidText (clients party) hsound⟩
  | step _ hstep ih =>
      obtain ⟨registered, hsound, hparties⟩ := ih
      obtain ⟨hchange, hnext⟩ := Parallel.behave
        (fun i j s s' hne hmove => ⟨i, hne, hmove⟩) hstep hparties
      refine ⟨registered, ?_, hnext⟩
      rcases hchange with rfl | ⟨party, hmove⟩
      · exact hsound
      · exact hmove.sound hsound
  | restarted clients _ ih =>
      obtain ⟨registered, hsound, _⟩ := ih
      exact ⟨registered, hsound.recovered, fun party =>
        client_behaves uuidText (clients party) hsound.recovered⟩

variable {party : π} {s' : Shared ι π}

omit [DecidableEq π] in
theorem Moves.assets_kept (h : Moves id registered party s s') (hassets : s'.assets ≠ s.assets) :
    s.status id = some .cleanupPending ∧ s'.status id = some .cleanupPending := by
  cases h with
  | silent _ _ helse | begun _ _ _ _ _ helse | finished _ _ _ _ _ _ helse | observed _ _ helse
  | pended _ _ _ _ helse | cleaned _ _ _ helse => exact absurd helse.assets hassets
  | removed hbefore hcalls _ =>
      have hstatus : s'.status id = s.status id :=
        congrArg (fun c => statusOf id (tableAfter c)) hcalls
      exact ⟨hbefore, hstatus.trans hbefore⟩

omit [DecidableEq π] in
theorem Moves.rolled (h : Moves id registered party s s')
    (hrolling : s.status id = some .rollingBack) (hnot : s'.status id ≠ some .rollingBack) :
    ∃ status, s'.calls = s.calls ++ [.finishRollback id status] := by
  cases h with
  | silent hsame _ _ => exact absurd (hsame.trans hrolling) hnot
  | begun _ _ _ hafter _ _ => exact absurd hafter hnot
  | finished status _ _ _ _ hcalls _ => exact ⟨status, hcalls⟩
  | pended status hbefore hmem _ _ =>
      rw [Option.some.inj (hbefore.symm.trans hrolling)] at hmem
      exact absurd hmem (by decide)
  | observed hbefore _ _ | removed hbefore _ _ | cleaned hbefore _ _ _ =>
      exact absurd (hbefore.symm.trans hrolling) (by simp)

/-- **However cleanups, rollbacks, observed rollbacks and restarts of the application
interleave: a removal is asked for, and assets change, while the point is to be cleaned up;
as long as a rollback waits for anything, the point is rolling back and all its assets are
there, and that state is left by the end of the rollback or by a restart; a point that has
expired stays so.** -/
theorem cleanup_excludes_rollback {uuidText : ι → Text}
    {parties : π → Process (Shared ι π) (@CleanupAnswer ι) (AppResult Unit)}
    (hreached : Reached uuidText id parties s) :
    (∀ party serverId operationRunId next,
        parties party = .ask (.cleanupOperationAssets serverId operationRunId) next →
        s.status id = some .cleanupPending ∨ s.assets .remoteDir = .gone)
      ∧ (∀ party path next, parties party = .ask (.removeDirAll path) next →
        s.status id = some .cleanupPending ∨ s.assets .localDir = .gone)
      ∧ (∀ party question next, parties party = .ask (.rollback question) next →
        s.status id = some .rollingBack ∧ ∀ place, s.assets place = .whole)
      ∧ (∀ parties' s', Parallel (parties, s) (parties', s') →
        (s'.assets ≠ s.assets →
            s.status id = some .cleanupPending ∧ s'.status id = some .cleanupPending)
          ∧ (s.status id = some .rollingBack → s'.status id ≠ some .rollingBack →
            ∃ status, s'.calls = s.calls ++ [.finishRollback id status])
          ∧ (s.status id = some .expired → s'.status id = some .expired))
      ∧ (s.status id = some .expired → s.recovered.status id = some .expired) := by
  obtain ⟨registered, hsound, hparties⟩ := hreached.sound
  refine ⟨fun party serverId operationRunId next hask => ?_, fun party path next hask => ?_,
    fun party question next hask => ?_, fun parties' s' hstep => ?_, fun hexpired => ?_⟩
  · have hparty := hparties party
    rw [hask] at hparty
    exact hparty.asking
  · have hparty := hparties party
    rw [hask] at hparty
    exact hparty.asking
  · have hparty := hparties party
    rw [hask] at hparty
    exact hparty.asking
  · obtain ⟨hchange, _⟩ := Parallel.behave
      (fun i j s s' hne hmove => ⟨i, hne, hmove⟩) hstep hparties
    rcases hchange with rfl | ⟨party, hmove⟩
    · exact ⟨fun hassets => absurd rfl hassets, fun hrolling hnot => absurd hrolling hnot,
        fun hexpired => hexpired⟩
    · exact ⟨hmove.assets_kept, hmove.rolled, hmove.expired⟩
  · rw [status_recovered, hexpired]
    rfl

theorem Reached.run {uuidText : ι → Text}
    {c c' : (π → Process (Shared ι π) (@CleanupAnswer ι) (AppResult Unit)) × Shared ι π}
    (h : Reached uuidText id c.1 c.2) (hrun : Relation.ReflTransGen Parallel c c') :
    Reached uuidText id c'.1 c'.2 := by
  induction hrun with
  | refl => exact h
  | tail _ hstep ih => exact ih.step hstep

end Runs

/-! ## §8. A cleanup after a rollback. -/

/-- A point with assets on both sides. -/
def preparedCalls : List (Call Nat) :=
  [.create 2 (some ("web-1".toList, "system.hostname_change".toList))
      { OperationRestoreService.hostnamePoint with
        remoteAssetId := some "qingzhou-recovery/1".toList },
    OperationRestoreService.hostnameItem, .markAvailable 2]

def obligingAnswer : (question : CleanupQuestion Nat) → CleanupAnswer question
  | .now => (1000 : Int)
  | .cleanupOperationAssets _ _ => .ok ()
  | .resolveTaskRestorePath relative => .ok relative
  | .symlinkMetadata _ => .directory
  | .removeDirAll _ => .ok ()
  | .rollback question => OperationRestoreService.obligingHost 0 question

def sampleClient : Bool → Client Nat
  | true => .cleanup
  | false => .rollback

/-- The rollback runs to its end; then the cleanup comes to the directory on the server. -/
def afterRollback :
    (Bool → Process (Shared Nat Bool) (@CleanupAnswer Nat) (AppResult Unit)) × Shared Nat Bool :=
  takeTurns [(false, 20, obligingAnswer), (true, 4, obligingAnswer)]
    (fun party => (sampleClient party).process showNat 2 party,
      ⟨preparedCalls, none, fun _ => .whole⟩)

theorem afterRollback_reached : Reached showNat 2 afterRollback.1 afterRollback.2 :=
  Reached.run (.started preparedCalls sampleClient) (takeTurns_parallel _ _)

/-- What was rolled back is cleaned up. -/
theorem cleanup_excludes_rollback_afterwards :
    afterRollback.2.assets .remoteDir = .touched
      ∧ afterRollback.2.status 2 = some .cleanupPending := by
  have hassets : afterRollback.2.assets .remoteDir = .touched := by decide
  have hasked : ∃ next, afterRollback.1 true
      = .ask (.cleanupOperationAssets "web-1".toList 1) next := ⟨_, rfl⟩
  obtain ⟨next, hnext⟩ := hasked
  refine ⟨hassets, ?_⟩
  have hall := cleanup_excludes_rollback afterRollback_reached
  rcases hall.1 true _ _ next hnext with hstatus | hgone
  · exact hstatus
  · rw [hassets] at hgone
    exact absurd hgone (by decide)

end QingzhouSSH.Services.RestoreCleanup
