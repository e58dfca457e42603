/-
  QingzhouSSH.Repositories.WorkflowRestorePoints — the restore points of one workflow run.

  Every function is one statement of `WorkflowRepository`: it returns the new rows, or an
  error and nothing has changed.  The time of an update is left out, since nothing reads it.

  Main results:
    * `mem_updatePoint` — the rows after an update;
    * `updatePoint_hits` — an update that is accepted finds its row.
-/
import QingzhouSSH.Core.Workflows.Validation
import QingzhouSSH.Domain.WorkflowRun
import QingzhouSSH.Repositories.OperationRestoreRepository

namespace QingzhouSSH.Repositories.WorkflowRestorePoints

open String (utf8Len)
open QingzhouSSH.Core.Workflows (validateRemotePath)
open QingzhouSSH.Domain
open QingzhouSSH.Repositories.OperationRestoreRepository (PathComponent pathComponents ifGiven
  isAsciiHexDigit)

/-! ## §1. Rows. -/

/-- A row of `workflow_restore_points`, of one run. -/
structure WorkflowRestorePoint where
  id : Uuid
  nodeId : Uuid
  remotePath : Text
  relativePath : Option Text
  originalExisted : Bool
  sizeBytes : Option Nat
  sha256 : Option Text
  status : WorkflowRestorePointStatus
  applicability : Value
  errorMessage : Option Text
  createdAt : Int

structure NewWorkflowRestorePoint where
  nodeId : Uuid
  remotePath : Text
  relativePath : Option Text
  applicability : Value

structure FinishWorkflowRestorePoint where
  id : Uuid
  status : WorkflowRestorePointStatus
  originalExisted : Bool
  relativePath : Option Text
  sizeBytes : Option Nat
  sha256 : Option Text
  errorMessage : Option Text

/-- `validate_confined_relative_path`. -/
def validateConfinedRelativePath (relative : Text) : AppResult Unit :=
  let safe : PathComponent → Bool
    | .normal name => !name.contains ':'
    | _ => false
  if relative.isEmpty || relative.contains '\x00' || relative.contains '\\'
      || !(pathComponents relative).all safe then
    .error (.security "恢复资产路径不是安全的项目内相对路径".toList)
  else .ok ()

/-- `validate_restore_point_relative_path`. -/
def validateRestorePointRelativePath (relativePath : Text) : AppResult Unit := do
  validateConfinedRelativePath relativePath
  match pathComponents relativePath with
  | [.normal backups, .normal workflows, .normal run, .normal node, .normal fileName] =>
      if backups ≠ "backups".toList ∨ workflows ≠ "workflows".toList then
        .error (.security "恢复点只能位于 backups/workflows/<run>/<node>".toList)
      else if (Uuid.parseStr run).isNone then
        .error (.security "恢复点运行目录无效".toList)
      else if (Uuid.parseStr node).isNone then
        .error (.security "恢复点节点目录无效".toList)
      else if fileName.contains ':' || 160 < utf8Len fileName then
        .error (.security "恢复点文件名无效".toList)
      else .ok ()
  | _ => .error (.security "恢复点只能位于 backups/workflows/<run>/<node>".toList)

/-! ## §2. Statements. -/

abbrev Points := List WorkflowRestorePoint

/-- An update of the point with this identifier where `guard` holds, with `ensure_one`. -/
def updatePoint (id : Uuid) (guard : WorkflowRestorePoint → Bool)
    (f : WorkflowRestorePoint → WorkflowRestorePoint) (message : String) (points : Points) :
    AppResult Points :=
  let hit := fun point : WorkflowRestorePoint => point.id == id && guard point
  if points.countP hit = 1 then .ok (points.map fun point => if hit point then f point else point)
  else .error (.validation message.toList)

/-- `create_restore_point`, under the identifier that has been drawn. -/
def createRestorePoint (id : Uuid) (now : Int) (draft : NewWorkflowRestorePoint)
    (points : Points) : AppResult Points := do
  validateRemotePath draft.remotePath
  ifGiven draft.relativePath validateRestorePointRelativePath
  if 8 * 1024 < utf8Len draft.applicability.toJson then
    .error (.validation "恢复点适用条件超过 8 KiB".toList)
  else if points.any fun point => point.id == id then
    .error (.database "UNIQUE constraint failed: workflow_restore_points.id".toList)
  else
    .ok (points ++
      [{ id := id, nodeId := draft.nodeId, remotePath := draft.remotePath,
         relativePath := draft.relativePath, originalExisted := false, sizeBytes := none,
         sha256 := none, status := .creating, applicability := draft.applicability,
         errorMessage := none, createdAt := now }])

/-- The checks of `finish_restore_point`, and the values that it stores. -/
def checkFinish (finish : FinishWorkflowRestorePoint) : AppResult FinishWorkflowRestorePoint :=
  match finish.status with
  | .available =>
      if finish.originalExisted then
        let validHash := finish.sha256.any fun hash => hash.length == 64 && hash.all isAsciiHexDigit
        if finish.relativePath.isNone || finish.sizeBytes.isNone || !validHash then
          .error (.validation "已有远程文件的恢复点缺少备份路径、大小或 SHA-256".toList)
        else .ok { finish with errorMessage := none }
      else
        .ok { finish with relativePath := none, sizeBytes := none, sha256 := none,
                          errorMessage := none }
  | .failed =>
      .ok { finish with
            originalExisted := false, relativePath := none, sizeBytes := none, sha256 := none
            errorMessage :=
              if finish.errorMessage.all List.isEmpty then some "恢复点创建失败".toList
              else finish.errorMessage }
  | _ => .error (.validation "恢复点创建结果状态无效".toList)

/-- `finish_restore_point`. -/
def finishRestorePoint (finish : FinishWorkflowRestorePoint) (points : Points) :
    AppResult Points := do
  if finish.status ≠ .available ∧ finish.status ≠ .failed then
    throw (.validation "恢复点创建结果状态无效".toList)
  ifGiven finish.relativePath validateRestorePointRelativePath
  let finish ← checkFinish finish
  if finish.sizeBytes.any fun size => 2 ^ 63 ≤ size then
    throw (.validation "恢复点大小超出范围".toList)
  updatePoint finish.id (fun point => point.status == .creating)
    (fun point =>
      { point with status := finish.status, originalExisted := finish.originalExisted,
                   relativePath := finish.relativePath, sizeBytes := finish.sizeBytes,
                   sha256 := finish.sha256,
                   errorMessage := capUtf8 finish.errorMessage (8 * 1024) })
    "恢复点不处于可完成状态" points

/-- `mark_restore_point_rolling_back`. -/
def markRestorePointRollingBack (id : Uuid) : Points → AppResult Points :=
  updatePoint id (fun point => point.status == .available)
    (fun point => { point with status := .rollingBack, errorMessage := none })
    "恢复点不处于可回滚状态"

/-- `finish_restore_point_rollback`. -/
def finishRestorePointRollback (id : Uuid) (succeeded : Bool) (errorMessage : Option Text) :
    Points → AppResult Points :=
  updatePoint id (fun point => point.status == .rollingBack)
    (fun point =>
      { point with status := if succeeded then .rolledBack else .failed,
                   errorMessage := capUtf8 errorMessage (8 * 1024) })
    "恢复点不处于回滚执行状态"

/-- `expire_restore_point`, which says whether there was one. -/
def expireRestorePoint (id : Uuid) (points : Points) : Bool × Points :=
  let hit := fun point : WorkflowRestorePoint =>
    point.id == id && [.available, .failed, .rolledBack].contains point.status
  (points.countP hit == 1,
    points.map fun point => if hit point then { point with status := .expired } else point)

/-- `get_restore_point`. -/
def getRestorePoint (id : Uuid) (points : Points) : Option WorkflowRestorePoint :=
  points.find? fun point => point.id == id

/-! ## §3. Updates. -/

section Updates

variable {id : Uuid} {guard : WorkflowRestorePoint → Bool}
  {f : WorkflowRestorePoint → WorkflowRestorePoint} {message : String} {points points' : Points}

theorem updatePoint_eq (h : updatePoint id guard f message points = .ok points') :
    points' = points.map fun point => if point.id == id && guard point then f point else point := by
  unfold updatePoint at h
  dsimp only at h
  split at h
  next => exact (Except.ok.inj h).symm
  next => cases h

/-- A row after an update was a row before it. -/
theorem mem_updatePoint (h : updatePoint id guard f message points = .ok points')
    {point' : WorkflowRestorePoint} (hmem : point' ∈ points') :
    ∃ point ∈ points,
      (point.id = id ∧ guard point = true ∧ point' = f point)
        ∨ (¬(point.id = id ∧ guard point = true) ∧ point' = point) := by
  rw [updatePoint_eq h] at hmem
  obtain ⟨point, hpoint, rfl⟩ := List.mem_map.mp hmem
  refine ⟨point, hpoint, ?_⟩
  by_cases hhit : point.id = id ∧ guard point = true
  · exact Or.inl ⟨hhit.1, hhit.2, if_pos (by simp [hhit])⟩
  · refine Or.inr ⟨hhit, if_neg fun hand => hhit ?_⟩
    obtain ⟨hid, hguard⟩ := Bool.and_eq_true_iff.mp hand
    exact ⟨eq_of_beq hid, hguard⟩

/-- An update that is accepted finds its row. -/
theorem updatePoint_hits (h : updatePoint id guard f message points = .ok points') :
    ∃ point ∈ points, point.id = id ∧ guard point = true := by
  unfold updatePoint at h
  dsimp only at h
  split at h
  next hcount =>
    have hpos : 0 < points.countP fun point => point.id == id && guard point := by omega
    obtain ⟨point, hpoint, hhit⟩ := List.countP_pos_iff.mp hpos
    obtain ⟨hid, hguard⟩ := Bool.and_eq_true_iff.mp hhit
    exact ⟨point, hpoint, eq_of_beq hid, hguard⟩
  next => cases h

/-- The identifiers stay. -/
theorem updatePoint_ids (hf : ∀ point, (f point).id = point.id)
    (h : updatePoint id guard f message points = .ok points') :
    points'.map WorkflowRestorePoint.id = points.map WorkflowRestorePoint.id := by
  rw [updatePoint_eq h, List.map_map]
  refine List.map_congr_left fun point _ => ?_
  show (if _ then f point else point).id = point.id
  split
  · exact hf point
  · rfl

end Updates

/-- A new point is in creation, under a new identifier. -/
theorem createRestorePoint_eq {id : Uuid} {now : Int} {draft : NewWorkflowRestorePoint}
    {points points' : Points} (h : createRestorePoint id now draft points = .ok points') :
    ∃ point : WorkflowRestorePoint, point.id = id
      ∧ id ∉ points.map WorkflowRestorePoint.id ∧ points' = points ++ [point] := by
  unfold createRestorePoint at h
  obtain ⟨_, _, h⟩ := bind_eq_ok.mp h
  obtain ⟨_, _, h⟩ := bind_eq_ok.mp h
  split at h
  next => cases h
  next =>
    split at h
    next => cases h
    next hfresh =>
      refine ⟨_, rfl, fun hmem => ?_, (Except.ok.inj h).symm⟩
      obtain ⟨point, hpoint, hid⟩ := List.mem_map.mp hmem
      exact hfresh (List.any_eq_true.mpr ⟨point, hpoint, beq_iff_eq.mpr hid⟩)

theorem checkFinish_ok {finish finish' : FinishWorkflowRestorePoint}
    (h : checkFinish finish = .ok finish') :
    finish'.id = finish.id ∧ finish'.status ≠ .creating := by
  unfold checkFinish at h
  cases hstatus : finish.status with
  | available =>
      rw [hstatus] at h
      dsimp only at h
      split at h
      next =>
        split at h
        next => cases h
        next =>
          cases h
          exact ⟨rfl, nofun⟩
      next =>
        cases h
        exact ⟨rfl, nofun⟩
  | failed =>
      rw [hstatus] at h
      cases h
      exact ⟨rfl, nofun⟩
  | creating | rollingBack | rolledBack | expired =>
      rw [hstatus] at h
      cases h

/-- A finish that is accepted is the update of a point that was being created. -/
theorem finishRestorePoint_update {finish : FinishWorkflowRestorePoint} {points points' : Points}
    (h : finishRestorePoint finish points = .ok points') :
    ∃ f : WorkflowRestorePoint → WorkflowRestorePoint,
      (∀ point, (f point).id = point.id) ∧ (∀ point, (f point).status ≠ .creating)
        ∧ updatePoint finish.id (fun point => point.status == .creating) f "恢复点不处于可完成状态"
            points = .ok points' := by
  unfold finishRestorePoint at h
  split at h
  next => cases h
  next =>
    obtain ⟨_, _, h⟩ := bind_eq_ok.mp h
    obtain ⟨finish', hcheck, h⟩ := bind_eq_ok.mp h
    obtain ⟨hid, hcreated⟩ := checkFinish_ok hcheck
    split at h
    next => cases h
    next =>
      rw [hid] at h
      refine ⟨_, ?_, ?_, h⟩
      · exact fun _ => rfl
      · exact fun _ => hcreated

end QingzhouSSH.Repositories.WorkflowRestorePoints
