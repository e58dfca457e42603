/-
  QingzhouSSH.Repositories.OperationRestoreRepository — the rows of restore points.

  Every method of `OperationRestoreRepository` that writes is one call on the table:
  it returns the new rows, or an error and nothing has changed.  A method that does
  not find its row has updated no row and fails with the same text.

  Main results:
    * `statusStep_of_apply` — what an accepted call does to the status of a point;
    * `marked_once` — a point is made available or its creation fails, not both.
-/
import QingzhouSSH.Domain.OperationRestore
import QingzhouSSH.Core.Tasks.Parameters

namespace QingzhouSSH.Repositories.OperationRestoreRepository

open String (utf8Len)
open QingzhouSSH.Domain
open QingzhouSSH.Core.Tasks (toAsciiLower isAsciiDigit)

/-! ## §1. Checks of new rows. -/

/-- What `Path::components` finds, for a text without backslashes. -/
inductive PathComponent where
  | rootDir
  | curDir
  | parentDir
  | normal (name : Text)
  deriving Repr, DecidableEq

/-- The components after the first; a `.` among them is left out. -/
def laterComponents (segments : List Text) : List PathComponent :=
  segments.filterMap fun segment =>
    if segment = [] ∨ segment = ['.'] then none
    else if segment = ['.', '.'] then some .parentDir
    else some (.normal segment)

def pathComponents (value : Text) : List PathComponent :=
  match value.splitOn '/' with
  | [] => []
  | first :: rest =>
      if first = [] then (if rest = [] then [] else .rootDir :: laterComponents rest)
      else if first = ['.'] then .curDir :: laterComponents rest
      else laterComponents (first :: rest)

/-- `validate_relative_path`. -/
def validateRelativePath (value : Text) : AppResult Unit :=
  let safe : PathComponent → Bool
    | .normal name => !name.contains ':'
    | _ => false
  if value.isEmpty || 4096 < utf8Len value || value.contains '\x00' || value.contains '\\'
      || !(pathComponents value).all safe then
    .error (.security "恢复资产路径必须是项目数据目录内的安全相对路径".toList)
  else .ok ()

/-- A check of a value that may be missing. -/
def ifGiven {α : Type} (value : Option α) (check : α → AppResult Unit) : AppResult Unit :=
  match value with
  | none => .ok ()
  | some a => check a

/-- `require_descendant`. -/
def requireDescendant (parent child : Text) : AppResult Unit :=
  if pathComponents parent <+: pathComponents child ∧ pathComponents child ≠ pathComponents parent
  then .ok ()
  else .error (.security "恢复项路径不在恢复点目录内".toList)

variable {ι : Type}

/-- `validate_point`. -/
def validatePoint (draft : NewOperationRestorePoint ι) : AppResult Unit :=
  if isBlankText draft.serverId || isBlankText draft.taskId || draft.serverId.contains '\x00'
      || draft.taskId.contains '\x00'
      || draft.remoteAssetId.any fun value =>
        value.contains '\x00' || 512 < utf8Len value || isBlankText value then
    .error (.validation "运维恢复点定义无效".toList)
  else validateRelativePath draft.localRelativeDir

def isAsciiHexDigit (c : Char) : Bool :=
  isAsciiDigit c || ('a' ≤ c && c ≤ 'f') || ('A' ≤ c && c ≤ 'F')

/-- `validate_item`. -/
def validateItem (draft : NewOperationRestoreItem ι) : AppResult Unit :=
  if 1000 ≤ draft.ordinal || isBlankText draft.remoteTarget || draft.remoteTarget.contains '\x00'
      || 4096 < utf8Len draft.remoteTarget
      || draft.errorSummary.any fun value => value.contains '\x00' then
    .error (.validation "运维恢复项定义无效".toList)
  else do
    ifGiven draft.localRelativePath fun relative => do
      validateRelativePath relative
      if ".partial".toList.isSuffixOf relative then
        .error (.security "临时恢复资产不能登记为可用备份".toList)
      else .ok ()
    if draft.sha256.any fun hash => hash.length != 64 || !hash.all isAsciiHexDigit then
      .error (.validation "恢复项 SHA-256 无效".toList)
    else .ok ()

/-! ## §2. Calls. -/

/-- The two restore tables. -/
abbrev Table (ι : Type) := List (OperationRestoreDetails ι)

variable [DecidableEq ι]

/-- `get`. -/
def get (id : ι) (table : Table ι) : Option (OperationRestoreDetails ι) :=
  table.find? fun details => details.point.id == id

def statusOf (id : ι) (table : Table ι) : Option OperationRestorePointStatus :=
  (get id table).map fun details => details.point.status

/-- Update the point with this identifier where `allowed` holds of its rows. -/
def updatePoint (id : ι) (allowed : OperationRestoreDetails ι → Bool)
    (change : OperationRestoreDetails ι → OperationRestoreDetails ι) (refusal : AppError)
    (table : Table ι) : AppResult (Table ι) :=
  match get id table with
  | none => .error refusal
  | some details =>
      if allowed details then
        .ok (table.map fun d => if d.point.id = id then change d else d)
      else .error refusal

/-- Update the item with this identifier where its status is one of `allowed`. -/
def updateItem (id : ι) (allowed : List OperationRestoreItemStatus)
    (change : OperationRestoreItem ι → OperationRestoreItem ι) (refusal : AppError)
    (table : Table ι) : AppResult (Table ι) :=
  let hit := fun item : OperationRestoreItem ι => item.id == id && allowed.contains item.status
  if table.any fun details => details.items.any hit then
    .ok (table.map fun details =>
      { details with items := details.items.map fun item => if hit item then change item else item })
  else .error refusal

def setStatus (status : OperationRestorePointStatus) (details : OperationRestoreDetails ι) :
    OperationRestoreDetails ι :=
  { details with point := { details.point with status := status } }

def hasStatus (statuses : List OperationRestorePointStatus)
    (details : OperationRestoreDetails ι) : Bool := statuses.contains details.point.status

/-- `create`; `run` is the row of the operation run, `id` the new identifier. -/
def create (id : ι) (run : Option (Text × Text)) (draft : NewOperationRestorePoint ι)
    (table : Table ι) : AppResult (Table ι) := do
  validatePoint draft
  match run with
  | none => .error (.validation "运维运行不存在".toList)
  | some (serverId, taskId) =>
      if serverId ≠ draft.serverId ∨ taskId ≠ draft.taskId then
        .error (.validation "恢复点与运维运行的服务器或任务不一致".toList)
      else if table.any fun details =>
          details.point.id == id || details.point.operationRunId == draft.operationRunId then
        .error (.database "UNIQUE constraint failed".toList)
      -- the column is shorter than the check; the rest of its conditions are met
      else if 2048 < utf8Len draft.localRelativeDir then
        .error (.database "CHECK constraint failed".toList)
      else
        .ok (table ++ [{
          point := { id := id, operationRunId := draft.operationRunId, serverId := draft.serverId,
                     taskId := draft.taskId, status := .creating,
                     localRelativeDir := draft.localRelativeDir,
                     remoteAssetId := draft.remoteAssetId, expiresAt := draft.expiresAt },
          items := [] }])

/-- `add_item`. -/
def addItem (id : ι) (draft : NewOperationRestoreItem ι) (table : Table ι) :
    AppResult (Table ι) := do
  validateItem draft
  match get draft.restorePointId table with
  | none => .error (.validation "运维恢复点不存在".toList)
  | some details =>
      if details.point.status ≠ .creating then
        .error (.validation "只能向创建中的恢复点添加恢复项".toList)
      else do
        ifGiven draft.localRelativePath (requireDescendant details.point.localRelativeDir)
        if 16 * 1024 < utf8Len draft.originalMetadata.toJson then
          .error (.validation "恢复项原始元数据超过 16 KiB".toList)
        else if (table.any fun details => details.items.any fun item => item.id == id)
            || details.items.any fun item => item.ordinal == draft.ordinal then
          .error (.database "UNIQUE constraint failed".toList)
        else
          let item : OperationRestoreItem ι :=
            { id := id, ordinal := draft.ordinal, itemKind := draft.itemKind,
              remoteTarget := draft.remoteTarget, localRelativePath := draft.localRelativePath,
              sha256 := draft.sha256.map fun hash => hash.map toAsciiLower,
              originalMetadata := draft.originalMetadata, status := draft.status,
              errorSummary := capUtf8 draft.errorSummary (8 * 1024) }
          .ok (table.map fun d =>
            if d.point.id = draft.restorePointId then { d with items := d.items ++ [item] } else d)

/-- `mark_available`. -/
def markAvailable (id : ι) : Table ι → AppResult (Table ι) :=
  updatePoint id
    (fun d => hasStatus [.creating] d && !d.items.isEmpty
      && d.items.all fun item => item.status == .available)
    (setStatus .available) (.validation "恢复点尚未完成全部恢复项，不能标记为可用".toList)

/-- `attach_remote_asset`. -/
def attachRemoteAsset (id : ι) (remoteAssetId : Text) (expiresAt : Int) (table : Table ι) :
    AppResult (Table ι) :=
  if remoteAssetId.isEmpty || 256 < utf8Len remoteAssetId || ['/'].isPrefixOf remoteAssetId
      || remoteAssetId.contains '\\' || remoteAssetId.contains '\x00'
      || ((remoteAssetId.splitOn '/').any fun segment =>
        segment.isEmpty || segment == ['.'] || segment == ['.', '.'])
      || expiresAt ≤ 0 then
    .error (.validation "远程恢复资产元数据无效".toList)
  else
    updatePoint id (fun d => hasStatus [.available] d && d.point.remoteAssetId.isNone)
      (fun d => { d with point :=
        { d.point with remoteAssetId := some remoteAssetId, expiresAt := some expiresAt } })
      (.validation "恢复点无法登记远程恢复资产".toList) table

/-- `begin_cleanup`. -/
def beginCleanup (id : ι) (now : Int) : Table ι → AppResult (Table ι) :=
  updatePoint id
    (fun d => hasStatus [.rolledBack] d
      || (d.point.expiresAt.any fun expiresAt => expiresAt ≤ now)
        && hasStatus [.available, .partially, .failed] d)
    (setStatus .cleanupPending) (.validation "只能清理已经使用或已经过期的恢复资产".toList)

/-- `finish_cleanup`. -/
def finishCleanup (id : ι) : Table ι → AppResult (Table ι) :=
  updatePoint id (hasStatus [.cleanupPending])
    (fun d => { d with point := { d.point with status := .expired, remoteAssetId := none } })
    (.validation "恢复资产没有处于待清理状态".toList)

/-- `mark_remote_rollback_observed`: the point and its items in one transaction. -/
def markRemoteRollbackObserved (id : ι) : Table ι → AppResult (Table ι) :=
  updatePoint id (hasStatus [.available])
    (fun d => { setStatus .rolledBack d with items := d.items.map fun item =>
      if item.status = .available then { item with status := .rolledBack, errorSummary := none }
      else item })
    (.validation "只有可用恢复点可以记录远程自动回滚".toList)

/-- `mark_creation_failed`. -/
def markCreationFailed (id : ι) : Table ι → AppResult (Table ι) :=
  updatePoint id (hasStatus [.creating]) (setStatus .failed)
    (.validation "恢复点不处于创建状态".toList)

/-- `mark_item_rolling_back`. -/
def markItemRollingBack (id : ι) : Table ι → AppResult (Table ι) :=
  updateItem id [.available, .failed]
    (fun item => { item with status := .rollingBack, errorSummary := none })
    (.validation "恢复项当前状态不允许回滚".toList)

/-- `finish_item_rollback`. -/
def finishItemRollback (id : ι) (status : OperationRestoreItemStatus)
    (errorSummary : Option Text) (table : Table ι) : AppResult (Table ι) :=
  if [.rolledBack, .failed, .skipped].contains status then
    updateItem id [.rollingBack]
      (fun item => { item with status := status, errorSummary := capUtf8 errorSummary (8 * 1024) })
      (.validation "恢复项不处于回滚执行状态".toList) table
  else .error (.validation "恢复项回滚结果状态无效".toList)

/-- What `recover_interrupted` does to a point and its items. -/
def recoverDetails (details : OperationRestoreDetails ι) : OperationRestoreDetails ι :=
  let point :=
    if details.point.status = .rollingBack then { details.point with status := .partially }
    else details.point
  { point := point
    items := details.items.map fun item =>
      if item.status = .rollingBack then
        { item with status := .failed, errorSummary := some "应用退出时恢复项状态未确认".toList }
      else item }

/-- `recover_interrupted`. -/
def recoverInterrupted (table : Table ι) : Table ι := table.map recoverDetails

/-- `begin_rollback`. -/
def beginRollback (id : ι) (table : Table ι) : AppResult (Table ι) :=
  let refusal := match statusOf id table with
    | some .rolledBack => AppError.restorePointAlreadyConsumed
    | some _ => .validation "恢复点当前状态不允许回滚".toList
    | none => .validation "运维恢复点不存在".toList
  updatePoint id (hasStatus [.available, .partially, .failed]) (setStatus .rollingBack) refusal table

/-- `finish_rollback`. -/
def finishRollback (id : ι) (status : OperationRestorePointStatus) (table : Table ι) :
    AppResult (Table ι) :=
  if [.rolledBack, .partially, .failed].contains status then
    updatePoint id (hasStatus [.rollingBack]) (setStatus status)
      (.validation "恢复点不处于回滚执行状态".toList) table
  else .error (.validation "恢复点回滚结果状态无效".toList)

/-- A call of the repository that writes. -/
inductive Call (ι : Type) where
  | create (id : ι) (run : Option (Text × Text)) (draft : NewOperationRestorePoint ι)
  | addItem (id : ι) (draft : NewOperationRestoreItem ι)
  | markAvailable (id : ι)
  | attachRemoteAsset (id : ι) (remoteAssetId : Text) (expiresAt : Int)
  | beginCleanup (id : ι) (now : Int)
  | finishCleanup (id : ι)
  | markRemoteRollbackObserved (id : ι)
  | markCreationFailed (id : ι)
  | markItemRollingBack (id : ι)
  | finishItemRollback (id : ι) (status : OperationRestoreItemStatus) (errorSummary : Option Text)
  | recoverInterrupted
  | beginRollback (id : ι)
  | finishRollback (id : ι) (status : OperationRestorePointStatus)

def Call.apply : Call ι → Table ι → AppResult (Table ι)
  | .create id run draft, table => OperationRestoreRepository.create id run draft table
  | .addItem id draft, table => OperationRestoreRepository.addItem id draft table
  | .markAvailable id, table => OperationRestoreRepository.markAvailable id table
  | .attachRemoteAsset id asset expiresAt, table =>
      OperationRestoreRepository.attachRemoteAsset id asset expiresAt table
  | .beginCleanup id now, table => OperationRestoreRepository.beginCleanup id now table
  | .finishCleanup id, table => OperationRestoreRepository.finishCleanup id table
  | .markRemoteRollbackObserved id, table =>
      OperationRestoreRepository.markRemoteRollbackObserved id table
  | .markCreationFailed id, table => OperationRestoreRepository.markCreationFailed id table
  | .markItemRollingBack id, table => OperationRestoreRepository.markItemRollingBack id table
  | .finishItemRollback id status errorSummary, table =>
      OperationRestoreRepository.finishItemRollback id status errorSummary table
  | .recoverInterrupted, table => .ok (OperationRestoreRepository.recoverInterrupted table)
  | .beginRollback id, table => OperationRestoreRepository.beginRollback id table
  | .finishRollback id status, table =>
      OperationRestoreRepository.finishRollback id status table

/-! ## §3. What an accepted call does. -/

theorem get_id {id : ι} {table : Table ι} {details : OperationRestoreDetails ι}
    (h : get id table = some details) : details.point.id = id := by
  have := List.find?_some h
  exact beq_iff_eq.mp this

theorem get_map {f : OperationRestoreDetails ι → OperationRestoreDetails ι}
    (hid : ∀ d, (f d).point.id = d.point.id) (id : ι) (table : Table ι) :
    get id (table.map f) = (get id table).map f := by
  unfold get
  rw [List.find?_map]
  congr 2
  funext d
  show ((f d).point.id == id) = (d.point.id == id)
  rw [hid d]

theorem statusOf_map {f : OperationRestoreDetails ι → OperationRestoreDetails ι}
    (hid : ∀ d, (f d).point.id = d.point.id)
    (hstatus : ∀ d, (f d).point.status = d.point.status) (id : ι) (table : Table ι) :
    statusOf id (table.map f) = statusOf id table := by
  unfold statusOf
  rw [get_map hid, Option.map_map]
  congr 1
  funext d
  exact hstatus d

theorem updatePoint_ok {id : ι} {allowed : OperationRestoreDetails ι → Bool}
    {change : OperationRestoreDetails ι → OperationRestoreDetails ι} {refusal : AppError}
    {table table' : Table ι} (h : updatePoint id allowed change refusal table = .ok table') :
    ∃ details, get id table = some details ∧ allowed details = true
      ∧ table' = table.map fun d => if d.point.id = id then change d else d := by
  unfold updatePoint at h
  cases hget : get id table with
  | none =>
      rw [hget] at h
      cases h
  | some details =>
      rw [hget] at h
      dsimp only at h
      split at h
      next hallowed => exact ⟨details, rfl, hallowed, (Except.ok.inj h).symm⟩
      next => cases h

/-- The status of every point after an accepted update of one. -/
theorem statusOf_updatePoint {id : ι} {allowed : OperationRestoreDetails ι → Bool}
    {change : OperationRestoreDetails ι → OperationRestoreDetails ι} {refusal : AppError}
    {table table' : Table ι} (hid : ∀ d, (change d).point.id = d.point.id)
    (h : updatePoint id allowed change refusal table = .ok table') :
    ∃ details, get id table = some details ∧ allowed details = true
      ∧ statusOf id table' = some (change details).point.status
      ∧ ∀ other, other ≠ id → statusOf other table' = statusOf other table := by
  obtain ⟨details, hget, hallowed, rfl⟩ := updatePoint_ok h
  have hkeep : ∀ d : OperationRestoreDetails ι,
      (if d.point.id = id then change d else d).point.id = d.point.id := by
    intro d
    split
    next => exact hid d
    next => rfl
  refine ⟨details, hget, hallowed, ?_, ?_⟩
  · unfold statusOf
    rw [get_map hkeep, hget, Option.map_some, Option.map_some, if_pos (get_id hget)]
  · intro other hother
    unfold statusOf
    rw [get_map hkeep]
    cases hget' : get other table with
    | none => rfl
    | some d =>
        have hne : d.point.id ≠ id := fun heq => hother (by rw [← get_id hget', heq])
        rw [Option.map_some, if_neg hne]

theorem statusOf_updateItem {id : ι} {allowed : List OperationRestoreItemStatus}
    {change : OperationRestoreItem ι → OperationRestoreItem ι} {refusal : AppError}
    {table table' : Table ι} (h : updateItem id allowed change refusal table = .ok table')
    (point : ι) : statusOf point table' = statusOf point table := by
  unfold updateItem at h
  dsimp only at h
  split at h
  next =>
    obtain rfl := Except.ok.inj h
    refine statusOf_map ?_ ?_ point table
    · intro d
      rfl
    · intro d
      rfl
  next => cases h

omit [DecidableEq ι] in
theorem hasStatus_status {statuses : List OperationRestorePointStatus}
    {details : OperationRestoreDetails ι} (h : hasStatus statuses details = true) :
    details.point.status ∈ statuses := List.contains_iff_mem.mp h

/-- What an accepted call can do to the status of one point. -/
inductive StatusStep (call : Call ι) (id : ι) :
    Option OperationRestorePointStatus → Option OperationRestorePointStatus → Prop where
  | same (status) : call ≠ .markAvailable id → call ≠ .markCreationFailed id →
      call ≠ .beginRollback id → StatusStep call id status status
  | created (run draft) : call = .create id run draft →
      StatusStep call id none (some .creating)
  | available : call = .markAvailable id → StatusStep call id (some .creating) (some .available)
  | creationFailed : call = .markCreationFailed id →
      StatusStep call id (some .creating) (some .failed)
  | begun (status) : call = .beginRollback id → status ∈ [.available, .partially, .failed] →
      StatusStep call id (some status) (some .rollingBack)
  | finished (status) : call = .finishRollback id status →
      status ∈ [.rolledBack, .partially, .failed] →
      StatusStep call id (some .rollingBack) (some status)
  | observed : call = .markRemoteRollbackObserved id →
      StatusStep call id (some .available) (some .rolledBack)
  | interrupted : call = .recoverInterrupted →
      StatusStep call id (some .rollingBack) (some .partially)
  | cleanup (now status) : call = .beginCleanup id now →
      status ∈ [.rolledBack, .available, .partially, .failed] →
      StatusStep call id (some status) (some .cleanupPending)
  | cleaned : call = .finishCleanup id →
      StatusStep call id (some .cleanupPending) (some .expired)

section

variable {id : ι} {before after : Option OperationRestorePointStatus}

omit [DecidableEq ι]

theorem StatusStep.of_markAvailable (h : StatusStep (.markAvailable id) id before after) :
    before = some .creating ∧ after = some .available := by
  cases h with
  | same _ hne => exact absurd rfl hne
  | available => exact ⟨rfl, rfl⟩
  | _ => contradiction

theorem StatusStep.of_markCreationFailed
    (h : StatusStep (.markCreationFailed id) id before after) :
    before = some .creating ∧ after = some .failed := by
  cases h with
  | same _ _ hne => exact absurd rfl hne
  | creationFailed => exact ⟨rfl, rfl⟩
  | _ => contradiction

theorem StatusStep.of_beginRollback (h : StatusStep (.beginRollback id) id before after) :
    after = some .rollingBack
      ∧ ∃ status ∈ [.available, .partially, .failed], before = some status := by
  cases h with
  | same _ _ _ hne => exact absurd rfl hne
  | begun status _ hstatus => exact ⟨rfl, status, hstatus, rfl⟩
  | _ => contradiction

/-- Nothing leads back to a point that is new. -/
theorem StatusStep.fresh_before {call : Call ι} (h : StatusStep call id before after)
    (hafter : after = none ∨ after = some .creating) :
    before = none ∨ before = some .creating := by
  cases h with
  | same _ _ _ _ => exact hafter
  | created _ _ _ => exact Or.inl rfl
  | finished status _ hstatus =>
      rcases hafter with hafter | hafter
      · cases hafter
      · rw [Option.some.inj hafter] at hstatus
        exact absurd hstatus (by decide)
  | _ => exact absurd hafter (by simp)

end

theorem statusOf_of_get {id : ι} {table : Table ι} {details : OperationRestoreDetails ι}
    (h : get id table = some details) : statusOf id table = some details.point.status := by
  unfold statusOf
  rw [h, Option.map_some]

theorem create_ok {id : ι} {run : Option (Text × Text)} {draft : NewOperationRestorePoint ι}
    {table table' : Table ι} (h : create id run draft table = .ok table') :
    get id table = none ∧ ∃ details, details.point.id = id ∧ details.point.status = .creating
      ∧ details.items = [] ∧ table' = table ++ [details] := by
  obtain ⟨_, _, h⟩ := bind_eq_ok.mp h
  cases run with
  | none => cases h
  | some row =>
      dsimp only at h
      split at h
      next => cases h
      next =>
        split at h
        next => cases h
        next hfresh =>
          split at h
          next => cases h
          next =>
            refine ⟨?_, _, rfl, rfl, rfl, (Except.ok.inj h).symm⟩
            unfold get
            rw [List.find?_eq_none]
            intro d hd hid
            refine hfresh (List.any_eq_true.mpr ⟨d, hd, ?_⟩)
            rw [Bool.or_eq_true]
            exact Or.inl hid

theorem statusOf_create {id : ι} {run : Option (Text × Text)}
    {draft : NewOperationRestorePoint ι} {table table' : Table ι}
    (h : create id run draft table = .ok table') :
    statusOf id table = none ∧ statusOf id table' = some .creating
      ∧ ∀ other, other ≠ id → statusOf other table' = statusOf other table := by
  obtain ⟨hnone, details, hid, hstatus, _, rfl⟩ := create_ok h
  refine ⟨by unfold statusOf; rw [hnone]; rfl, ?_, ?_⟩
  · unfold get at hnone
    unfold statusOf get
    rw [List.find?_append, hnone, List.find?_singleton, hid, beq_self_eq_true]
    exact congrArg some hstatus
  · intro other hother
    have hne : (details.point.id == other) = false :=
      beq_eq_false_iff_ne.mpr fun heq => hother (by rw [← heq, hid])
    unfold statusOf get
    rw [List.find?_append, List.find?_singleton, hne]
    simp

theorem statusOf_addItem {id : ι} {draft : NewOperationRestoreItem ι} {table table' : Table ι}
    (h : addItem id draft table = .ok table') (point : ι) :
    statusOf point table' = statusOf point table := by
  obtain ⟨_, _, h⟩ := bind_eq_ok.mp h
  cases hget : get draft.restorePointId table with
  | none =>
      rw [hget] at h
      cases h
  | some details =>
      rw [hget] at h
      dsimp only at h
      split at h
      next => cases h
      next =>
        obtain ⟨_, _, h⟩ := bind_eq_ok.mp h
        split at h
        next => cases h
        next =>
          split at h
          next => cases h
          next =>
            rw [← Except.ok.inj h]
            refine statusOf_map ?_ ?_ point table
            · intro d
              split <;> rfl
            · intro d
              split <;> rfl

theorem statusOf_recoverInterrupted (id : ι) (table : Table ι) :
    statusOf id (recoverInterrupted table) = (statusOf id table).map fun status =>
      if status = .rollingBack then .partially else status := by
  have hid : ∀ d : OperationRestoreDetails ι, (recoverDetails d).point.id = d.point.id := by
    intro d
    unfold recoverDetails
    dsimp only
    split <;> rfl
  unfold recoverInterrupted statusOf
  rw [get_map hid, Option.map_map, Option.map_map]
  congr 1
  funext d
  show (recoverDetails d).point.status = _
  unfold recoverDetails
  dsimp only [Function.comp]
  split <;> rfl

/-- An accepted update of one point, seen from any point. -/
theorem statusStep_updatePoint {call : Call ι} {id target : ι}
    {allowed : OperationRestoreDetails ι → Bool}
    {change : OperationRestoreDetails ι → OperationRestoreDetails ι} {refusal : AppError}
    {table table' : Table ι} (h : updatePoint target allowed change refusal table = .ok table')
    (hid : ∀ d, (change d).point.id = d.point.id)
    (hother : id ≠ target →
      call ≠ .markAvailable id ∧ call ≠ .markCreationFailed id ∧ call ≠ .beginRollback id)
    (htarget : id = target → ∀ details, allowed details = true →
      StatusStep call id (some details.point.status) (some (change details).point.status)) :
    StatusStep call id (statusOf id table) (statusOf id table') := by
  obtain ⟨details, hget, hallowed, hnew, hsame⟩ := statusOf_updatePoint hid h
  by_cases heq : id = target
  · have hstep := htarget heq details hallowed
    rw [heq, statusOf_of_get hget, hnew, ← heq]
    exact hstep
  · rw [hsame id heq]
    obtain ⟨h1, h2, h3⟩ := hother heq
    exact .same _ h1 h2 h3

/-- **What an accepted call does to the status of a point.** -/
theorem statusStep_of_apply {call : Call ι} {table table' : Table ι}
    (h : call.apply table = .ok table') (id : ι) :
    StatusStep call id (statusOf id table) (statusOf id table') := by
  cases call with
  | create target run draft =>
      obtain ⟨hnone, hnew, hsame⟩ := statusOf_create h
      by_cases heq : id = target
      · rw [heq, hnone, hnew]
        exact .created run draft rfl
      · rw [hsame id heq]
        exact .same _ (by simp) (by simp) (by simp)
  | addItem item draft =>
      rw [statusOf_addItem h id]
      exact .same _ (by simp) (by simp) (by simp)
  | markAvailable target =>
      refine statusStep_updatePoint h (fun _ => rfl) ?_ ?_
      · intro hne
        exact ⟨by simpa using hne.symm, by simp, by simp⟩
      · intro heq details hallowed
        simp only [Bool.and_eq_true] at hallowed
        rw [List.mem_singleton.mp (hasStatus_status hallowed.1.1)]
        exact .available (by rw [heq])
  | attachRemoteAsset target asset expiresAt =>
      have h : attachRemoteAsset target asset expiresAt table = .ok table' := h
      unfold attachRemoteAsset at h
      split at h
      next => cases h
      next =>
        refine statusStep_updatePoint h (fun _ => rfl) ?_ ?_
        · intro _
          exact ⟨by simp, by simp, by simp⟩
        · intro _ details _
          exact .same _ (by simp) (by simp) (by simp)
  | beginCleanup target now =>
      refine statusStep_updatePoint h (fun _ => rfl) ?_ ?_
      · intro _
        exact ⟨by simp, by simp, by simp⟩
      · intro heq details hallowed
        refine .cleanup now _ (by rw [heq]) ?_
        simp only [Bool.or_eq_true, Bool.and_eq_true] at hallowed
        rcases hallowed with hused | ⟨_, hexpired⟩
        · rw [List.mem_singleton.mp (hasStatus_status hused)]
          simp
        · exact List.mem_cons_of_mem _ (hasStatus_status hexpired)
  | finishCleanup target =>
      refine statusStep_updatePoint h (fun _ => rfl) ?_ ?_
      · intro _
        exact ⟨by simp, by simp, by simp⟩
      · intro heq details hallowed
        rw [List.mem_singleton.mp (hasStatus_status hallowed)]
        exact .cleaned (by rw [heq])
  | markRemoteRollbackObserved target =>
      refine statusStep_updatePoint h (fun _ => rfl) ?_ ?_
      · intro _
        exact ⟨by simp, by simp, by simp⟩
      · intro heq details hallowed
        rw [List.mem_singleton.mp (hasStatus_status hallowed)]
        exact .observed (by rw [heq])
  | markCreationFailed target =>
      refine statusStep_updatePoint h (fun _ => rfl) ?_ ?_
      · intro hne
        exact ⟨by simp, by simpa using hne.symm, by simp⟩
      · intro heq details hallowed
        rw [List.mem_singleton.mp (hasStatus_status hallowed)]
        exact .creationFailed (by rw [heq])
  | markItemRollingBack item =>
      rw [statusOf_updateItem h id]
      exact .same _ (by simp) (by simp) (by simp)
  | finishItemRollback item status errorSummary =>
      have h : finishItemRollback item status errorSummary table = .ok table' := h
      unfold finishItemRollback at h
      split at h
      next =>
        rw [statusOf_updateItem h id]
        exact .same _ (by simp) (by simp) (by simp)
      next => cases h
  | recoverInterrupted =>
      obtain rfl := Except.ok.inj h
      rw [statusOf_recoverInterrupted]
      cases hstatus : statusOf id table with
      | none => exact .same _ (by simp) (by simp) (by simp)
      | some status =>
          rw [Option.map_some]
          by_cases hrolling : status = .rollingBack
          · rw [if_pos hrolling, hrolling]
            exact .interrupted rfl
          · rw [if_neg hrolling]
            exact .same _ (by simp) (by simp) (by simp)
  | beginRollback target =>
      refine statusStep_updatePoint h (fun _ => rfl) ?_ ?_
      · intro hne
        exact ⟨by simp, by simp, by simpa using hne.symm⟩
      · intro heq details hallowed
        exact .begun _ (by rw [heq]) (hasStatus_status hallowed)
  | finishRollback target status =>
      have h : finishRollback target status table = .ok table' := h
      unfold finishRollback at h
      split at h
      next hresult =>
        refine statusStep_updatePoint h (fun _ => rfl) ?_ ?_
        · intro _
          exact ⟨by simp, by simp, by simp⟩
        · intro heq details hallowed
          rw [List.mem_singleton.mp (hasStatus_status hallowed)]
          exact .finished status (by rw [heq]) (List.contains_iff_mem.mp hresult)
      next => cases h

/-! ## §4. Sequences of calls. -/

/-- The rows after a call, which may fail. -/
def Call.rows (call : Call ι) (table : Table ι) : Table ι :=
  match call.apply table with
  | .ok table' => table'
  | .error _ => table

/-- The rows after calls on empty tables. -/
def tableAfter (calls : List (Call ι)) : Table ι := calls.foldl (fun table call => call.rows table) []

/-- The call was made and accepted. -/
def Succeeded (call : Call ι) (calls : List (Call ι)) : Prop :=
  ∃ before, before ++ [call] <+: calls ∧ ∃ table, call.apply (tableAfter before) = .ok table

theorem tableAfter_snoc (calls : List (Call ι)) (call : Call ι) :
    tableAfter (calls ++ [call]) = call.rows (tableAfter calls) := by
  unfold tableAfter
  rw [List.foldl_append]
  rfl

theorem succeeded_snoc {call last : Call ι} {calls : List (Call ι)} :
    Succeeded call (calls ++ [last]) ↔
      Succeeded call calls ∨ call = last ∧ ∃ table, call.apply (tableAfter calls) = .ok table := by
  constructor
  · rintro ⟨before, hbefore, hok⟩
    rcases List.prefix_concat_iff.mp hbefore with heq | hbefore
    · obtain ⟨rfl, hcall⟩ := List.append_inj' heq rfl
      exact Or.inr ⟨(List.cons.inj hcall).1, hok⟩
    · exact Or.inl ⟨before, hbefore, hok⟩
  · rintro (⟨before, hbefore, hok⟩ | ⟨rfl, hok⟩)
    · exact ⟨before, hbefore.trans (List.prefix_append _ _), hok⟩
    · exact ⟨calls, List.prefix_rfl, hok⟩

theorem Succeeded.mem {call : Call ι} {calls : List (Call ι)} (h : Succeeded call calls) :
    call ∈ calls := by
  obtain ⟨before, hbefore, _⟩ := h
  exact hbefore.subset (by simp)

theorem not_succeeded_nil (call : Call ι) : ¬ Succeeded call [] := by
  intro h
  exact absurd h.mem List.not_mem_nil

/-- One more call: the status of a point takes a step, or the call fails. -/
theorem statusStep_snoc (calls : List (Call ι)) (call : Call ι) (id : ι) :
    (∃ e, call.apply (tableAfter calls) = .error e)
        ∧ statusOf id (tableAfter (calls ++ [call])) = statusOf id (tableAfter calls)
      ∨ (∃ table, call.apply (tableAfter calls) = .ok table)
        ∧ StatusStep call id (statusOf id (tableAfter calls))
          (statusOf id (tableAfter (calls ++ [call]))) := by
  rw [tableAfter_snoc]
  unfold Call.rows
  cases happly : call.apply (tableAfter calls) with
  | error e => exact Or.inl ⟨⟨e, rfl⟩, rfl⟩
  | ok table => exact Or.inr ⟨⟨table, rfl⟩, statusStep_of_apply happly id⟩

/-- What the calls so far say about a point that is new, and about any point. -/
structure Marked (id : ι) (calls : List (Call ι)) : Prop where
  fresh : statusOf id (tableAfter calls) = none ∨ statusOf id (tableAfter calls) = some .creating →
    ¬ Succeeded (.markAvailable id) calls ∧ ¬ Succeeded (.markCreationFailed id) calls
  once : ¬ (Succeeded (.markAvailable id) calls ∧ Succeeded (.markCreationFailed id) calls)

/-- **A point is made available or its creation fails, once, and then it is not
being created any more.** -/
theorem marked_once (id : ι) (calls : List (Call ι)) : Marked id calls := by
  induction calls using List.reverseRecOn with
  | nil =>
      exact ⟨fun _ => ⟨not_succeeded_nil _, not_succeeded_nil _⟩,
        fun h => not_succeeded_nil _ h.1⟩
  | append_singleton calls call ih =>
      rcases statusStep_snoc calls call id with ⟨⟨e, hfails⟩, hsame⟩ | ⟨⟨table, hok⟩, hstep⟩
      · -- a call that fails succeeds for nobody and changes nothing
        have hold : ∀ c, Succeeded c (calls ++ [call]) → Succeeded c calls := by
          intro c hc
          rcases succeeded_snoc.mp hc with hc | ⟨rfl, table, hok⟩
          · exact hc
          · rw [hfails] at hok
            cases hok
        refine ⟨?_, fun h => ih.once ⟨hold _ h.1, hold _ h.2⟩⟩
        intro hstatus
        rw [hsame] at hstatus
        exact ⟨fun h => (ih.fresh hstatus).1 (hold _ h), fun h => (ih.fresh hstatus).2 (hold _ h)⟩
      · have hold : ∀ c, c ≠ call → Succeeded c (calls ++ [call]) → Succeeded c calls := by
          intro c hne hc
          rcases succeeded_snoc.mp hc with hc | ⟨heq, _⟩
          · exact hc
          · exact absurd heq hne
        by_cases hmark : call = .markAvailable id ∨ call = .markCreationFailed id
        · -- the mark itself: the point was being created, so it had neither mark
          have hmoved : statusOf id (tableAfter calls) = some .creating
              ∧ (statusOf id (tableAfter (calls ++ [call])) = some .available
                ∨ statusOf id (tableAfter (calls ++ [call])) = some .failed) := by
            rcases hmark with rfl | rfl
            · exact ⟨hstep.of_markAvailable.1, Or.inl hstep.of_markAvailable.2⟩
            · exact ⟨hstep.of_markCreationFailed.1, Or.inr hstep.of_markCreationFailed.2⟩
          obtain ⟨hcreating, hnew⟩ := hmoved
          obtain ⟨hna, hnf⟩ := ih.fresh (Or.inr hcreating)
          refine ⟨?_, ?_⟩
          · intro hstatus
            rcases hnew with hnew | hnew <;> rw [hnew] at hstatus <;> simp at hstatus
          · rintro ⟨ha, hf⟩
            rcases hmark with rfl | rfl
            · exact hnf (hold _ (by simp) hf)
            · exact hna (hold _ (by simp) ha)
        · have hna : Call.markAvailable id ≠ call := fun h => hmark (Or.inl h.symm)
          have hnf : Call.markCreationFailed id ≠ call := fun h => hmark (Or.inr h.symm)
          refine ⟨?_, fun h => ih.once ⟨hold _ hna h.1, hold _ hnf h.2⟩⟩
          intro hstatus
          have hbefore := hstep.fresh_before hstatus
          exact ⟨fun h => (ih.fresh hbefore).1 (hold _ hna h),
            fun h => (ih.fresh hbefore).2 (hold _ hnf h)⟩

end QingzhouSSH.Repositories.OperationRestoreRepository
