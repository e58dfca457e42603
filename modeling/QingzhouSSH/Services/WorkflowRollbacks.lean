/-
  QingzhouSSH.Services.WorkflowRollbacks — the content that the rollback of a workflow run
  brings back.

  The captures and the rollback of a run are answered by the files of its server and by the
  backups in the data directory.  Between the captures the files change in any way.

  The restore points are brought back in the reverse order of `(created_at, id)`, so among
  points of one millisecond an identifier that was drawn at random decides.

  Main results:
    * `Recorded.course` — every available point backs up what its capture has found;
    * `rollback_restores_iff` — when a rollback restores the earliest content.
-/
import Mathlib.Data.List.Forall2
import QingzhouSSH.Lib.LastWrite
import QingzhouSSH.Lib.World
import QingzhouSSH.Services.RestorePointService

namespace QingzhouSSH.Services.WorkflowRollbacks

open QingzhouSSH.Domain
open QingzhouSSH.Lib
open QingzhouSSH.Lib.LastWrite
open QingzhouSSH.Lib.Process
open QingzhouSSH.Repositories.WorkflowRestorePoints
open QingzhouSSH.Services.RestorePointService

variable {Content : Type}

/-! ## §1. Files. -/

/-- The files of the server of the run, and the local backups. -/
structure Files (Content : Type) where
  remote : Text → Option Content
  backups : Text → Option Content

def Files.put (w : Files Content) (path : Text) (content : Option Content) : Files Content :=
  { w with remote := Function.update w.remote path content }

def Files.store (w : Files Content) (relativePath : Text) (content : Option Content) :
    Files Content :=
  { w with backups := Function.update w.backups relativePath content }

/-- `backup_remote_file`.  An existing backup is never replaced; a backup that has failed, and
whose rest `remove_partial` removes, may leave anything. -/
def BackedUp (hash : Content → Text) (remotePath relativePath : Text) (w : Files Content)
    (answer : AppResult (Option Backup)) (w' : Files Content) : Prop :=
  match answer with
  | .ok none => w.remote remotePath = none ∧ w' = w
  | .ok (some backup) =>
      ∃ content, w.remote remotePath = some content ∧ w.backups relativePath = none
        ∧ backup.location = relativePath ∧ backup.sha256 = hash content
        ∧ w' = w.store relativePath (some content)
  | .error _ => ∃ rest, w' = w.store relativePath rest

/-- `delete_remote_file`. -/
def Deleted (remotePath : Text) (w : Files Content) (answer : AppResult Unit)
    (w' : Files Content) : Prop :=
  match answer with
  | .ok () => w' = w.put remotePath none
  | .error _ => ∃ rest, w' = w.put remotePath rest

/-- `is_file` and `sha256_local_file`. -/
def Hashed (hash : Content → Text) (relativePath : Text) (w : Files Content)
    (answer : AppResult Text) (w' : Files Content) : Prop :=
  w' = w ∧ ∀ sha256, answer = .ok sha256 →
    ∃ content, w.backups relativePath = some content ∧ sha256 = hash content

/-- `upload`, which overwrites and verifies strictly. -/
def Uploaded (hash : Content → Text) (relativePath remotePath : Text) (w : Files Content)
    (answer : AppResult Text) (w' : Files Content) : Prop :=
  match answer with
  | .ok sha256 =>
      ∃ content, w.backups relativePath = some content ∧ sha256 = hash content
        ∧ w' = w.put remotePath (some content)
  | .error _ => ∃ rest, w' = w.put remotePath rest

/-- What the files answer.  The path of a backup carries a fresh `Uuid`, so nothing is there. -/
def Responds (hash : Content → Text) :
    (question : RestoreQuestion) → Files Content → RestoreAnswer question → Files Content → Prop
  | .drawId, w, _, w' => w' = w
  | .now, w, _, w' => w' = w
  | .relativePath _ _, w, answer, w' =>
      w' = w ∧ ∀ relativePath, answer = .ok relativePath → w.backups relativePath = none
  | .connect _, w, _, w' => w' = w
  | .backup remotePath relativePath, w, answer, w' =>
      BackedUp hash remotePath relativePath w answer w'
  | .deleteRemoteFile remotePath, w, answer, w' => Deleted remotePath w answer w'
  | .localHash relativePath, w, answer, w' => Hashed hash relativePath w answer w'
  | .upload relativePath remotePath, w, answer, w' =>
      Uploaded hash relativePath remotePath w answer w'
  | .removeBackup relativePath, w, _, w' => ∃ rest, w' = w.store relativePath rest

/-! ## §2. The course of a run. -/

/-- A capture, with the content that it has found under its path. -/
structure Captured (Content : Type) where
  id : Uuid
  createdAt : Int
  path : Text
  found : Option Content

/-- The captures of a run in their order, in which `created_at` does not decrease.  Between
them the files of the server and the tables of the run change in any way; a capture may break
off at any of its steps. -/
inductive Course (hash : Content → Text) (serverId : Text) :
    List (Captured Content) → RestoreState → Files Content → Prop where
  | started {s : RestoreState} {w : Files Content} :
      s.points = [] → s.captured = [] → Course hash serverId [] s w
  | changed {captures : List (Captured Content)} {s : RestoreState} {w : Files Content}
      (remote : Text → Option Content) : Course hash serverId captures s w →
      Course hash serverId captures s { w with remote := remote }
  | advanced {captures : List (Captured Content)} {s : RestoreState} {w : Files Content}
      (tables : Repositories.WorkflowRepository.RunTables) : Course hash serverId captures s w →
      Course hash serverId captures { s with tables := tables } w
  | captured {captures : List (Captured Content)} {s s' : RestoreState} {w w' : Files Content}
      {p : Process RestoreState RestoreAnswer (AppResult WorkflowRestorePoint)} (nodeId : Uuid)
      (path : Text) (point : WorkflowRestorePoint) : Course hash serverId captures s w →
      ReachesWith (Responds hash) ((capture nodeId serverId path).run, s, w) (p, s', w') →
      s'.captured = point.id :: s.captured → point ∈ s'.points →
      (∀ earlier ∈ captures, earlier.createdAt ≤ point.createdAt) →
      Course hash serverId
        (captures ++ [⟨point.id, point.createdAt, path, w.remote path⟩]) s' w'
  | notCaptured {captures : List (Captured Content)} {s s' : RestoreState} {w w' : Files Content}
      {p : Process RestoreState RestoreAnswer (AppResult WorkflowRestorePoint)} (nodeId : Uuid)
      (path : Text) : Course hash serverId captures s w →
      ReachesWith (Responds hash) ((capture nodeId serverId path).run, s, w) (p, s', w') →
      s'.captured = s.captured → Course hash serverId captures s' w'

/-- The first capture of a path. -/
def IsFirst (captures : List (Captured Content)) (first : Captured Content) : Prop :=
  captures.find? (fun capture => capture.path == first.path) = some first

/-- Every captured path holds what its first capture has found. -/
def RestoresEarliest (captures : List (Captured Content)) (w : Files Content) : Prop :=
  ∀ first, IsFirst captures first → w.remote first.path = first.found

/-- The least identifier among the captures of a path in the millisecond of the first one. -/
def LeastTied (captures : List (Captured Content)) (first least : Captured Content) : Prop :=
  least ∈ captures ∧ least.path = first.path ∧ least.createdAt = first.createdAt
    ∧ ∀ other ∈ captures, other.path = first.path → other.createdAt = first.createdAt →
      ¬ other.id.text < least.id.text

/-- Of the captures in one millisecond with the first one of the path, the one with the least
identifier has found the same content. -/
def TiesAgree (captures : List (Captured Content)) : Prop :=
  ∀ first, IsFirst captures first → ∀ least, LeastTied captures first least →
    least.found = first.found

/-! ## §3. Points and what they back up. -/

/-- The point brings back what its capture has found. -/
structure Backs (w : Files Content) (point : WorkflowRestorePoint)
    (capture : Captured Content) : Prop where
  id : point.id = capture.id
  createdAt : point.createdAt = capture.createdAt
  path : point.remotePath = capture.path
  absent : point.originalExisted = false → capture.found = none
  present : point.originalExisted = true → ∃ relativePath content,
    point.relativePath = some relativePath ∧ w.backups relativePath = some content
      ∧ capture.found = some content

/-- The available points are those of the captures. -/
structure Recorded (captures : List (Captured Content)) (s : RestoreState) (w : Files Content) :
    Prop where
  unique : (s.points.map WorkflowRestorePoint.id).Nodup
  backed : List.Forall₂ (Backs w) (s.points.filter fun point => point.status == .available)
    captures

theorem Backs.of_backups {w w' : Files Content} {point : WorkflowRestorePoint}
    {capture : Captured Content} (h : Backs w point capture)
    (hkept : ∀ relativePath content, w.backups relativePath = some content →
      w'.backups relativePath = some content) : Backs w' point capture where
  id := h.id
  createdAt := h.createdAt
  path := h.path
  absent := h.absent
  present hexisted := by
    obtain ⟨relativePath, content, hpath, hbackup, hfound⟩ := h.present hexisted
    exact ⟨relativePath, content, hpath, hkept relativePath content hbackup, hfound⟩

theorem Recorded.of_backups {captures : List (Captured Content)} {s : RestoreState}
    {w w' : Files Content} (h : Recorded captures s w)
    (hkept : ∀ relativePath content, w.backups relativePath = some content →
      w'.backups relativePath = some content) : Recorded captures s w' where
  unique := h.unique
  backed := h.backed.imp fun _ _ hbacks => hbacks.of_backups hkept

/-- A path where nothing was can take anything. -/
theorem backups_store {w : Files Content} {relativePath : Text}
    (hfresh : w.backups relativePath = none)
    (rest : Option Content) (other : Text) (content : Content)
    (h : w.backups other = some content) :
    (w.store relativePath rest).backups other = some content := by
  show Function.update w.backups relativePath rest other = some content
  rw [Function.update_of_ne]
  · exact h
  · rintro rfl
    rw [hfresh] at h
    cases h

/-- A new point, which is being created. -/
def newPoint (id : Uuid) (now : Int) (draft : NewWorkflowRestorePoint) : WorkflowRestorePoint where
  id := id
  nodeId := draft.nodeId
  remotePath := draft.remotePath
  relativePath := draft.relativePath
  originalExisted := false
  sizeBytes := none
  sha256 := none
  status := .creating
  applicability := draft.applicability
  errorMessage := none
  createdAt := now

theorem createRestorePoint_ok {id : Uuid} {now : Int} {draft : NewWorkflowRestorePoint}
    {points points' : Points} (h : createRestorePoint id now draft points = .ok points') :
    id ∉ points.map WorkflowRestorePoint.id ∧ points' = points ++ [newPoint id now draft] := by
  unfold createRestorePoint at h
  obtain ⟨_, _, h⟩ := bind_eq_ok.mp h
  obtain ⟨_, _, h⟩ := bind_eq_ok.mp h
  split at h
  next => cases h
  next =>
    split at h
    next => cases h
    next hfresh =>
      refine ⟨fun hmem => ?_, (Except.ok.inj h).symm⟩
      obtain ⟨point, hpoint, hid⟩ := List.mem_map.mp hmem
      exact hfresh (List.any_eq_true.mpr ⟨point, hpoint, beq_iff_eq.mpr hid⟩)

/-- The update of the newest point. -/
theorem updatePoint_newest {id : Uuid} {guard : WorkflowRestorePoint → Bool}
    {f : WorkflowRestorePoint → WorkflowRestorePoint} {message : String} {points points' : Points}
    {newest : WorkflowRestorePoint} (hnewest : newest.id = id)
    (hfresh : id ∉ points.map WorkflowRestorePoint.id)
    (h : updatePoint id guard f message (points ++ [newest]) = .ok points') :
    points' = points ++ [f newest] := by
  have hothers : ∀ point ∈ points, (point.id == id) = false := by
    intro point hpoint
    rw [beq_eq_false_iff_ne]
    rintro rfl
    exact hfresh (List.mem_map_of_mem hpoint)
  obtain ⟨hit, hmem, hid, hguard⟩ := updatePoint_hits h
  rw [updatePoint_eq h, List.map_append, List.map_singleton]
  congr 1
  · refine (List.map_congr_left fun point hpoint => ?_).trans (List.map_id points)
    rw [hothers point hpoint]
    rfl
  · rcases List.mem_append.mp hmem with hold | hlast
    · exact absurd (hothers hit hold) (by rw [hid]; simp)
    · obtain rfl := List.mem_singleton.mp hlast
      rw [if_pos (by rw [hguard, hid]; simp)]

/-- The row of a finished capture, from what has been checked. -/
def finishedPoint (finish : FinishWorkflowRestorePoint) (point : WorkflowRestorePoint) :
    WorkflowRestorePoint :=
  { point with status := finish.status, originalExisted := finish.originalExisted,
               relativePath := finish.relativePath, sizeBytes := finish.sizeBytes,
               sha256 := finish.sha256, errorMessage := capUtf8 finish.errorMessage (8 * 1024) }

theorem finishRestorePoint_newest {finish : FinishWorkflowRestorePoint} {points points' : Points}
    {newest : WorkflowRestorePoint} (hnewest : newest.id = finish.id)
    (hfresh : finish.id ∉ points.map WorkflowRestorePoint.id)
    (h : finishRestorePoint finish (points ++ [newest]) = .ok points') :
    ∃ checked, checkFinish finish = .ok checked
      ∧ points' = points ++ [finishedPoint checked newest] := by
  unfold finishRestorePoint at h
  split at h
  next => cases h
  next =>
    obtain ⟨_, _, h⟩ := bind_eq_ok.mp h
    obtain ⟨checked, hcheck, h⟩ := bind_eq_ok.mp h
    have hid := (checkFinish_ok hcheck).1
    split at h
    next => cases h
    next =>
      rw [hid] at h
      exact ⟨checked, hcheck, updatePoint_newest hnewest hfresh h⟩

/-! ## §4. Capturing. -/

/-- Where a capture has come to: it has recorded its point, or not. -/
def CaptureKeeps (captures : List (Captured Content)) (before : List Uuid) (path : Text)
    (found : Option Content) (s : RestoreState) (w : Files Content) : Prop :=
  s.captured = before ∧ Recorded captures s w
    ∨ ∃ point ∈ s.points, s.captured = point.id :: before
        ∧ Recorded (captures ++ [⟨point.id, point.createdAt, path, found⟩]) s w

/-- A statement on the points that goes through. -/
theorem updated_ok {r : AppResult Points} {g : Points → RestoreState} {s' : RestoreState}
    (h : r.map g = .ok s') : ∃ points, r = .ok points ∧ s' = g points := by
  cases r with
  | ok points => exact ⟨points, rfl, (Except.ok.inj h).symm⟩
  | error e => cases h

/-- A point that is not available adds nothing. -/
theorem Recorded.snoc_unavailable {captures : List (Captured Content)} {s s' : RestoreState}
    {w : Files Content} {point : WorkflowRestorePoint} (h : Recorded captures s w)
    (hfresh : point.id ∉ s.points.map WorkflowRestorePoint.id)
    (hstatus : (point.status == .available) = false) (hpoints : s'.points = s.points ++ [point]) :
    Recorded captures s' w where
  unique := by
    rw [hpoints, List.map_append, List.map_singleton]
    exact List.Nodup.append h.unique (List.nodup_singleton _) (by simpa using hfresh)
  backed := by
    rw [hpoints, List.filter_append, List.filter_singleton, hstatus]
    simpa using h.backed

/-- An available point adds a capture. -/
theorem Recorded.snoc_available {captures : List (Captured Content)} {s s' : RestoreState}
    {w : Files Content} {point : WorkflowRestorePoint} {capture : Captured Content}
    (h : Recorded captures s w) (hfresh : point.id ∉ s.points.map WorkflowRestorePoint.id)
    (hstatus : point.status = .available) (hbacks : Backs w point capture)
    (hpoints : s'.points = s.points ++ [point]) : Recorded (captures ++ [capture]) s' w where
  unique := by
    rw [hpoints, List.map_append, List.map_singleton]
    exact List.Nodup.append h.unique (List.nodup_singleton _) (by simpa using hfresh)
  backed := by
    rw [hpoints, List.filter_append, List.filter_singleton, hstatus]
    exact List.rel_append h.backed (.cons hbacks .nil)

section Capture

variable {hash : Content → Text} {captures : List (Captured Content)} {s : RestoreState}
  {w : Files Content} {path : Text}

/-- A capture that has failed leaves a failed point. -/
theorem recordFailure_keeps {id : Uuid} {now : Int} {draft : NewWorkflowRestorePoint}
    {message : Text} {error : AppError} {found : Option Content} (hrecorded : Recorded captures s w)
    (hfresh : id ∉ s.points.map WorkflowRestorePoint.id) {α : Type} :
    Keeps (Responds hash) (CaptureKeeps captures s.captured path found) (fun _ _ _ => True)
      (do recordFailure id message; throw error : RestoreProcess α).run
      { s with points := s.points ++ [newPoint id now draft] } w := by
  have hcreating : CaptureKeeps captures s.captured path found
      { s with points := s.points ++ [newPoint id now draft] } w :=
    .inl ⟨rfl, hrecorded.snoc_unavailable hfresh rfl rfl⟩
  refine keeps_update hcreating (fun s' hs' => ?_) fun _ _ => trivial
  obtain ⟨points, hpoints, rfl⟩ := updated_ok hs'
  obtain ⟨checked, hchecked, rfl⟩ := finishRestorePoint_newest rfl hfresh hpoints
  obtain rfl := Except.ok.inj hchecked
  exact ⟨.inl ⟨rfl, hrecorded.snoc_unavailable hfresh rfl rfl⟩, trivial⟩

/-- A backup is recorded with its point. -/
theorem recordBackup_keeps {id : Uuid} {now : Int} {draft : NewWorkflowRestorePoint}
    {backup : Option Backup} {found : Option Content} {α : Type} {next : Unit → RestoreProcess α}
    (hrecorded : Recorded captures s w) (hfresh : id ∉ s.points.map WorkflowRestorePoint.id)
    (hpath : draft.remotePath = path)
    (habsent : backup = none → found = none)
    (hpresent : ∀ made, backup = some made → ∃ content,
      w.backups made.location = some content ∧ found = some content)
    (hnext : ∀ s', CaptureKeeps captures s.captured path found s' w →
      Keeps (Responds hash) (CaptureKeeps captures s.captured path found) (fun _ _ _ => True)
        (next ()).run s' w) :
    Keeps (Responds hash) (CaptureKeeps captures s.captured path found) (fun _ _ _ => True)
      (recordBackup id backup >>= next).run
      { s with points := s.points ++ [newPoint id now draft] } w := by
  have hcreating : CaptureKeeps captures s.captured path found
      { s with points := s.points ++ [newPoint id now draft] } w :=
    .inl ⟨rfl, hrecorded.snoc_unavailable hfresh rfl rfl⟩
  refine keeps_update hcreating (fun s' hs' => hnext s' (.inr ?_)) fun _ _ => trivial
  obtain ⟨points, hpoints, rfl⟩ := updated_ok hs'
  obtain ⟨checked, hchecked, rfl⟩ := finishRestorePoint_newest rfl hfresh hpoints
  have hfinished : checked.status = .available ∧ checked.originalExisted = backup.isSome
      ∧ checked.relativePath = backup.map Backup.location := by
    cases backup with
    | none =>
        obtain rfl := Except.ok.inj hchecked
        exact ⟨rfl, rfl, rfl⟩
    | some made =>
        unfold checkFinish at hchecked
        dsimp only at hchecked
        split at hchecked
        next =>
          split at hchecked
          next => cases hchecked
          next =>
            obtain rfl := Except.ok.inj hchecked
            exact ⟨rfl, rfl, rfl⟩
        next hnone => exact absurd rfl hnone
  obtain ⟨hstatus, hexisted, hlocation⟩ := hfinished
  refine ⟨finishedPoint checked (newPoint id now draft), List.mem_append_right _ (by simp), rfl, ?_⟩
  refine hrecorded.snoc_available hfresh hstatus
    ⟨rfl, rfl, hpath, fun hnot => ?_, fun hsome => ?_⟩ rfl
  · refine habsent (Option.not_isSome_iff_eq_none.mp ?_)
    rw [← hexisted]
    exact Bool.eq_false_iff.mp hnot
  · obtain ⟨made, rfl⟩ := Option.isSome_iff_exists.mp (hexisted.symm.trans hsome)
    obtain ⟨content, hbackup, hfound⟩ := hpresent made rfl
    exact ⟨made.location, content, hlocation, hbackup, hfound⟩

end Capture

/-- The point is read back at the end, and nothing changes any more. -/
theorem readBack_keeps {hash : Content → Text} {kept : RestoreState → Files Content → Prop}
    (id : Uuid) {s : RestoreState} {w : Files Content} (hkept : kept s w) :
    Keeps (Responds hash) kept (fun _ _ _ => True)
      (Process.atomic fun s : RestoreState =>
        ((match getRestorePoint id s.points with
          | some point => .ok point
          | none => .error (.database "RowNotFound".toList) :
            AppResult WorkflowRestorePoint), s)) s w :=
  keeps_atomic hkept hkept trivial

/-- **What a capture has recorded, wherever it stops.** -/
theorem capture_keeps {hash : Content → Text} {captures : List (Captured Content)}
    {s : RestoreState} {w : Files Content} (hrecorded : Recorded captures s w) (nodeId : Uuid)
    (serverId path : Text) :
    Keeps (Responds hash) (CaptureKeeps captures s.captured path (w.remote path))
      (fun _ _ _ => True) (capture nodeId serverId path).run s w := by
  have hbefore : CaptureKeeps captures s.captured path (w.remote path) s w :=
    .inl ⟨rfl, hrecorded⟩
  unfold capture
  refine keeps_answer hbefore fun answer w₁ hpath => ?_
  obtain ⟨rfl, hnothing⟩ := hpath
  cases answer with
  | error error => exact ⟨hbefore, trivial⟩
  | ok relativePath =>
      have hfree := hnothing relativePath rfl
      refine keeps_andThen ⟨hbefore, ?_⟩
      refine keeps_answer hbefore fun id w₁ hid => ?_
      obtain rfl := hid
      refine keeps_answer hbefore fun now w₁ hnow => ?_
      obtain rfl := hnow
      refine keeps_update hbefore (fun s₁ hs₁ => ?_) fun _ _ => trivial
      obtain ⟨points, hcreate, rfl⟩ := updated_ok hs₁
      obtain ⟨hfresh, rfl⟩ := createRestorePoint_ok hcreate
      have hcreating : ∀ draft, CaptureKeeps captures s.captured path (w₁.remote path)
          { s with points := s.points ++ [newPoint id now draft] } w₁ :=
        fun draft => .inl ⟨rfl, hrecorded.snoc_unavailable hfresh rfl rfl⟩
      refine keeps_answer (hcreating _) fun connected w₁ hconnected => ?_
      obtain rfl := hconnected
      cases connected with
      | error error => exact recordFailure_keeps hrecorded hfresh
      | ok redact =>
          refine keeps_answer (hcreating _) fun outcome w₂ houtcome => ?_
          cases outcome with
          | error error =>
              obtain ⟨rest, rfl⟩ := houtcome
              exact recordFailure_keeps (hrecorded.of_backups (backups_store hfree rest)) hfresh
          | ok backup =>
              cases backup with
              | none =>
                  obtain ⟨habsent, rfl⟩ := houtcome
                  exact recordBackup_keeps hrecorded hfresh rfl (fun _ => habsent) (by simp)
                    fun s' hs' => readBack_keeps id hs'
              | some backup =>
                  obtain ⟨content, hfound, hnone, hlocation, _, rfl⟩ := houtcome
                  refine recordBackup_keeps (hrecorded.of_backups (backups_store hfree _)) hfresh rfl
                    (by simp) (fun made hmade => ?_) fun s' hs' => readBack_keeps id hs'
                  obtain rfl := Option.some.inj hmade
                  refine ⟨content, ?_, hfound⟩
                  rw [hlocation]
                  exact Function.update_self _ _ _

/-- **Every available point of a run backs up what its capture has found.** -/
theorem Recorded.course {hash : Content → Text} {serverId : Text}
    {captures : List (Captured Content)} {s : RestoreState} {w : Files Content}
    (h : Course hash serverId captures s w) :
    Recorded captures s w
      ∧ captures.Pairwise fun earlier later => earlier.createdAt ≤ later.createdAt := by
  induction h with
  | started hpoints hcaptured =>
      refine ⟨⟨?_, ?_⟩, List.Pairwise.nil⟩
      · rw [hpoints]
        exact List.nodup_nil
      · rw [hpoints]
        exact .nil
  | changed remote _ ih => exact ⟨ih.1.of_backups fun _ _ hbackup => hbackup, ih.2⟩
  | advanced tables _ ih => exact ⟨⟨ih.1.unique, ih.1.backed⟩, ih.2⟩
  | captured nodeId path point _ hreach hnew hpoint htimes ih =>
      refine ⟨?_, List.pairwise_append.mpr ⟨ih.2, List.pairwise_singleton _ _, ?_⟩⟩
      · rcases (keeps_iff.mp (capture_keeps ih.1 nodeId serverId path) _ _ _ hreach).1 with
          ⟨hsame, _⟩ | ⟨other, hother, hsame, hrecorded⟩
        · -- the memory has grown
          rw [hnew] at hsame
          exact absurd hsame (List.cons_ne_self _ _)
        · have hid : other.id = point.id := (List.cons.inj (hsame.symm.trans hnew)).1
          obtain rfl := List.inj_on_of_nodup_map hrecorded.unique hother hpoint hid
          exact hrecorded
      · intro earlier hearlier later hlater
        rw [List.mem_singleton.mp hlater]
        exact htimes earlier hearlier
  | notCaptured nodeId path _ hreach hsame ih =>
      refine ⟨?_, ih.2⟩
      rcases (keeps_iff.mp (capture_keeps ih.1 nodeId serverId path) _ _ _ hreach).1 with
        ⟨_, hrecorded⟩ | ⟨_, _, hnew, _⟩
      · exact hrecorded
      · rw [hsame] at hnew
        exact absurd hnew.symm (List.cons_ne_self _ _)

/-! ## §5. Rolling back. -/

/-- The files of the server after the restores of some captures. -/
def restored (captures : List (Captured Content)) (remote : Text → Option Content) :
    Text → Option Content :=
  captures.foldl (fun remote capture => Function.update remote capture.path capture.found) remote

/-- What a restore writes under a path. -/
def foundUnder (path : Text) (capture : Captured Content) : Option (Option Content) :=
  if capture.path = path then some capture.found else none

/-- **A path holds what was restored last.** -/
theorem restored_apply (captures : List (Captured Content)) (remote : Text → Option Content)
    (path : Text) :
    restored captures remote path = lastSet (foundUnder path) (remote path) captures := by
  refine get_foldl (fun remote capture => Function.update remote capture.path capture.found)
    (fun remote : Text → Option Content => remote path) (fun remote capture => ?_) captures remote
  unfold foundUnder
  by_cases hpath : capture.path = path
  · rw [if_pos hpath, ← hpath, Function.update_self]
    rfl
  · rw [if_neg hpath, Function.update_of_ne (Ne.symm hpath)]
    rfl

section Rollback

variable {hash : Content → Text} {serverId : Text}

/-- Nothing but what is said at the end. -/
def Anywhere : RestoreState → Files Content → Prop := fun _ _ => True

/-- A restore that succeeds brings back what the capture has found. -/
theorem rollbackPoint_keeps {point : WorkflowRestorePoint} {capture : Captured Content}
    {w : Files Content} (hbacks : Backs w point capture) (s : RestoreState) :
    Keeps (Responds hash) Anywhere
      (fun r s' w' => s' = s ∧ w'.backups = w.backups
        ∧ (r = .ok () → w'.remote = Function.update w.remote capture.path capture.found))
      (rollbackPoint serverId point).run s w := by
  unfold rollbackPoint
  refine keeps_andThen ⟨trivial, ?_⟩
  cases validateApplicability point serverId with
  | error error => exact ⟨rfl, rfl, nofun⟩
  | ok _ =>
      dsimp only
      cases hexisted : point.originalExisted with
      | false =>
          rw [if_pos (by decide)]
          refine keeps_answer trivial fun deleted w' hdeleted => ?_
          cases deleted with
          | error error =>
              obtain ⟨rest, rfl⟩ := hdeleted
              exact ⟨trivial, rfl, rfl, nofun⟩
          | ok _ =>
              obtain rfl := hdeleted
              refine ⟨trivial, rfl, rfl, fun _ => ?_⟩
              rw [hbacks.absent hexisted, ← hbacks.path]
              rfl
      | true =>
          obtain ⟨relativePath, content, hpath, hbackup, hfound⟩ := hbacks.present hexisted
          rw [if_neg (by decide), hpath]
          cases hsha : point.sha256 with
          | none => exact ⟨trivial, rfl, rfl, nofun⟩
          | some expectedHash =>
              refine keeps_answer trivial fun found w' hhashed => ?_
              obtain ⟨rfl, _⟩ := hhashed
              cases found with
              | error error => exact ⟨trivial, rfl, rfl, nofun⟩
              | ok actualHash =>
                  show Keeps _ _ _ (ExceptT.run (if actualHash ≠ expectedHash then _ else _)) s _
                  by_cases hsame : actualHash = expectedHash
                  · rw [if_neg (not_not_intro hsame)]
                    refine keeps_answer trivial fun uploaded w' huploaded => ?_
                    cases uploaded with
                    | error error =>
                        obtain ⟨rest, rfl⟩ := huploaded
                        exact ⟨trivial, rfl, rfl, nofun⟩
                    | ok sha256 =>
                        obtain ⟨same, hsame, _, rfl⟩ := huploaded
                        obtain rfl := Option.some.inj (hsame.symm.trans hbackup)
                        have hwritten : (w'.put point.remotePath (some same)).remote
                            = Function.update w'.remote capture.path capture.found := by
                          rw [hfound, ← hbacks.path]
                          rfl
                        show Keeps _ _ _ (ExceptT.run (if sha256 ≠ expectedHash then _ else _)) s _
                        split
                        · exact ⟨trivial, rfl, rfl, nofun⟩
                        · exact ⟨trivial, rfl, rfl, fun _ => hwritten⟩
                  · rw [if_pos hsame]
                    exact ⟨trivial, rfl, rfl, nofun⟩

/-- The loop writes in its order, if nothing fails. -/
theorem rollbackPoints_keeps {redact : Text → Text} {points : Points}
    {captures : List (Captured Content)} {failures : List Text} {s : RestoreState}
    {w w₀ : Files Content} (hbacks : List.Forall₂ (Backs w₀) points captures)
    (hsame : w.backups = w₀.backups) :
    Keeps (Responds hash) Anywhere
      (fun r s' w' => ∀ left, r = .ok left → s'.tables = s.tables ∧
        (left = [] → failures = [] ∧ w'.remote = restored captures w.remote))
      (rollbackPoints redact serverId points failures).run s w := by
  induction hbacks generalizing failures s w with
  | nil =>
      refine ⟨trivial, fun left hleft => ⟨rfl, ?_⟩⟩
      rintro rfl
      exact ⟨Except.ok.inj hleft, rfl⟩
  | @cons point capture points captures hpoint _ ih =>
      refine keeps_update trivial (fun s₁ hs₁ => ?_) fun _ _ => nofun
      obtain ⟨marked, _, rfl⟩ := updated_ok hs₁
      have hhere : Backs w point capture :=
        hpoint.of_backups fun _ _ hbackup => by rw [hsame]; exact hbackup
      refine keeps_andThen (keeps_lift ((rollbackPoint_keeps hhere _).imp ?_))
      rintro result s₂ w₂ - ⟨rfl, hbackups, hwritten⟩
      cases result with
      | ok _ =>
          refine keeps_update trivial (fun s₃ hs₃ => ?_) fun _ _ => nofun
          obtain ⟨finished, _, rfl⟩ := updated_ok hs₃
          refine (ih (hbackups.trans hsame)).imp fun r s' w' _ hloop left hleft => ?_
          obtain ⟨htables, hremote⟩ := hloop left hleft
          refine ⟨htables, fun hclean => ⟨(hremote hclean).1, ?_⟩⟩
          rw [(hremote hclean).2, hwritten rfl]
          rfl
      | error error =>
          refine keeps_update trivial (fun s₃ hs₃ => ?_) fun _ _ => nofun
          obtain ⟨finished, _, rfl⟩ := updated_ok hs₃
          refine (ih (hbackups.trans hsame)).imp fun r s' w' _ hloop left hleft => ?_
          obtain ⟨htables, hremote⟩ := hloop left hleft
          -- a failure stays among the failures
          exact ⟨htables, fun hclean => absurd (hremote hclean).1 (by simp)⟩

/-- The order of `(created_at, id)`, of captures. -/
def capturedBefore (a b : Captured Content) : Prop :=
  a.createdAt < b.createdAt ∨ a.createdAt = b.createdAt ∧ ¬ b.id.text < a.id.text

instance : DecidableRel (capturedBefore : Captured Content → Captured Content → Prop) :=
  fun _ _ => inferInstanceAs (Decidable (_ ∨ _ ∧ ¬ _))

instance : Std.Total (capturedBefore : Captured Content → Captured Content → Prop) where
  total a b := by
    unfold capturedBefore
    rcases lt_trichotomy a.createdAt b.createdAt with hlt | heq | hlt
    · exact .inl (.inl hlt)
    · by_cases hid : b.id.text < a.id.text
      · exact .inr (.inr ⟨heq.symm, List.lt_asymm hid⟩)
      · exact .inl (.inr ⟨heq, hid⟩)
    · exact .inr (.inl hlt)

instance : IsTrans (Captured Content) capturedBefore where
  trans a b c := by
    unfold capturedBefore
    rintro (hab | ⟨hab, hidab⟩) (hbc | ⟨hbc, hidbc⟩)
    · exact .inl (hab.trans hbc)
    · exact .inl (hbc ▸ hab)
    · exact .inl (hab ▸ hbc)
    · exact .inr ⟨hab.trans hbc, not_lt.mpr ((not_lt.mp hidab).trans (not_lt.mp hidbc))⟩

/-- Two lists that are sorted in step stay in step. -/
theorem forall₂_insertionSort {α β : Type} {R : α → β → Prop} {r : α → α → Prop}
    {r' : β → β → Prop} [DecidableRel r] [DecidableRel r']
    (horder : ∀ {a a' b b'}, R a b → R a' b' → (r a a' ↔ r' b b')) {l : List α} {l' : List β}
    (h : List.Forall₂ R l l') : List.Forall₂ R (l.insertionSort r) (l'.insertionSort r') := by
  have hinsert : ∀ {a : α} {b : β} {l : List α} {l' : List β}, R a b → List.Forall₂ R l l' →
      List.Forall₂ R (l.orderedInsert r a) (l'.orderedInsert r' b) := by
    intro a b l l' hab hl
    induction hl with
    | nil => exact .cons hab .nil
    | @cons c d l l' hcd hl ih =>
        rw [List.orderedInsert_cons, List.orderedInsert_cons]
        by_cases hac : r a c
        · rw [if_pos hac, if_pos ((horder hab hcd).mp hac)]
          exact .cons hab (.cons hcd hl)
        · rw [if_neg hac, if_neg fun hbd => hac ((horder hab hcd).mpr hbd)]
          exact .cons hcd ih
  induction h with
  | nil => exact .nil
  | cons hab _ ih => exact hinsert hab ih

/-- The captures in the order in which a rollback restores them. -/
def restoreOrder (captures : List (Captured Content)) : List (Captured Content) :=
  (captures.insertionSort capturedBefore).reverse

theorem Recorded.restoreOrder {captures : List (Captured Content)} {s : RestoreState}
    {w : Files Content} (h : Recorded captures s w) :
    List.Forall₂ (Backs w) (availablePoints s.points) (restoreOrder captures) := by
  refine List.rel_reverse (forall₂_insertionSort (fun {a a' b b'} hab hab' => ?_) h.backed)
  unfold createdBefore capturedBefore
  rw [hab.createdAt, hab'.createdAt, hab.id, hab'.id]

/-- **A rollback that reports success has restored the captures in their order.** -/
theorem rollbackRun_keeps {captures : List (Captured Content)} {s : RestoreState}
    {w : Files Content} (hrecorded : Recorded captures s w) :
    Keeps (Responds hash) Anywhere
      (fun r _ w' => ∀ details : WorkflowRunRecord × Points, r = .ok details →
        details.1.status = .rolledBack → w'.remote = restored (restoreOrder captures) w.remote)
      (rollbackRun true).run s w := by
  have hread : ∀ {s' : RestoreState} {w' : Files Content} {status : WorkflowRunStatus},
      (∀ run, s'.tables.run = some run → run.status = status) →
      (status = .rolledBack → w'.remote = restored (restoreOrder captures) w.remote) →
      Keeps (Responds hash) Anywhere
        (fun r _ w' => ∀ details : WorkflowRunRecord × Points, r = .ok details →
          details.1.status = .rolledBack → w'.remote = restored (restoreOrder captures) w.remote)
        requireRun.run s' w' := by
    intro s' w' status hstatus hremote
    refine keeps_atomic trivial trivial fun details hdetails hrolled => hremote ?_
    cases hrun : s'.tables.run with
    | none =>
        rw [hrun] at hdetails
        cases hdetails
    | some run =>
        rw [hrun] at hdetails
        obtain rfl := Except.ok.inj hdetails
        exact (hstatus run hrun).symm.trans hrolled
  have hfinish : ∀ {s' : RestoreState} {w' : Files Content} (failures : List Text)
      (message : Option Text),
      (failures = [] → w'.remote = restored (restoreOrder captures) w.remote) →
      Keeps (Responds hash) Anywhere
        (fun r _ w' => ∀ details : WorkflowRunRecord × Points, r = .ok details →
          details.1.status = .rolledBack → w'.remote = restored (restoreOrder captures) w.remote)
        (do finishRollbackRun failures.isEmpty message; requireRun : RestoreProcess _).run s' w' := by
    intro s' w' failures message hremote
    refine keeps_update trivial (fun s₁ hs₁ => ?_) fun _ _ => nofun
    cases htables : Repositories.WorkflowRepository.finishRollbackRun failures.isEmpty message
        s'.tables with
    | error e =>
        rw [htables] at hs₁
        cases hs₁
    | ok tables =>
        rw [htables] at hs₁
        obtain rfl := Except.ok.inj hs₁
        obtain ⟨before, _, _, rfl⟩ := Repositories.WorkflowRepository.updateRun_ok htables
        refine hread (fun run hrun => (congrArg _ (Option.some.inj hrun)).symm) fun hrolled => ?_
        refine hremote (List.isEmpty_iff.mp ?_)
        cases hclean : failures.isEmpty with
        | true => rfl
        | false =>
            rw [hclean] at hrolled
            cases hrolled
  unfold rollbackRun
  refine keeps_andThen (keeps_atomic trivial trivial ?_)
  cases hrun : s.tables.run with
  | none => exact nofun
  | some run =>
      dsimp only
      by_cases hallowed : mayRollBack run.status = true
      · rw [if_neg (by simp [hallowed])]
        by_cases hempty : availablePoints s.points = []
        · rw [if_pos hempty]
          exact ⟨trivial, nofun⟩
        · rw [if_neg hempty]
          refine keeps_answer trivial fun connected w₁ hsame => ?_
          obtain rfl := hsame
          cases connected with
          | error error => exact hfinish [error.message] (some error.message) nofun
          | ok redact =>
              refine keeps_andThen ((rollbackPoints_keeps hrecorded.restoreOrder rfl).imp ?_)
              rintro (error | failures) s' w' - hloop
              · exact nofun
              · refine hfinish failures _ fun hclean => ?_
                exact ((hloop failures rfl).2 hclean).2
      · rw [if_pos (by simp [hallowed])]
        exact ⟨trivial, nofun⟩

end Rollback

/-! ## §6. The earliest content. -/

section Earliest

variable {captures : List (Captured Content)} {first : Captured Content}

theorem IsFirst.mem (h : IsFirst captures first) : first ∈ captures := List.mem_of_find?_eq_some h

/-- The first capture of a path is the earliest one. -/
theorem IsFirst.earliest (h : IsFirst captures first)
    (htimes : captures.Pairwise fun earlier later => earlier.createdAt ≤ later.createdAt)
    {other : Captured Content} (hother : other ∈ captures) (hpath : other.path = first.path) :
    first.createdAt ≤ other.createdAt := by
  obtain ⟨-, before, after, rfl, hbefore⟩ := List.find?_eq_some_iff_append.mp h
  rcases List.mem_append.mp hother with hold | hnew
  · exact absurd (hbefore other hold) (by simp [hpath])
  · rcases List.mem_cons.mp hnew with rfl | hlater
    · exact le_refl _
    · exact (List.pairwise_cons.mp (List.pairwise_append.mp htimes).2.1).1 other hlater

/-- What is restored last under the path of a capture. -/
theorem restored_least {order before after : List (Captured Content)} {least : Captured Content}
    (horder : order = before ++ least :: after) (hbefore : ∀ other ∈ before, other.path ≠ least.path)
    (remote : Text → Option Content) : restored order.reverse remote least.path = least.found := by
  have hnone : before.findSome? (foundUnder least.path) = none :=
    List.findSome?_eq_none_iff.mpr fun other hother => if_neg (hbefore other hother)
  rw [restored_apply]
  unfold lastSet
  rw [List.reverse_reverse, horder, List.findSome?_append, hnone, List.findSome?_cons]
  unfold foundUnder
  rw [if_pos rfl]
  rfl

/-- **Under a captured path a rollback leaves what was found by the least identifier in the
millisecond of the first capture.** -/
theorem restores_least (h : IsFirst captures first)
    (htimes : captures.Pairwise fun earlier later => earlier.createdAt ≤ later.createdAt)
    (remote : Text → Option Content) :
    ∃ least, LeastTied captures first least
      ∧ restored (restoreOrder captures) remote first.path = least.found := by
  have hsome : ((captures.insertionSort capturedBefore).find?
      fun capture => capture.path == first.path).isSome := by
    rw [List.find?_isSome]
    exact ⟨first, (List.mem_insertionSort capturedBefore).mpr h.mem, beq_self_eq_true _⟩
  obtain ⟨least, hleast⟩ := Option.isSome_iff_exists.mp hsome
  obtain ⟨hpath, before, after, hsorted, hbefore⟩ := List.find?_eq_some_iff_append.mp hleast
  have hpath := eq_of_beq hpath
  have hpairs := List.pairwise_insertionSort capturedBefore captures
  rw [hsorted] at hpairs
  -- nothing under this path stands before it
  have hafter : ∀ other ∈ captures, other.path = first.path →
      other = least ∨ capturedBefore least other := by
    intro other hother hsame
    have hmem := (List.mem_insertionSort capturedBefore).mpr hother
    rw [hsorted] at hmem
    rcases List.mem_append.mp hmem with hold | hnew
    · exact absurd (hbefore other hold) (by simp [hsame])
    · refine (List.mem_cons.mp hnew).imp_right fun hlater => ?_
      exact (List.pairwise_cons.mp (List.pairwise_append.mp hpairs).2.1).1 other hlater
  have hmem : least ∈ captures :=
    (List.mem_insertionSort capturedBefore).mp (List.mem_of_find?_eq_some hleast)
  have htime : least.createdAt = first.createdAt := by
    have hle := h.earliest htimes hmem hpath
    rcases hafter first h.mem rfl with rfl | hlt | ⟨heq, _⟩
    · rfl
    · omega
    · exact heq
  refine ⟨least, ⟨hmem, hpath, htime, fun other hother hsame htied => ?_⟩, ?_⟩
  · rcases hafter other hother hsame with rfl | hlt | ⟨_, hid⟩
    · exact List.lt_irrefl _
    · omega
    · exact hid
  · rw [← hpath]
    refine restored_least hsorted (fun other hother hsame => ?_) remote
    exact absurd (hbefore other hother) (by simp [hsame, hpath])

/-- Identifiers tell captures apart. -/
theorem LeastTied.unique {s : RestoreState} {w : Files Content} {least other : Captured Content}
    (hrecorded : Recorded captures s w) (hleast : LeastTied captures first least)
    (hother : LeastTied captures first other) : least = other := by
  have hids : (captures.map Captured.id).Nodup := by
    have hsame : (s.points.filter fun point => point.status == .available).map
        WorkflowRestorePoint.id = captures.map Captured.id := by
      refine List.forall₂_eq_eq_eq ▸ ?_
      exact List.forall₂_map_left_iff.mpr (List.forall₂_map_right_iff.mpr
        (hrecorded.backed.imp fun _ _ hbacks => hbacks.id))
    rw [← hsame]
    exact hrecorded.unique.sublist ((List.filter_sublist).map _)
  refine List.inj_on_of_nodup_map hids hleast.1 hother.1 ?_
  have htext : least.id.text = other.id.text :=
    le_antisymm (not_lt.mp (hleast.2.2.2 other hother.1 hother.2.1 hother.2.2.1))
      (not_lt.mp (hother.2.2.2 least hleast.1 hleast.2.1 hleast.2.2.1))
  cases hl : least.id
  cases ho : other.id
  rw [hl, ho] at htext
  subst htext
  rfl

end Earliest

/-- **A rollback that reports success restores the earliest content exactly when the ties
agree.** -/
theorem rollback_restores_iff {hash : Content → Text} {serverId : Text}
    {captures : List (Captured Content)} {s s' : RestoreState} {w w' : Files Content}
    {details : WorkflowRunRecord × Points} (hcourse : Course hash serverId captures s w)
    (hrollback : ReachesWith (Responds hash) ((rollbackRun true).run, s, w)
      (.done (.ok details), s', w')) (hreported : details.1.status = .rolledBack) :
    RestoresEarliest captures w' ↔ TiesAgree captures := by
  obtain ⟨hrecorded, htimes⟩ := Recorded.course hcourse
  have hremote : w'.remote = restored (restoreOrder captures) w.remote :=
    (keeps_iff.mp (rollbackRun_keeps hrecorded) _ _ _ hrollback).2 _ rfl details rfl hreported
  constructor
  · intro hearliest first hfirst least hleast
    obtain ⟨same, hsame, hfound⟩ := restores_least hfirst htimes w.remote
    obtain rfl := hleast.unique hrecorded hsame
    rw [← hfound, ← hremote]
    exact hearliest first hfirst
  · intro hagree first hfirst
    obtain ⟨least, hleast, hfound⟩ := restores_least hfirst htimes w.remote
    rw [hremote, hfound]
    exact hagree first hfirst least hleast

/-! ## §7. Two captures in one millisecond. -/

def sampleHash (content : Bool) : Text := List.replicate 64 (if content then '1' else '0')

def sampleBackupPath (drawn : Fin 10) : Text :=
  "backups/workflows/".toList ++ (sampleId 0).text ++ "/".toList ++ (sampleId 0).text ++ ['/']
    ++ [Nat.digitChar drawn]

/-- Files that do what they are asked to. -/
def sampleRespond (drawn : Fin 10) : (question : RestoreQuestion) → Files Bool →
    RestoreAnswer question × Files Bool
  | .drawId, w => (sampleId drawn, w)
  | .now, w => ((5 : Int), w)
  | .relativePath _ _, w =>
      ((if w.backups (sampleBackupPath drawn) = none then .ok (sampleBackupPath drawn)
        else .error .cancelled : AppResult Text), w)
  | .connect _, w => ((.ok id : AppResult (Text → Text)), w)
  | .backup remotePath relativePath, w =>
      match w.remote remotePath with
      | none => ((.ok none : AppResult (Option Backup)), w)
      | some content =>
          if w.backups relativePath = none then
            ((.ok (some ⟨relativePath, 1, sampleHash content⟩) : AppResult (Option Backup)),
              w.store relativePath (some content))
          else ((.error .cancelled : AppResult (Option Backup)), w.store relativePath none)
  | .deleteRemoteFile remotePath, w => ((.ok () : AppResult Unit), w.put remotePath none)
  | .localHash relativePath, w =>
      match w.backups relativePath with
      | none => ((.error .cancelled : AppResult Text), w)
      | some content => ((.ok (sampleHash content) : AppResult Text), w)
  | .upload relativePath remotePath, w =>
      match w.backups relativePath with
      | none => ((.error .cancelled : AppResult Text), w.put remotePath none)
      | some content =>
          ((.ok (sampleHash content) : AppResult Text), w.put remotePath (some content))
  | .removeBackup relativePath, w => ((.ok () : AppResult Unit), w.store relativePath none)

theorem sampleRespond_responds (drawn : Fin 10) (question : RestoreQuestion) (w : Files Bool) :
    Responds sampleHash question w (sampleRespond drawn question w).1
      (sampleRespond drawn question w).2 := by
  cases question with
  | drawId | now | connect _ => exact rfl
  | relativePath nodeId remotePath =>
      refine ⟨rfl, fun relativePath hpath => ?_⟩
      dsimp only [sampleRespond] at hpath
      split at hpath
      next hfresh => exact Except.ok.inj hpath ▸ hfresh
      next => cases hpath
  | backup remotePath relativePath =>
      unfold sampleRespond Responds
      dsimp only
      split
      next habsent => exact ⟨habsent, rfl⟩
      next content hfound =>
        split
        next hfree => exact ⟨content, hfound, hfree, rfl, rfl, rfl⟩
        next => exact ⟨none, rfl⟩
  | deleteRemoteFile remotePath => exact rfl
  | localHash relativePath =>
      unfold sampleRespond Responds
      dsimp only
      split
      next => exact ⟨rfl, nofun⟩
      next content hbackup =>
        exact ⟨rfl, fun sha256 hsha => ⟨content, hbackup, (Except.ok.inj hsha).symm⟩⟩
  | upload relativePath remotePath =>
      unfold sampleRespond Responds
      dsimp only
      split
      next => exact ⟨none, rfl⟩
      next content hbackup => exact ⟨content, hbackup, rfl, rfl⟩
  | removeBackup relativePath => exact ⟨none, rfl⟩

/-- A node captures the file. -/
def sampleCaptured (drawn : Fin 10) (c : RestoreState × Files Bool) : RestoreState × Files Bool :=
  (runThrough (sampleRespond drawn) (capture (sampleId 0) ['s'] "/f".toList).run c.1 c.2).2

/-- The node changes the file. -/
def sampleChanged (c : RestoreState × Files Bool) : RestoreState × Files Bool :=
  (c.1, { c.2 with remote := fun _ => some true })

def firstCaptured (first : Fin 10) : RestoreState × Files Bool :=
  sampleCaptured first (runningRun, { remote := fun _ => some false, backups := fun _ => none })

/-- Two nodes capture one file in one millisecond; the first one changes it, and the run ends. -/
def bothCaptured (first second : Fin 10) : RestoreState × Files Bool :=
  let c := sampleCaptured second (sampleChanged (firstCaptured first))
  ({ c.1 with tables := (sampleRun .succeeded none).tables }, c.2)

def tiedCaptures (first second : Fin 10) : List (Captured Bool) :=
  [⟨sampleId first, 5, "/f".toList, some false⟩, ⟨sampleId second, 5, "/f".toList, some true⟩]

/-- The point of a capture. -/
def samplePoint (drawn : Fin 10) (content : Bool) : WorkflowRestorePoint where
  id := sampleId drawn
  nodeId := sampleId 0
  remotePath := "/f".toList
  relativePath := some (sampleBackupPath drawn)
  originalExisted := true
  sizeBytes := some 1
  sha256 := some (sampleHash content)
  status := .available
  applicability := applicability ['s'] "/f".toList
  errorMessage := none
  createdAt := 5

/-- One more capture, at the time of the others. -/
theorem sampleCaptured_course {captures : List (Captured Bool)} (c : RestoreState × Files Bool)
    (hcourse : Course sampleHash ['s'] captures c.1 c.2)
    (htimes : ∀ earlier ∈ captures, earlier.createdAt = 5) (drawn : Fin 10) {content : Bool}
    (hnew : (sampleCaptured drawn c).1.captured = sampleId drawn :: c.1.captured)
    (points : Points)
    (hpoints : (sampleCaptured drawn c).1.points = points ++ [samplePoint drawn content]) :
    Course sampleHash ['s']
      (captures ++ [⟨sampleId drawn, 5, "/f".toList, c.2.remote "/f".toList⟩])
      (sampleCaptured drawn c).1 (sampleCaptured drawn c).2 := by
  have hpoint : samplePoint drawn content ∈ (sampleCaptured drawn c).1.points := by
    rw [hpoints]
    exact List.mem_append_right _ (List.mem_singleton.mpr rfl)
  exact .captured (sampleId 0) "/f".toList (samplePoint drawn content) hcourse
    (runThrough_reaches (sampleRespond_responds drawn) _ c.1 c.2) hnew hpoint
    fun earlier hearlier => (htimes earlier hearlier).le

theorem bothCaptured_course {first second : Fin 10}
    (h : first = 1 ∧ second = 2 ∨ first = 2 ∧ second = 1) :
    Course sampleHash ['s'] (tiedCaptures first second) (bothCaptured first second).1
      (bothCaptured first second).2 := by
  have hstart : Course sampleHash ['s'] [] runningRun
      { remote := fun _ => some false, backups := fun _ => none } := .started rfl rfl
  have hnone : ∀ earlier ∈ ([] : List (Captured Bool)), earlier.createdAt = 5 :=
    fun _ hnone => absurd hnone List.not_mem_nil
  have htimes : ∀ earlier ∈ [(⟨sampleId first, 5, "/f".toList, some false⟩ : Captured Bool)],
      earlier.createdAt = 5 := fun earlier hearlier => List.mem_singleton.mp hearlier ▸ rfl
  rcases h with ⟨rfl, rfl⟩ | ⟨rfl, rfl⟩
  · have hone := sampleCaptured_course (runningRun, _) hstart hnone 1 rfl [] rfl
    have htwo := sampleCaptured_course (sampleChanged (firstCaptured 1))
      (hone.changed fun _ => some true) htimes 2 rfl [samplePoint 1 false] rfl
    exact htwo.advanced _
  · have hone := sampleCaptured_course (runningRun, _) hstart hnone 2 rfl [] rfl
    have htwo := sampleCaptured_course (sampleChanged (firstCaptured 2))
      (hone.changed fun _ => some true) htimes 1 rfl [samplePoint 2 false] rfl
    exact htwo.advanced _

/-- The rollback of the run, and the files after it. -/
def rolledBack (first second : Fin 10) :
    AppResult (WorkflowRunRecord × Points) × RestoreState × Files Bool :=
  runThrough (sampleRespond 0) (rollbackRun true).run (bothCaptured first second).1
    (bothCaptured first second).2

theorem rolledBack_reaches (first second : Fin 10) :
    ReachesWith (Responds sampleHash)
      ((rollbackRun true).run, (bothCaptured first second).1, (bothCaptured first second).2)
      (.done (rolledBack first second).1, (rolledBack first second).2) :=
  runThrough_reaches (sampleRespond_responds 0) _ _ _

/-- **With the identifiers in the order of the captures the earliest content is restored.** -/
theorem orderedTie_restored : RestoresEarliest (tiedCaptures 1 2) (rolledBack 1 2).2.2 := by
  have hcourse := bothCaptured_course (.inl ⟨rfl, rfl⟩)
  refine (rollback_restores_iff hcourse (rolledBack_reaches 1 2) rfl).mpr ?_
  intro first hfirst least hleast
  obtain ⟨hmem, hpath, -, hfewer⟩ := hleast
  have hfile : first.path = "/f".toList := by
    rcases List.mem_pair.mp hfirst.mem with rfl | rfl <;> rfl
  obtain rfl : first = ⟨sampleId 1, 5, "/f".toList, some false⟩ := by
    unfold IsFirst at hfirst
    rw [hfile] at hfirst
    exact (Option.some.inj hfirst).symm
  rcases List.mem_pair.mp hmem with rfl | rfl
  · rfl
  · exact absurd (by decide) (hfewer _ List.mem_cons_self rfl rfl)

/-- **The second capture draws the lesser identifier, and its content is what stays.** -/
theorem reversedTie_not_restored :
    Course sampleHash ['s'] (tiedCaptures 2 1) (bothCaptured 2 1).1 (bothCaptured 2 1).2
      ∧ ReachesWith (Responds sampleHash)
          ((rollbackRun true).run, (bothCaptured 2 1).1, (bothCaptured 2 1).2)
          (.done (rolledBack 2 1).1, (rolledBack 2 1).2)
      ∧ (rolledBack 2 1).1.toOption.map (fun details => details.1.status) = some .rolledBack
      ∧ ¬ RestoresEarliest (tiedCaptures 2 1) (rolledBack 2 1).2.2 := by
  refine ⟨bothCaptured_course (.inr ⟨rfl, rfl⟩), rolledBack_reaches 2 1, rfl, fun hearliest => ?_⟩
  have hfound := hearliest ⟨sampleId 2, 5, "/f".toList, some false⟩ rfl
  cases hfound

end QingzhouSSH.Services.WorkflowRollbacks
