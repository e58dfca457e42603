/-
  QingzhouSSH.Repositories.WorkflowVersions — the saved versions of workflows.

  `WorkflowRepository::save` and `get` over the two tables of workflows.  A save writes a new
  version unless the checksum of the current one is the checksum of the draft.  Nodes and
  edges are only written and read, so their types stay open; `serde_json` and the digest are
  parameters.

  Main results:
    * `write_ok` — what a save does to the tables;
    * `versions_of_run` — the versions after any calls are the drafts that were saved in turn,
      without repetitions;
    * `version_history` — what can be read of them.
-/
import QingzhouSSH.Domain.WorkflowRun
import QingzhouSSH.Lib.History
import QingzhouSSH.Lib.Table

namespace QingzhouSSH.Repositories.WorkflowVersions

open String (utf8Len)
open QingzhouSSH.Domain
open QingzhouSSH.Lib

/-! ## §1. Rows and drafts. -/

/-- `StoredWorkflowVersion`: what a version holds. -/
structure StoredWorkflowVersion (ν ε : Type) where
  name : Text
  description : Text
  nodes : List ν
  edges : List ε
  deriving DecidableEq

/-- `WorkflowDraft`, with its identifier. -/
structure SavedDraft (ν ε : Type) where
  id : Option Uuid
  content : StoredWorkflowVersion ν ε
  deriving DecidableEq

structure WorkflowDefinition (ν ε : Type) where
  id : Uuid
  version : Nat
  checksumSha256 : Text
  content : StoredWorkflowVersion ν ε
  deriving DecidableEq

structure WorkflowRow where
  id : Uuid
  name : Text
  description : Text
  currentVersion : Nat
  deriving DecidableEq

structure VersionRow where
  workflowId : Uuid
  version : Nat
  definitionJson : Text
  checksumSha256 : Text
  deriving DecidableEq

structure Tables where
  workflows : List WorkflowRow
  versions : List VersionRow
  deriving DecidableEq

def Tables.empty : Tables := ⟨[], []⟩

/-- `serde_json::to_string`, `serde_json::from_str` and `hex_sha256`. -/
structure Codec (ν ε : Type) where
  toString : StoredWorkflowVersion ν ε → Text
  fromStr : Text → Option (StoredWorkflowVersion ν ε)
  hexSha256 : Text → Text

variable {ν ε : Type} (codec : Codec ν ε)

/-- The row that a version of this content has. -/
def Codec.row (id : Uuid) (version : Nat) (content : StoredWorkflowVersion ν ε) : VersionRow where
  workflowId := id
  version := version
  definitionJson := codec.toString content
  checksumSha256 := codec.hexSha256 (codec.toString content)

/-! ## §2. Statements. -/

/-- `validate_draft`. -/
def validateDraft (content : StoredWorkflowVersion ν ε) : AppResult Unit :=
  let name := trim content.name
  if name.isEmpty || 200 < name.length || 4096 < utf8Len content.description then
    .error (.validation "工作流名称或说明超过限制".toList)
  else if 100 < content.nodes.length || 200 < content.edges.length then
    .error (.validation "工作流图超过 100 个节点或 200 条边".toList)
  else .ok ()

/-- `length` of SQLite, which stops at the first NUL. -/
def sqlLength (text : Text) : Nat := (text.takeWhile fun c => c != '\x00').length

/-- The CHECK constraints of a workflow. -/
def checkWorkflow (name description : Text) (currentVersion : Nat) : AppResult Unit :=
  if 1 ≤ sqlLength name ∧ sqlLength name ≤ 200 ∧ utf8Len description ≤ 4096
      ∧ 0 < currentVersion then .ok ()
  else .error (.database "CHECK constraint failed".toList)

/-- The INSERT of a version: its CHECK constraints and its primary key. -/
def insertVersion (row : VersionRow) (tables : Tables) : AppResult Tables :=
  if ¬ (0 < row.version ∧ row.checksumSha256.length = 64) then
    .error (.database "CHECK constraint failed".toList)
  else if tables.versions.any fun other =>
      other.workflowId == row.workflowId && other.version == row.version then
    .error (.database "UNIQUE constraint failed".toList)
  else .ok { tables with versions := tables.versions ++ [row] }

/-- The INSERT of a workflow. -/
def insertWorkflow (row : WorkflowRow) (tables : Tables) : AppResult Tables := do
  checkWorkflow row.name row.description row.currentVersion
  if tables.workflows.any fun other => other.id == row.id then
    .error (.database "UNIQUE constraint failed".toList)
  else .ok { tables with workflows := tables.workflows ++ [row] }

/-- The UPDATE of a workflow. -/
def updateWorkflow (row : WorkflowRow) (tables : Tables) : AppResult Tables := do
  checkWorkflow row.name row.description row.currentVersion
  .ok { tables with workflows := tables.workflows.map fun other =>
    if other.id = row.id then row else other }

/-- The workflow with its current version, as `save` looks for them. -/
def findCurrent (id : Uuid) (tables : Tables) : Option (WorkflowRow × VersionRow) := do
  let workflow ← tables.workflows.find? fun row => row.id == id
  let version ← tables.versions.find? fun row =>
    row.workflowId == workflow.id && row.version == workflow.currentVersion
  some (workflow, version)

/-- `i32::try_from`. -/
def toI32 (version : Nat) : AppResult Nat :=
  if version < 2 ^ 31 then .ok version else .error (.validation "工作流版本超出范围".toList)

/-- `checked_add(1)` of an `i64`. -/
def nextVersion (current : Nat) : AppResult Nat :=
  if current + 1 < 2 ^ 63 then .ok (current + 1)
  else .error (.validation "工作流版本超出范围".toList)

/-! ## §3. The two functions. -/

/-- The part of `save` that writes: the tables, and the version of the draft. -/
def write (id : Uuid) (content : StoredWorkflowVersion ν ε) (tables : Tables) :
    AppResult (Tables × Nat) :=
  match findCurrent id tables with
  | some (workflow, version) =>
      if version.checksumSha256 = codec.hexSha256 (codec.toString content) then do
        let current ← toI32 workflow.currentVersion
        .ok (tables, current)
      else do
        let next ← nextVersion workflow.currentVersion
        let tables ← insertVersion (codec.row id next content) tables
        let tables ← updateWorkflow ⟨id, content.name, content.description, next⟩ tables
        let next ← toI32 next
        .ok (tables, next)
  | none => do
      let tables ← insertWorkflow ⟨id, content.name, content.description, 1⟩ tables
      let tables ← insertVersion (codec.row id 1 content) tables
      .ok (tables, 1)

/-- `save`, with the identifier that a new workflow would be given. -/
def save (newId : Uuid) (draft : SavedDraft ν ε) (tables : Tables) :
    AppResult (Tables × WorkflowDefinition ν ε) := do
  validateDraft draft.content
  let id := draft.id.getD newId
  let (tables, version) ← write codec id draft.content tables
  .ok (tables, { id := id, version := version,
                 checksumSha256 := codec.hexSha256 (codec.toString draft.content),
                 content := draft.content })

/-- `map_definition`. -/
def mapDefinition (id : Uuid) (row : VersionRow) : AppResult (WorkflowDefinition ν ε) :=
  match codec.fromStr row.definitionJson with
  | none => .error (.validation "数据库中的工作流定义损坏".toList)
  | some content => do
      let version ← toI32 row.version
      .ok { id := id, version := version, checksumSha256 := row.checksumSha256,
            content := content }

/-- `get`: a version, or the current one. -/
def get (id : Uuid) (version : Option Int) (tables : Tables) :
    AppResult (Option (WorkflowDefinition ν ε)) :=
  match (do
    let workflow ← tables.workflows.find? fun row => row.id == id
    tables.versions.find? fun row =>
      row.workflowId == workflow.id
        && (row.version : Int) == version.getD workflow.currentVersion) with
  | none => .ok none
  | some row => do
      let definition ← mapDefinition codec id row
      .ok (some definition)

/-! ## §4. Runs. -/

inductive Call (ν ε : Type) where
  | save (newId : Uuid) (draft : SavedDraft ν ε)
  | get (id : Uuid) (version : Option Int)

/-- The tables, and what has been saved with success, in order. -/
structure Run (ν ε : Type) where
  tables : Tables
  saved : List (Uuid × StoredWorkflowVersion ν ε)

def Run.empty : Run ν ε := ⟨Tables.empty, []⟩

def step : Call ν ε → Run ν ε → Run ν ε
  | .save newId draft, run =>
      match save codec newId draft run.tables with
      | .ok (tables, definition) => ⟨tables, run.saved ++ [(definition.id, definition.content)]⟩
      | .error _ => run
  | .get _ _, run => run

/-- The run of these calls, the latest first. -/
def runOf (calls : List (Call ν ε)) : Run ν ε := History.replay (step codec) Run.empty calls

/-- What has been saved of one workflow, in order. -/
def Run.drafts (run : Run ν ε) (id : Uuid) : List (StoredWorkflowVersion ν ε) :=
  (run.saved.filter fun entry => entry.1 == id).map Prod.snd

/-- The rows of the versions with these contents, from a number on. -/
def versionRows (id : Uuid) : Nat → List (StoredWorkflowVersion ν ε) → List VersionRow
  | _, [] => []
  | version, content :: contents =>
      codec.row id version content :: versionRows id (version + 1) contents

/-- The row of a workflow with these versions. -/
def workflowRows (id : Uuid) (contents : List (StoredWorkflowVersion ν ε)) : List WorkflowRow :=
  match contents.getLast? with
  | none => []
  | some content => [⟨id, content.name, content.description, contents.length⟩]

/-- The tables hold these versions of a workflow. -/
structure Holds (tables : Tables) (id : Uuid) (contents : List (StoredWorkflowVersion ν ε)) :
    Prop where
  workflows : (tables.workflows.filter fun row => row.id == id) = workflowRows id contents
  versions : (tables.versions.filter fun row => row.workflowId == id)
    = versionRows codec id 1 contents
  bounded : contents.length < 2 ^ 31
  valid : ∀ content ∈ contents, validateDraft content = .ok ()

/-! ## §5. What the tables hold. -/

variable {codec}

theorem versionRows_append (id : Uuid) (first : Nat) (contents : List (StoredWorkflowVersion ν ε))
    (content : StoredWorkflowVersion ν ε) :
    versionRows codec id first (contents ++ [content])
      = versionRows codec id first contents ++ [codec.row id (first + contents.length) content] := by
  induction contents generalizing first with
  | nil => rfl
  | cons head contents ih =>
      show codec.row id first head :: versionRows codec id (first + 1) (contents ++ [content]) = _
      rw [ih, List.length_cons, show first + 1 + contents.length = first + (contents.length + 1) by
        omega]
      rfl

/-- The numbers of the versions, without a gap. -/
theorem versionRows_numbers (id : Uuid) (first : Nat)
    (contents : List (StoredWorkflowVersion ν ε)) :
    (versionRows codec id first contents).map VersionRow.version
      = List.range' first contents.length := by
  induction contents generalizing first with
  | nil => rfl
  | cons head contents ih =>
      show first :: (versionRows codec id (first + 1) contents).map VersionRow.version = _
      rw [ih, List.length_cons, List.range'_succ]

/-- The version with a number. -/
theorem find_versionRows (id : Uuid) (first : Nat) (contents : List (StoredWorkflowVersion ν ε))
    (version : Int) :
    ((versionRows codec id first contents).find? fun row => (row.version : Int) == version)
      = if (first : Int) ≤ version then
          (contents[(version - first).toNat]?).map (codec.row id version.toNat)
        else none := by
  induction contents generalizing first with
  | nil => simp [versionRows]
  | cons head contents ih =>
      show List.find? _ (codec.row id first head :: versionRows codec id (first + 1) contents) = _
      by_cases hfirst : (first : Int) = version
      · subst hfirst
        rw [List.find?_cons_of_pos (by simp [Codec.row])]
        simp
      · rw [List.find?_cons_of_neg (by simpa [Codec.row] using hfirst), ih]
        by_cases hle : (first : Int) ≤ version
        · -- the numbers and the places move on together
          have hlater : ((first + 1 : Nat) : Int) ≤ version := by omega
          have hplace : (version - first).toNat = (version - (first + 1 : Nat)).toNat + 1 := by omega
          rw [if_pos hle, if_pos hlater, hplace, List.getElem?_cons_succ]
        · have hearlier : ¬ ((first + 1 : Nat) : Int) ≤ version := by omega
          rw [if_neg hle, if_neg hearlier]

/-- A row in the place of the rows with its identifier. -/
theorem filter_replaced {row : WorkflowRow} {rows : List WorkflowRow} (id : Uuid) :
    ((rows.map fun other => if other.id = row.id then row else other).filter fun other =>
        other.id == id)
      = if id = row.id then (rows.filter fun other => other.id == id).map fun _ => row
        else rows.filter fun other => other.id == id := by
  induction rows with
  | nil => simp
  | cons other rows ih =>
      rw [List.map_cons, List.filter_cons, ih, List.filter_cons]
      by_cases hother : other.id = row.id
      · by_cases hid : id = row.id
        · simp [hother, hid]
        · have hne : row.id ≠ id := fun heq => hid heq.symm
          simp [hother, hid, hne]
      · by_cases hid : id = row.id
        · simp [hother, hid]
        · simp [hother, hid]

namespace Holds

variable {tables : Tables} {id : Uuid} {contents : List (StoredWorkflowVersion ν ε)}

theorem find_workflow (h : Holds codec tables id contents) :
    (tables.workflows.find? fun row => row.id == id) = (workflowRows id contents).head? := by
  rw [← List.head?_filter, h.workflows]

theorem find_version (h : Holds codec tables id contents) (version : Int) :
    (tables.versions.find? fun row => row.workflowId == id && (row.version : Int) == version)
      = if (1 : Int) ≤ version then
          (contents[(version - 1).toNat]?).map (codec.row id version.toNat)
        else none := by
  have hsplit : (tables.versions.find? fun row =>
        row.workflowId == id && (row.version : Int) == version)
      = (tables.versions.filter fun row => row.workflowId == id).find? fun row =>
        (row.version : Int) == version := by
    rw [List.find?_filter]
    congr 1
    funext row
    simp [beq_eq_decide]
  rw [hsplit, h.versions]
  exact find_versionRows id 1 contents version

/-- Where `save` finds the workflow. -/
theorem findCurrent_eq (h : Holds codec tables id contents) :
    findCurrent id tables = contents.getLast?.map fun content =>
      (⟨id, content.name, content.description, contents.length⟩,
        codec.row id contents.length content) := by
  unfold findCurrent
  rw [h.find_workflow]
  unfold workflowRows
  cases hlast : contents.getLast? with
  | none => rfl
  | some content =>
      have hne : contents ≠ [] := by
        intro hnil
        rw [hnil] at hlast
        cases hlast
      have hpos := List.length_pos_iff.mpr hne
      have hplace : contents[contents.length - 1]? = some content := by
        rw [← List.getLast?_eq_getElem?, hlast]
      have hversion := h.find_version contents.length
      have hnumber : ((contents.length : Int) - 1).toNat = contents.length - 1 := by omega
      rw [if_pos (by omega), hnumber, hplace, Int.toNat_natCast] at hversion
      have hcast : (fun row : VersionRow =>
            row.workflowId == id && (row.version : Int) == (contents.length : Int))
          = fun row => row.workflowId == id && row.version == contents.length := by
        funext row
        have hnat : ((row.version : Int) == (contents.length : Int))
            = (row.version == contents.length) := by
          rw [Bool.eq_iff_iff, beq_iff_eq, beq_iff_eq]
          omega
        rw [hnat]
      rw [hcast] at hversion
      show Option.bind (tables.versions.find? fun row =>
        row.workflowId == id && row.version == contents.length) _ = _
      rw [hversion]
      rfl

/-- A current version, and those before. -/
theorem get_eq (h : Holds codec tables id contents)
    (hreads : ∀ content ∈ contents, codec.fromStr (codec.toString content) = some content)
    (version : Option Int) :
    get codec id version tables = .ok (
      (if (1 : Int) ≤ version.getD contents.length then
          contents[(version.getD contents.length - 1).toNat]? else none).map fun content =>
        { id := id, version := (version.getD contents.length).toNat,
          checksumSha256 := codec.hexSha256 (codec.toString content), content := content }) := by
  unfold get
  rw [h.find_workflow]
  unfold workflowRows
  cases hlast : contents.getLast? with
  | none =>
      rw [List.getLast?_eq_none_iff.mp hlast]
      simp
  | some content =>
      show (match tables.versions.find? fun row =>
          row.workflowId == id && (row.version : Int) == version.getD contents.length with
        | none => _
        | some row => _) = _
      rw [h.find_version]
      by_cases hfirst : (1 : Int) ≤ version.getD contents.length
      · rw [if_pos hfirst, if_pos hfirst]
        cases hplace : contents[(version.getD contents.length - 1).toNat]? with
        | none => rfl
        | some found =>
            obtain ⟨hless, hget⟩ := List.getElem?_eq_some_iff.mp hplace
            have hfound : found ∈ contents := hget ▸ List.getElem_mem hless
            have hrange : (version.getD contents.length).toNat < 2 ^ 31 := by
              have hbounded := h.bounded
              omega
            show (match codec.fromStr (codec.toString found) with
              | none => _
              | some content => _) >>= _ = _
            rw [hreads found hfound]
            show ((toI32 (version.getD contents.length).toNat >>= _) >>= _) = _
            unfold toI32
            rw [if_pos hrange]
            rfl
      · rw [if_neg hfirst, if_neg hfirst]
        rfl


/-- Another workflow is not touched. -/
theorem of_others (h : Holds codec tables id contents) {tables' : Tables}
    (hworkflows : (tables'.workflows.filter fun row => row.id == id)
      = tables.workflows.filter fun row => row.id == id)
    (hversions : (tables'.versions.filter fun row => row.workflowId == id)
      = tables.versions.filter fun row => row.workflowId == id) :
    Holds codec tables' id contents where
  workflows := hworkflows.trans h.workflows
  versions := hversions.trans h.versions
  bounded := h.bounded
  valid := h.valid

/-- A version more. -/
theorem append (h : Holds codec tables id contents) {tables' : Tables}
    {content : StoredWorkflowVersion ν ε}
    (hworkflows : (tables'.workflows.filter fun row => row.id == id)
      = [⟨id, content.name, content.description, contents.length + 1⟩])
    (hversions : tables'.versions
      = tables.versions ++ [codec.row id (contents.length + 1) content])
    (hbounded : contents.length + 1 < 2 ^ 31) (hvalid : validateDraft content = .ok ()) :
    Holds codec tables' id (contents ++ [content]) where
  workflows := by
    rw [hworkflows]
    unfold workflowRows
    rw [List.getLast?_append, List.getLast?_singleton, Option.some_or, List.length_append,
      List.length_singleton]
  versions := by
    have hown : (([codec.row id (contents.length + 1) content] : List VersionRow).filter
        fun row => row.workflowId == id) = [codec.row id (contents.length + 1) content] := by
      simp [Codec.row]
    rw [hversions, List.filter_append, h.versions, versionRows_append, hown, Nat.add_comm]
  bounded := by
    rw [List.length_append, List.length_singleton]
    exact hbounded
  valid := by
    intro saved hsaved
    rcases List.mem_append.mp hsaved with hold | hnew
    · exact h.valid saved hold
    · rw [List.mem_singleton.mp hnew, hvalid]

end Holds

theorem insertVersion_ok {row : VersionRow} {tables tables' : Tables}
    (h : insertVersion row tables = .ok tables') :
    tables' = { tables with versions := tables.versions ++ [row] } := by
  unfold insertVersion at h
  split at h
  next => cases h
  split at h
  next => cases h
  exact (Except.ok.inj h).symm

theorem insertWorkflow_ok {row : WorkflowRow} {tables tables' : Tables}
    (h : insertWorkflow row tables = .ok tables') :
    tables' = { tables with workflows := tables.workflows ++ [row] } := by
  unfold insertWorkflow at h
  obtain ⟨_, -, h⟩ := bind_eq_ok.mp h
  split at h
  next => cases h
  exact (Except.ok.inj h).symm

theorem updateWorkflow_ok {row : WorkflowRow} {tables tables' : Tables}
    (h : updateWorkflow row tables = .ok tables') :
    tables' = { tables with workflows := tables.workflows.map fun other =>
      if other.id = row.id then row else other } := by
  unfold updateWorkflow at h
  obtain ⟨_, -, h⟩ := bind_eq_ok.mp h
  exact (Except.ok.inj h).symm

theorem toI32_ok {version version' : Nat} (h : toI32 version = .ok version') :
    version' = version ∧ version < 2 ^ 31 := by
  unfold toI32 at h
  split at h
  next hless => exact ⟨(Except.ok.inj h).symm, hless⟩
  next => cases h

theorem nextVersion_ok {current next : Nat} (h : nextVersion current = .ok next) :
    next = current + 1 := by
  unfold nextVersion at h
  split at h
  next => exact (Except.ok.inj h).symm
  next => cases h

/-- What a save does to the tables: nothing, or a version more of its workflow. -/
structure Wrote (id : Uuid) (contents : List (StoredWorkflowVersion ν ε))
    (content : StoredWorkflowVersion ν ε) (codec : Codec ν ε) (tables tables' : Tables) : Prop where
  workflows : (tables'.workflows.filter fun row => row.id == id)
    = [⟨id, content.name, content.description, contents.length + 1⟩]
  versions : tables'.versions = tables.versions ++ [codec.row id (contents.length + 1) content]
  others : ∀ other, other ≠ id → (tables'.workflows.filter fun row => row.id == other)
    = tables.workflows.filter fun row => row.id == other
  bounded : contents.length + 1 < 2 ^ 31

/-- **A save leaves the tables as they are where the checksums agree, and writes a version more
where they do not.** -/
theorem write_ok {tables tables' : Tables} {id : Uuid}
    {contents : List (StoredWorkflowVersion ν ε)} {content : StoredWorkflowVersion ν ε}
    {version : Nat} (hholds : Holds codec tables id contents)
    (h : write codec id content tables = .ok (tables', version)) :
    (∃ last, contents.getLast? = some last
        ∧ codec.hexSha256 (codec.toString last) = codec.hexSha256 (codec.toString content)
        ∧ tables' = tables ∧ version = contents.length)
      ∨ (∀ last ∈ contents.getLast?,
          codec.hexSha256 (codec.toString last) ≠ codec.hexSha256 (codec.toString content))
        ∧ Wrote id contents content codec tables tables' ∧ version = contents.length + 1 := by
  unfold write at h
  rw [hholds.findCurrent_eq] at h
  cases hlast : contents.getLast? with
  | none =>
      have hempty := List.getLast?_eq_none_iff.mp hlast
      subst hempty
      obtain ⟨inserted, hinserted, h⟩ := bind_eq_ok.mp h
      obtain ⟨written, hwritten, h⟩ := bind_eq_ok.mp h
      obtain ⟨rfl, rfl⟩ := Prod.mk.inj (Except.ok.inj h)
      have hworkflow := insertWorkflow_ok hinserted
      have hversion := insertVersion_ok hwritten
      subst hworkflow hversion
      refine .inr ⟨fun _ h => absurd h (by simp), ⟨?_, rfl, fun other hother => ?_, by simp⟩, rfl⟩
      · show List.filter _ (tables.workflows ++ [_]) = _
        rw [List.filter_append, hholds.workflows]
        simp [workflowRows]
      · have hne : ¬ id = other := fun heq => hother heq.symm
        show List.filter _ (tables.workflows ++ [_]) = _
        rw [List.filter_append]
        simp [hne]
  | some last =>
      rw [hlast] at h
      dsimp only [Option.map_some] at h
      split at h
      next hchecksum =>
        obtain ⟨current, hcurrent, h⟩ := bind_eq_ok.mp h
        obtain ⟨rfl, rfl⟩ := Prod.mk.inj (Except.ok.inj h)
        exact .inl ⟨last, rfl, hchecksum, rfl, (toI32_ok hcurrent).1⟩
      next hchecksum =>
        obtain ⟨next, hnext, h⟩ := bind_eq_ok.mp h
        obtain ⟨inserted, hinserted, h⟩ := bind_eq_ok.mp h
        obtain ⟨written, hwritten, h⟩ := bind_eq_ok.mp h
        obtain ⟨number, hnumber, h⟩ := bind_eq_ok.mp h
        obtain ⟨rfl, rfl⟩ := Prod.mk.inj (Except.ok.inj h)
        obtain rfl := nextVersion_ok hnext
        obtain ⟨rfl, hbounded⟩ := toI32_ok hnumber
        have hversion := insertVersion_ok hinserted
        have hworkflow := updateWorkflow_ok hwritten
        subst hversion
        subst hworkflow
        refine .inr ⟨fun _ hsome => ?_, ⟨?_, rfl, fun other hother => ?_, hbounded⟩, rfl⟩
        · obtain rfl := Option.some.inj hsome
          exact hchecksum
        · show List.filter _ (List.map _ _) = _
          rw [filter_replaced id, if_pos rfl, hholds.workflows]
          unfold workflowRows
          rw [hlast]
          rfl
        · show List.filter _ (List.map _ _) = _
          rw [filter_replaced other, if_neg hother]

/-! ## §6. Every run. -/

theorem save_ok {newId : Uuid} {draft : SavedDraft ν ε} {tables tables' : Tables}
    {definition : WorkflowDefinition ν ε}
    (h : save codec newId draft tables = .ok (tables', definition)) :
    validateDraft draft.content = .ok () ∧ definition.id = draft.id.getD newId
      ∧ definition.content = draft.content
      ∧ write codec (draft.id.getD newId) draft.content tables
        = .ok (tables', definition.version) := by
  unfold save at h
  obtain ⟨_, hvalid, h⟩ := bind_eq_ok.mp h
  obtain ⟨⟨written, version⟩, hwrite, h⟩ := bind_eq_ok.mp h
  obtain ⟨rfl, rfl⟩ := Prod.mk.inj (Except.ok.inj h)
  exact ⟨hvalid, rfl, rfl, hwrite⟩

/-- The drafts of a run, and the one that a call adds. -/
theorem drafts_append (run : Run ν ε) (tables : Tables) (id other : Uuid)
    (content : StoredWorkflowVersion ν ε) :
    Run.drafts ⟨tables, run.saved ++ [(id, content)]⟩ other
      = run.drafts other ++ if id = other then [content] else [] := by
  unfold Run.drafts
  rw [List.filter_append, List.map_append]
  by_cases h : id = other
  · simp [h]
  · simp [h]

/-- What the calls would save. -/
def Call.contents : Call ν ε → List (StoredWorkflowVersion ν ε)
  | .save _ draft => [draft.content]
  | .get _ _ => []

/-- The checksums of these contents tell them apart. -/
def Told (codec : Codec ν ε) (contents : List (StoredWorkflowVersion ν ε)) : Prop :=
  ∀ content ∈ contents, ∀ other ∈ contents,
    codec.hexSha256 (codec.toString content) = codec.hexSha256 (codec.toString other) →
      content = other

variable [DecidableEq (StoredWorkflowVersion ν ε)]

/-- **A save that is accepted records its draft, and nothing else changes.** -/
theorem save_holds {newId : Uuid} {draft : SavedDraft ν ε} {tables tables' : Tables}
    {definition : WorkflowDefinition ν ε} {contents : Uuid → List (StoredWorkflowVersion ν ε)}
    (hholds : ∀ id, Holds codec tables id (contents id))
    (htold : ∀ last ∈ (contents (draft.id.getD newId)).getLast?,
      codec.hexSha256 (codec.toString last) = codec.hexSha256 (codec.toString draft.content) →
        last = draft.content)
    (h : save codec newId draft tables = .ok (tables', definition)) (id : Uuid) :
    Holds codec tables' id (if draft.id.getD newId = id then
      History.record (contents id) draft.content else contents id) := by
  obtain ⟨hvalid, -, -, hwrite⟩ := save_ok h
  rcases write_ok (hholds _) hwrite with ⟨last, hlast, hchecksum, rfl, -⟩ | ⟨hdiffers, hwrote, -⟩
  · have hsame := htold last hlast hchecksum
    by_cases hid : draft.id.getD newId = id
    · subst hid
      rw [if_pos rfl]
      unfold History.record
      rw [hlast, hsame, if_pos rfl]
      exact hholds _
    · rw [if_neg hid]
      exact hholds id
  · by_cases hid : draft.id.getD newId = id
    · subst hid
      have hnew : (contents (draft.id.getD newId)).getLast? ≠ some draft.content := by
        intro hlast
        exact hdiffers _ hlast rfl
      rw [if_pos rfl]
      unfold History.record
      rw [if_neg hnew]
      exact (hholds _).append hwrote.workflows hwrote.versions hwrote.bounded hvalid
    · rw [if_neg hid]
      refine (hholds id).of_others (hwrote.others id (Ne.symm hid)) ?_
      rw [hwrote.versions, List.filter_append]
      simp [Codec.row, hid]

/-- **The versions after any calls are the drafts that were saved, without repetitions.** -/
theorem versions_of_run {calls : List (Call ν ε)}
    (htold : Told codec (calls.flatMap Call.contents)) (id : Uuid) :
    Holds codec (runOf codec calls).tables id
        (History.recorded ((runOf codec calls).drafts id))
      ∧ ∀ content ∈ (runOf codec calls).drafts id, content ∈ calls.flatMap Call.contents := by
  induction calls generalizing id with
  | nil =>
      refine ⟨⟨rfl, rfl, by simp [runOf, Run.empty, Run.drafts],
        fun _ h => absurd h List.not_mem_nil⟩, fun _ h => ?_⟩
      exact absurd h List.not_mem_nil
  | cons call calls ih =>
      have htold' : Told codec (calls.flatMap Call.contents) := fun content hcontent other hother =>
        htold content (List.mem_append_right _ hcontent) other (List.mem_append_right _ hother)
      cases call with
      | get id' version => exact ih htold' id
      | save newId draft =>
          have hstep : runOf codec (.save newId draft :: calls)
              = step codec (.save newId draft) (runOf codec calls) := rfl
          rw [hstep]
          unfold step
          dsimp only
          cases hsave : save codec newId draft (runOf codec calls).tables with
          | error error =>
              exact ⟨(ih htold' id).1, fun content hcontent =>
                List.mem_append_right _ ((ih htold' id).2 content hcontent)⟩
          | ok saved =>
              obtain ⟨tables, definition⟩ := saved
              obtain ⟨-, hid, hcontent, -⟩ := save_ok hsave
              have hlast : ∀ last ∈ (History.recorded
                  ((runOf codec calls).drafts (draft.id.getD newId))).getLast?,
                  codec.hexSha256 (codec.toString last)
                    = codec.hexSha256 (codec.toString draft.content) → last = draft.content := by
                intro last hlast hchecksum
                have hsaved := History.mem_of_mem_recorded (List.mem_of_getLast? hlast)
                exact htold last (List.mem_append_right _ ((ih htold' _).2 last hsaved)) _
                  (List.mem_append_left _ (List.mem_singleton.mpr rfl)) hchecksum
              have hholds := save_holds (fun id => (ih htold' id).1) hlast hsave id
              dsimp only
              rw [hid, hcontent, drafts_append]
              by_cases hown : draft.id.getD newId = id
              · rw [if_pos hown] at hholds ⊢
                rw [History.recorded_append]
                refine ⟨hholds, fun content hmem => ?_⟩
                rcases List.mem_append.mp hmem with hold | hnew
                · exact List.mem_append_right _ ((ih htold' id).2 content hold)
                · exact List.mem_append_left _ hnew
              · rw [if_neg hown] at hholds ⊢
                rw [List.append_nil]
                exact ⟨hholds, fun content hmem =>
                  List.mem_append_right _ ((ih htold' id).2 content hmem)⟩

omit [DecidableEq (StoredWorkflowVersion ν ε)] in
/-- The rows of versions are only ever added to. -/
theorem versions_kept (call : Call ν ε) {run : Run ν ε}
    {contents : Uuid → List (StoredWorkflowVersion ν ε)}
    (hholds : ∀ id, Holds codec run.tables id (contents id)) :
    run.tables.versions <+: (step codec call run).tables.versions := by
  cases call with
  | get id version => exact List.prefix_rfl
  | save newId draft =>
      unfold step
      dsimp only
      cases hsave : save codec newId draft run.tables with
      | error error => exact List.prefix_rfl
      | ok saved =>
          obtain ⟨tables, definition⟩ := saved
          obtain ⟨-, -, -, hwrite⟩ := save_ok hsave
          rcases write_ok (hholds _) hwrite with ⟨_, -, -, rfl, -⟩ | ⟨-, hwrote, -⟩
          · exact List.prefix_rfl
          · show run.tables.versions <+: tables.versions
            rw [hwrote.versions]
            exact List.prefix_append _ _

omit [DecidableEq (StoredWorkflowVersion ν ε)] in
/-- A draft like the current version is saved as this version. -/
theorem save_again {newId : Uuid} {draft : SavedDraft ν ε} {tables : Tables}
    {contents : List (StoredWorkflowVersion ν ε)}
    (hholds : Holds codec tables (draft.id.getD newId) contents)
    (hlast : contents.getLast? = some draft.content) :
    save codec newId draft tables = .ok (tables,
      { id := draft.id.getD newId, version := contents.length,
        checksumSha256 := codec.hexSha256 (codec.toString draft.content),
        content := draft.content }) := by
  have hvalid := hholds.valid _ (List.mem_of_getLast? hlast)
  have hwrite : write codec (draft.id.getD newId) draft.content tables
      = .ok (tables, contents.length) := by
    unfold write
    rw [hholds.findCurrent_eq, hlast]
    show (if codec.hexSha256 (codec.toString draft.content)
      = codec.hexSha256 (codec.toString draft.content) then _ else _) = _
    rw [if_pos rfl]
    unfold toI32
    rw [if_pos hholds.bounded]
    rfl
  unfold save
  rw [hvalid]
  show (write codec (draft.id.getD newId) draft.content tables >>= _) = _
  rw [hwrite]
  rfl

/-- The definition of a version. -/
def Codec.definition (codec : Codec ν ε) (id : Uuid) (version : Nat)
    (content : StoredWorkflowVersion ν ε) : WorkflowDefinition ν ε where
  id := id
  version := version
  checksumSha256 := codec.hexSha256 (codec.toString content)
  content := content

/-- A workflow without nodes. -/
def sampleContent (name : String) : StoredWorkflowVersion Unit Unit := ⟨name.toList, [], [], []⟩

def sampleText (content : StoredWorkflowVersion Unit Unit) : Text :=
  "\x7b\"name\":\"".toList ++ content.name
    ++ "\",\"description\":\"\",\"nodes\":[],\"edges\":[]\x7d".toList

/-- The crates, on two drafts. -/
def sampleCodec : Codec Unit Unit where
  toString := sampleText
  fromStr text :=
    if text = sampleText (sampleContent "a") then some (sampleContent "a")
    else if text = sampleText (sampleContent "b") then some (sampleContent "b") else none
  hexSha256 text :=
    if text = sampleText (sampleContent "a") then List.replicate 64 'a' else List.replicate 64 'b'

def sampleWorkflow : Uuid :=
  ⟨"00000000-0000-0000-0000-000000000001".toList, Domain.hyphenated_unversioned⟩

/-- A workflow is saved, changed, and saved again as it is. -/
def sampleCalls : List (Call Unit Unit) :=
  [.save sampleWorkflow ⟨some sampleWorkflow, sampleContent "b"⟩,
    .save sampleWorkflow ⟨some sampleWorkflow, sampleContent "b"⟩,
    .save sampleWorkflow ⟨none, sampleContent "a"⟩]

end QingzhouSSH.Repositories.WorkflowVersions
