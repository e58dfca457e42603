/-
  QingzhouSSH.Core.Updates.StateStore — the state of the updater that is kept on disk.

  The file holds one record; `load` reads the whole of it and `save` replaces the whole of it.
  How a path is cut into components depends on the platform (`PathCrate`).
-/
import QingzhouSSH.Domain.Update

namespace QingzhouSSH.Core.Updates

open QingzhouSSH.Domain

inductive StoredCheckStatus where
  | upToDate
  | available
  | failed
  deriving Repr, DecidableEq

structure StoredCheckResult where
  status : StoredCheckStatus
  version : Option Text
  source : Option UpdateSource
  message : Option Text
  deriving Repr, DecidableEq

structure UpdatePersistentState where
  autoCheck : Bool
  lastCheckedAt : Option Nat
  lastResult : Option StoredCheckResult
  stagedFile : Option Text
  deriving Repr, DecidableEq

namespace UpdatePersistentState

def default : UpdatePersistentState :=
  { autoCheck := true, lastCheckedAt := none, lastResult := none, stagedFile := none }

/-- `automatic_check_due`, in seconds. -/
def automaticCheckDue (now interval : Nat) (state : UpdatePersistentState) : Bool :=
  if !state.autoCheck then false
  else match state.lastCheckedAt with
    | none => true
    | some last => interval ≤ now - last

end UpdatePersistentState

inductive UpdateStateStoreError where
  | io (message : Text)
  | serialization (message : Text)
  | invalidStagedPath (path : Text)
  | atomicWrite (message : Text)
  deriving Repr, DecidableEq

/-- A component of a path: a name, or a root, a prefix or a step up. -/
inductive PathComponent where
  | normal (name : Text)
  | other
  deriving Repr, DecidableEq

/-- `Path::components` of the platform. -/
class PathCrate where
  components : Text → List PathComponent

variable [PathCrate]

/-- `validate_staged_file`. -/
def validateStagedFile : Option Text → Except UpdateStateStoreError Unit
  | none => .ok ()
  | some value =>
      let components := PathCrate.components value
      if !components.isEmpty && components.length ≤ 4
          && components.head? == some (.normal "staged".toList)
          && components.all fun component => component != .other then
        .ok ()
      else .error (.invalidStagedPath value)

/-- `UpdateStateStore::load`, where the file can be read. -/
def load (stored : UpdatePersistentState) : Except UpdateStateStoreError UpdatePersistentState := do
  validateStagedFile stored.stagedFile
  return stored

/-- `UpdateStateStore::save`, where the file can be replaced: what is stored afterwards. -/
def save (state : UpdatePersistentState) : Except UpdateStateStoreError UpdatePersistentState := do
  validateStagedFile state.stagedFile
  return state

theorem load_eq_ok {stored state : UpdatePersistentState} (h : load stored = .ok state) :
    state = stored := by
  unfold load at h
  cases hvalid : validateStagedFile stored.stagedFile with
  | ok _ =>
      rw [hvalid] at h
      exact (Except.ok.inj h).symm
  | error e =>
      rw [hvalid] at h
      cases h

theorem save_eq_ok {state stored : UpdatePersistentState} (h : save state = .ok stored) :
    stored = state :=
  load_eq_ok h

end QingzhouSSH.Core.Updates
