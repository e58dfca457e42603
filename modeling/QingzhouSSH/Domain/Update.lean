/-
  QingzhouSSH.Domain.Update — a release and the life of an update.

  The phases of an update and the transitions between them.  Whatever calls are made, a phase
  from `available` on has a release (`UpdateLifecycle.Held`).
-/
import QingzhouSSH.Core.Error

namespace QingzhouSSH.Domain

inductive UpdateSource where
  | github
  | modelscope
  deriving Repr, DecidableEq

inductive UpdatePhase where
  | idle
  | checking
  | upToDate
  | available
  | downloading
  | downloaded
  | installing
  | failed
  deriving Repr, DecidableEq

structure UpdateRelease where
  version : Text
  notes : Text
  publishedAt : Option Text
  platform : Text
  downloadUrl : Text
  signature : Text
  sha256 : Text
  size : Nat
  buildId : Text
  source : UpdateSource
  deriving Repr, DecidableEq

structure UpdateTransitionError where
  current : UpdatePhase
  next : UpdatePhase
  deriving Repr, DecidableEq

structure UpdateLifecycle where
  phase : UpdatePhase
  release : Option UpdateRelease
  lastError : Option Text
  deriving Repr, DecidableEq

namespace UpdateLifecycle

def default : UpdateLifecycle := { phase := .idle, release := none, lastError := none }

/-- `require`, for a transition from one phase. -/
def require (expected next : UpdatePhase) (l : UpdateLifecycle) : Except UpdateTransitionError Unit :=
  if l.phase = expected then .ok () else .error { current := l.phase, next := next }

def beginCheck (l : UpdateLifecycle) : Except UpdateTransitionError UpdateLifecycle :=
  match l.phase with
  | .idle | .upToDate | .available | .failed =>
      .ok { l with phase := .checking, release := none, lastError := none }
  | current => .error { current := current, next := .checking }

def setUpToDate (l : UpdateLifecycle) : Except UpdateTransitionError UpdateLifecycle := do
  l.require .checking .upToDate
  return { l with phase := .upToDate, release := none }

def setAvailable (release : UpdateRelease) (l : UpdateLifecycle) :
    Except UpdateTransitionError UpdateLifecycle := do
  l.require .checking .available
  return { l with phase := .available, release := some release }

def beginDownload (l : UpdateLifecycle) : Except UpdateTransitionError UpdateLifecycle := do
  l.require .available .downloading
  return { l with phase := .downloading }

def setDownloaded (l : UpdateLifecycle) : Except UpdateTransitionError UpdateLifecycle := do
  l.require .downloading .downloaded
  return { l with phase := .downloaded }

def beginInstall (l : UpdateLifecycle) : Except UpdateTransitionError UpdateLifecycle := do
  l.require .downloaded .installing
  return { l with phase := .installing }

def fail (message : Text) (l : UpdateLifecycle) : UpdateLifecycle :=
  { l with phase := .failed, lastError := some message }

/-! ## §1. What a transition says. -/

theorem beginCheck_eq_ok {l l' : UpdateLifecycle} (h : l.beginCheck = .ok l') :
    l.phase ∈ [.idle, .upToDate, .available, .failed] ∧ l'.phase = .checking := by
  unfold beginCheck at h
  cases hphase : l.phase <;> rw [hphase] at h <;> simp at h <;> subst h <;> simp

/-- A transition from one phase. -/
theorem require_bind_eq_ok {expected next : UpdatePhase} {l l' l'' : UpdateLifecycle}
    (h : (do l.require expected next; return l'' : Except UpdateTransitionError UpdateLifecycle)
      = .ok l') : l.phase = expected ∧ l' = l'' := by
  unfold require at h
  by_cases hphase : l.phase = expected
  · rw [if_pos hphase] at h
    exact ⟨hphase, (Except.ok.inj h).symm⟩
  · rw [if_neg hphase] at h
    cases h

theorem setUpToDate_eq_ok {l l' : UpdateLifecycle} (h : l.setUpToDate = .ok l') :
    l.phase = .checking ∧ l' = { l with phase := .upToDate, release := none } :=
  require_bind_eq_ok h

theorem setAvailable_eq_ok {release : UpdateRelease} {l l' : UpdateLifecycle}
    (h : l.setAvailable release = .ok l') :
    l.phase = .checking ∧ l' = { l with phase := .available, release := some release } :=
  require_bind_eq_ok h

theorem beginDownload_eq_ok {l l' : UpdateLifecycle} (h : l.beginDownload = .ok l') :
    l.phase = .available ∧ l' = { l with phase := .downloading } :=
  require_bind_eq_ok h

theorem setDownloaded_eq_ok {l l' : UpdateLifecycle} (h : l.setDownloaded = .ok l') :
    l.phase = .downloading ∧ l' = { l with phase := .downloaded } :=
  require_bind_eq_ok h

theorem beginInstall_eq_ok {l l' : UpdateLifecycle} (h : l.beginInstall = .ok l') :
    l.phase = .downloaded ∧ l' = { l with phase := .installing } :=
  require_bind_eq_ok h

/-! ## §2. The release of a phase. -/

/-- From `available` on there is a release. -/
def Held (l : UpdateLifecycle) : Prop :=
  l.phase ∈ [.available, .downloading, .downloaded, .installing] → l.release.isSome = true

theorem held_default : default.Held := by
  intro h
  simp [default] at h

theorem Held.beginCheck {l l' : UpdateLifecycle} (h : l.beginCheck = .ok l') : l'.Held := by
  intro hphase
  rw [(beginCheck_eq_ok h).2] at hphase
  simp at hphase

theorem Held.setUpToDate {l l' : UpdateLifecycle} (h : l.setUpToDate = .ok l') : l'.Held := by
  obtain ⟨-, rfl⟩ := setUpToDate_eq_ok h
  intro hphase
  simp at hphase

theorem Held.setAvailable {release : UpdateRelease} {l l' : UpdateLifecycle}
    (h : l.setAvailable release = .ok l') : l'.Held := by
  obtain ⟨-, rfl⟩ := setAvailable_eq_ok h
  exact fun _ => rfl

theorem Held.beginDownload {l l' : UpdateLifecycle} (hheld : l.Held)
    (h : l.beginDownload = .ok l') : l'.Held := by
  obtain ⟨hphase, rfl⟩ := beginDownload_eq_ok h
  exact fun _ => hheld (by simp [hphase])

theorem Held.setDownloaded {l l' : UpdateLifecycle} (hheld : l.Held)
    (h : l.setDownloaded = .ok l') : l'.Held := by
  obtain ⟨hphase, rfl⟩ := setDownloaded_eq_ok h
  exact fun _ => hheld (by simp [hphase])

theorem Held.beginInstall {l l' : UpdateLifecycle} (hheld : l.Held)
    (h : l.beginInstall = .ok l') : l'.Held := by
  obtain ⟨hphase, rfl⟩ := beginInstall_eq_ok h
  exact fun _ => hheld (by simp [hphase])

theorem Held.fail (message : Text) (l : UpdateLifecycle) : (l.fail message).Held := by
  intro hphase
  simp [UpdateLifecycle.fail] at hphase

end UpdateLifecycle

end QingzhouSSH.Domain
