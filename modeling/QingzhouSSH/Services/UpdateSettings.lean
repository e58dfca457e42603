/-
  QingzhouSSH.Services.UpdateSettings — what the stored state of the updater carries.

  Checks, downloads, clearings and `set_auto_check` each load the whole state, set their own
  fields and save the whole of it, without a lock around the three.

  Main results:
    * `settings_carried_iff` — when every field holds what was written to it last;
    * `autoCheck_undone` — a check that saves what it loaded before `set_auto_check`.
-/
import QingzhouSSH.Lib.LastWrite
import QingzhouSSH.Services.UpdateManager

namespace QingzhouSSH.Services.UpdateManager

open QingzhouSSH.Lib.LastWrite
open QingzhouSSH.Core.Updates

/-! ## §1. The fields. -/

namespace FieldWrite

def autoCheck? : FieldWrite → Option Bool
  | .autoCheck enabled => some enabled
  | _ => none

def lastCheckedAt? : FieldWrite → Option (Option Nat)
  | .lastCheck now _ => some (some now)
  | _ => none

def lastResult? : FieldWrite → Option (Option StoredCheckResult)
  | .lastCheck _ result => some (some result)
  | _ => none

def stagedFile? : FieldWrite → Option (Option Text)
  | .stagedFile path => some path
  | _ => none

end FieldWrite

/-- Every field of the stored state holds what was written to it last. -/
structure Carries (initial : UpdatePersistentState) (sh : Shared) : Prop where
  autoCheck : sh.stored.autoCheck = lastSet FieldWrite.autoCheck? initial.autoCheck sh.saves
  lastCheckedAt : sh.stored.lastCheckedAt
    = lastSet FieldWrite.lastCheckedAt? initial.lastCheckedAt sh.saves
  lastResult : sh.stored.lastResult = lastSet FieldWrite.lastResult? initial.lastResult sh.saves
  stagedFile : sh.stored.stagedFile = lastSet FieldWrite.stagedFile? initial.stagedFile sh.saves

/-- **One save, from a state that carries what was written last.** -/
theorem Carries.saved_iff {initial : UpdatePersistentState} {sh sh' : Shared}
    (h : Carries initial sh) {write : FieldWrite} {loaded : UpdatePersistentState}
    (hstored : sh'.stored = write.apply loaded) (hsaves : sh'.saves = sh.saves ++ [write]) :
    Carries initial sh' ↔ write.apply loaded = write.apply sh.stored := by
  -- field by field; a write sets a field or leaves it
  have hauto := written_eq_lastSet_iff FieldWrite.apply UpdatePersistentState.autoCheck
    (w := write) (fun r => by cases write <;> rfl) h.autoCheck loaded
  have hchecked := written_eq_lastSet_iff FieldWrite.apply UpdatePersistentState.lastCheckedAt
    (w := write) (fun r => by cases write <;> rfl)
    h.lastCheckedAt loaded
  have hresult := written_eq_lastSet_iff FieldWrite.apply UpdatePersistentState.lastResult
    (w := write) (fun r => by cases write <;> rfl)
    h.lastResult loaded
  have hstaged := written_eq_lastSet_iff FieldWrite.apply UpdatePersistentState.stagedFile
    (w := write) (fun r => by cases write <;> rfl)
    h.stagedFile loaded
  constructor
  · intro hcarries
    have h1 := hcarries.autoCheck
    have h2 := hcarries.lastCheckedAt
    have h3 := hcarries.lastResult
    have h4 := hcarries.stagedFile
    rw [hstored, hsaves] at h1 h2 h3 h4
    have h1 := hauto.mp h1
    have h2 := hchecked.mp h2
    have h3 := hresult.mp h3
    have h4 := hstaged.mp h4
    cases hleft : write.apply loaded
    cases hright : write.apply sh.stored
    simp only [hleft, hright] at h1 h2 h3 h4
    rw [h1, h2, h3, h4]
  · intro heq
    exact
      { autoCheck := by
          rw [hstored, hsaves]
          exact hauto.mpr (by rw [heq])
        lastCheckedAt := by
          rw [hstored, hsaves]
          exact hchecked.mpr (by rw [heq])
        lastResult := by
          rw [hstored, hsaves]
          exact hresult.mpr (by rw [heq])
        stagedFile := by
          rw [hstored, hsaves]
          exact hstaged.mpr (by rw [heq]) }

theorem Carries.same {initial : UpdatePersistentState} {sh sh' : Shared} (h : Carries initial sh)
    (hstored : sh'.stored = sh.stored) (hsaves : sh'.saves = sh.saves) : Carries initial sh' := by
  constructor
  · rw [hstored, hsaves]
    exact h.autoCheck
  · rw [hstored, hsaves]
    exact h.lastCheckedAt
  · rw [hstored, hsaves]
    exact h.lastResult
  · rw [hstored, hsaves]
    exact h.stagedFile

/-! ## §2. Runs. -/

section Runs

variable [Sha256Crate] [PathCrate]

/-- A save that is made writes what it would write from the state that is stored now: in the
fields that its call does not set, the state is what the call has loaded. -/
def SavesCurrent (event : UpdateEvent) (s : UpdateState) : Prop :=
  match event with
  | .step id answer =>
      ∀ write loaded sh', (s.call id).phase.saving = some (write, loaded) →
        s.save write loaded answer = some (.ok sh') → write.apply loaded = write.apply s.stored
  | _ => True

/-- A save that succeeds is made. -/
theorem advance_saving {c : UpdateCall} {sh sh' : Shared} {answer : Answer} {write : FieldWrite}
    {loaded : UpdatePersistentState} (hsaving : c.phase.saving = some (write, loaded))
    (hsave : sh.save write loaded answer = some (.ok sh')) :
    ∃ c', advance c sh answer = some (c', sh') := by
  cases hphase : c.phase with
  | savingResult now result failure state =>
      simp only [hphase, Phase.saving, Option.some.injEq, Prod.mk.injEq] at hsaving
      obtain ⟨rfl, rfl⟩ := hsaving
      cases failure <;> simp [advance, advanceCheck, hphase, hsave]
  | savingStaged release staged state =>
      simp only [hphase, Phase.saving, Option.some.injEq, Prod.mk.injEq] at hsaving
      obtain ⟨rfl, rfl⟩ := hsaving
      simp [advance, advanceCheck, advanceDownload, hphase, hsave]
  | savingCleared taken state =>
      simp only [hphase, Phase.saving, Option.some.injEq, Prod.mk.injEq] at hsaving
      obtain ⟨rfl, rfl⟩ := hsaving
      simp [advance, advanceCheck, advanceDownload, advanceInstall, advanceClear, hphase, hsave]
  | savingAutoCheck enabled state =>
      simp only [hphase, Phase.saving, Option.some.injEq, Prod.mk.injEq] at hsaving
      obtain ⟨rfl, rfl⟩ := hsaving
      simp [advance, advanceCheck, advanceDownload, advanceInstall, advanceClear, advanceStatus,
        hphase, hsave]
  | _ => simp [hphase, Phase.saving] at hsaving

/-- **A step keeps what is carried exactly when it saves from the stored state.** -/
theorem step_carries_iff {initial : UpdatePersistentState} {event : UpdateEvent}
    {s s' : UpdateState} (h : Carries initial s.toShared) (hstep : step event s = some s') :
    Carries initial s'.toShared ↔ SavesCurrent event s := by
  cases event with
  | start id request =>
      rw [(step_start hstep).2.1]
      exact ⟨fun _ => trivial, fun _ => h⟩
  | disk path contents =>
      obtain rfl := Option.some.inj hstep
      exact ⟨fun _ => trivial, fun _ => h.same rfl rfl⟩
  | step id answer =>
      obtain ⟨⟨c', sh'⟩, hadvance, rfl⟩ := Option.map_eq_some_iff.mp hstep
      constructor
      · intro hcarries write loaded sh'' hsaving hsave
        obtain ⟨c'', hadvance'⟩ := advance_saving hsaving hsave
        obtain rfl := (Prod.mk.inj (Option.some.inj (hadvance.symm.trans hadvance'))).2
        obtain rfl := Shared.save_eq_ok hsave
        exact (h.saved_iff rfl rfl).mp hcarries
      · intro hcurrent
        cases advance_stores hadvance with
        | same hstored hsaves => exact h.same hstored hsaves
        | @saved write loaded hsaving hsave =>
            have heq := hcurrent write loaded sh' hsaving hsave
            obtain rfl := Shared.save_eq_ok hsave
            exact (h.saved_iff rfl rfl).mpr heq

/-- **However the calls interleave: in every state on the way each field holds what was written
to it last, exactly when every save is made from the state that is stored then.** -/
theorem settings_carried_iff (currentVersion : Text) (stored : UpdatePersistentState)
    (files : Text → Option Bytes) (events : List UpdateEvent) :
    (∀ before s, before <+: events → run before (started currentVersion stored files) = some s →
        Carries stored s.toShared)
      ↔ ∀ before event s s', before ++ [event] <+: events →
          run before (started currentVersion stored files) = some s → step event s = some s' →
          SavesCurrent event s := by
  constructor
  · intro hcarries before event s s' hbefore hrun hstep
    have hs := hcarries before s ((List.prefix_append before [event]).trans hbefore) hrun
    have hs' := hcarries (before ++ [event]) s' hbefore (run_snoc.mpr ⟨s, hrun, hstep⟩)
    exact (step_carries_iff hs hstep).mp hs'
  · intro hcurrent before
    induction before using List.reverseRecOn with
    | nil =>
        intro s _ hrun
        obtain rfl := Option.some.inj hrun
        exact ⟨rfl, rfl, rfl, rfl⟩
    | append_singleton before event ih =>
        intro s' hbefore hrun
        obtain ⟨s, hrun, hstep⟩ := run_snoc.mp hrun
        have hs := ih s ((List.prefix_append before [event]).trans hbefore) hrun
        exact (step_carries_iff hs hstep).mpr (hcurrent before event s s' hbefore hrun hstep)

end Runs

/-! ## §3. A check that overtakes. -/

/-- A check loads the state to save its result in; before it saves, the automatic check is
turned off. -/
def overtakenCheck : List UpdateEvent :=
  [.start 0 (.check true 100), done 0, done 0, done 0,
    .step 0 (.checked (.ok { source := .github, decision := .upToDate, fallbackReason := none })),
    done 0, done 0, done 0,
    .start 1 (.setAutoCheck false), done 1, done 1, done 1, done 1,
    done 0, done 0, done 0]

/-- Both calls succeed, and the automatic check is on again. -/
theorem autoCheck_undone : let _ : PathCrate := unixPath
    let _ : Sha256Crate := sampleSha256
    ∃ s, run overtakenCheck (started "1.0.0".toList .default fun _ => none) = some s
      ∧ (s.call 0).phase.succeeded = true ∧ (s.call 1).phase.succeeded = true
      ∧ s.saves.head? = some (.autoCheck false) ∧ s.stored.autoCheck = true
      ∧ ¬ Carries .default s.toShared := by
  intro _ _
  have hrun : (run overtakenCheck (started "1.0.0".toList .default fun _ => none)).any (fun s =>
      (s.call 0).phase.succeeded && (s.call 1).phase.succeeded
        && s.saves.head? == some (.autoCheck false) && s.stored.autoCheck
        && lastSet FieldWrite.autoCheck? true s.saves == false) = true := by decide
  obtain ⟨s, hs, hall⟩ := (Option.any_eq_true _ _).mp hrun
  simp only [Bool.and_eq_true, beq_iff_eq] at hall
  obtain ⟨⟨⟨⟨hcheck, hset⟩, hfirst⟩, hstored⟩, hlast⟩ := hall
  refine ⟨s, hs, hcheck, hset, hfirst, hstored, fun hcarries => ?_⟩
  have heq := hcarries.autoCheck
  rw [hstored] at heq
  exact absurd (heq.trans hlast) (by simp)

end QingzhouSSH.Services.UpdateManager
