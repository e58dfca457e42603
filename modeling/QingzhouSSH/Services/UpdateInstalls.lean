/-
  QingzhouSSH.Services.UpdateInstalls — what the adapter is given to install.

  A download or an installation that began before `clear_downloaded` reset the lifecycle may
  take its later steps while another one, that began after it, is under way.  Where none does,
  the package that is installed is the one that was confirmed.

  Main results:
    * `advance_moves` — what a step does to the lifecycle and to the pending package;
    * `step_keeps` — a guarded step keeps the account of every call;
    * `installed_as_confirmed` — guarded runs;
    * `other_release_installed` — a download that finishes for a later one.
-/
import QingzhouSSH.Services.UpdateManager

namespace QingzhouSSH.Services.UpdateManager

open QingzhouSSH.Domain
open QingzhouSSH.Core.Updates

/-! ## §1. What a call is doing. -/

/-- What a check, a download or an installation is doing between the first and the last of its
steps on the lifecycle. -/
inductive Activity where
  | checking
  | fetching (release : UpdateRelease)
  | kept (release : UpdateRelease)
  | losing
  | confirmed (release : Option UpdateRelease)
  | prepared (pending : PendingUpdate) (release : Option UpdateRelease)
  | installing

def Phase.activity : Phase → Option Activity
  | .droppingReason _ | .checking _ | .keepingReason _ _ | .deciding _ _ | .failingCheck _ _ =>
      some .checking
  | .downloading release | .writingFile release _ | .loadingStaged release _
  | .savingStaged release _ _ | .keepingPending release _ => some (.fetching release)
  | .keepingStaged release _ | .finishingDownload release => some (.kept release)
  | .failingDownload _ => some .losing
  | .readingPending confirmed => some (.confirmed confirmed)
  | .readingFile pending confirmed | .verifying pending _ confirmed =>
      some (.prepared pending confirmed)
  | .installing | .failingInstall _ => some .installing
  | _ => none

/-- What a call of `clear_downloaded` has taken out and not yet accounted for. -/
def Phase.cleared : Phase → Option PendingUpdate
  | .loadingCleared taken | .removingFile taken _ | .savingCleared taken _ | .droppingStaged taken
  | .clearingReason taken | .resetting taken | .loadingStatus taken | .readingStatus taken _ =>
      taken
  | _ => none

/-- The phases of the lifecycle in which nothing is under way or ready. -/
def quietPhase : UpdatePhase → Bool
  | .idle | .upToDate | .available | .failed => true
  | _ => false

/-- A step of a check, a download or an installation on the lifecycle or on the pending package:
the lifecycle has not been reset since the call began, or nothing else is under way or ready;
and no package was taken out between the confirmation and the call of the adapter. -/
def guardedCall (c : UpdateCall) (sh : Shared) : Bool :=
  match c.phase with
  | .deciding _ _ | .failingCheck _ _ | .keepingPending _ _ | .finishingDownload _
  | .failingDownload _ | .failingInstall _ =>
      c.began == sh.resets || quietPhase sh.lifecycle.phase
  | .readingPending _ => c.began == sh.resets || sh.pending.isNone
  | .verifying _ _ _ => c.takenBefore == sh.taken.length
  | _ => true

def guarded (event : UpdateEvent) (s : UpdateState) : Bool :=
  match event with
  | .step id _ => guardedCall (s.call id) s.toShared
  | _ => true

/-! ## §2. What a step does. -/

/-- What the account of the calls depends on is the same. -/
structure SameLocks (sh sh' : Shared) : Prop where
  lifecycle : sh'.lifecycle = sh.lifecycle
  pending : sh'.pending = sh.pending
  resets : sh'.resets = sh.resets
  packages : sh'.packages = sh.packages
  taken : sh'.taken = sh.taken
  discarded : sh'.discarded = sh.discarded
  installations : sh'.installations = sh.installations

/-- A call goes on with what it is doing, or ends it without a word to the lifecycle. -/
inductive Continues : Option Activity → Option Activity → Prop where
  | same (activity : Option Activity) : Continues activity activity
  | ended (activity : Option Activity) : Continues activity none
  | lost (release : UpdateRelease) : Continues (some (.fetching release)) (some .losing)
  | unprepared (confirmed : Option UpdateRelease) :
      Continues (some (.confirmed confirmed)) (some .installing)
  | stopped (pending : PendingUpdate) (confirmed : Option UpdateRelease) :
      Continues (some (.prepared pending confirmed)) (some .installing)

section Runs

variable [Sha256Crate]

/-- The steps, by what they do to the lifecycle and to the pending package. -/
inductive Moves (c : UpdateCall) (sh : Shared) : UpdateCall → Shared → Prop where
  | quiet {phase : Phase} {sh' : Shared} (locks : SameLocks sh sh')
      (activity : Continues c.phase.activity phase.activity)
      (cleared : phase.cleared = c.phase.cleared) (running : phase ≠ .panicked) :
      Moves c sh (c.move phase) sh'
  | beginCheck (now : Nat) {lifecycle : UpdateLifecycle} (idle : c.phase.activity = none)
      (transition : sh.lifecycle.beginCheck = .ok lifecycle) :
      Moves c sh (sh.begin (.droppingReason now)) { sh with lifecycle := lifecycle }
  | decide {now : Nat} {selection : SourceSelection} {phase : Phase} {lifecycle : UpdateLifecycle}
      (deciding : c.phase = .deciding now selection) (ended : phase.activity = none)
      (uncleared : phase.cleared = none) (running : phase ≠ .panicked)
      (transition : UpdateManager.decide selection.decision sh.lifecycle = .ok lifecycle) :
      Moves c sh (c.move phase) { sh with lifecycle := lifecycle }
  | fail (message : Text) {phase : Phase} (failing : (∃ now kind, c.phase = .failingCheck now kind)
        ∨ (∃ error, c.phase = .failingDownload error) ∨ ∃ error, c.phase = .failingInstall error)
      (ended : phase.activity = none) (uncleared : phase.cleared = none)
      (running : phase ≠ .panicked) :
      Moves c sh (c.move phase) { sh with lifecycle := sh.lifecycle.fail message }
  | beginDownload {release : UpdateRelease} {lifecycle : UpdateLifecycle}
      (idle : c.phase.activity = none) (transition : sh.lifecycle.beginDownload = .ok lifecycle)
      (held : lifecycle.release = some release) :
      Moves c sh (sh.begin (.downloading release)) { sh with lifecycle := lifecycle }
  | panic {lifecycle : UpdateLifecycle} (transition : sh.lifecycle.beginDownload = .ok lifecycle)
      (missing : lifecycle.release = none) :
      Moves c sh (c.move .panicked) { sh with lifecycle := lifecycle }
  | keep {release : UpdateRelease} {staged : StagedUpdate}
      (keeping : c.phase = .keepingPending release staged) :
      Moves c sh (c.move (.keepingStaged release staged))
        { sh with
          pending := some { release := release, staged := staged, package := sh.packages }
          packages := sh.packages + 1 }
  | finish {release : UpdateRelease} {lifecycle : UpdateLifecycle}
      (finishing : c.phase = .finishingDownload release)
      (transition : sh.lifecycle.setDownloaded = .ok lifecycle) :
      Moves c sh (c.move (.loadingStatus none)) { sh with lifecycle := lifecycle }
  | beginInstall {lifecycle : UpdateLifecycle} (idle : c.phase.activity = none)
      (transition : sh.lifecycle.beginInstall = .ok lifecycle) :
      Moves c sh (sh.begin (.readingPending lifecycle.release)) { sh with lifecycle := lifecycle }
  | read {pending : PendingUpdate} {confirmed : Option UpdateRelease}
      (reading : c.phase = .readingPending confirmed) (found : sh.pending = some pending) :
      Moves c sh (c.move (.readingFile pending confirmed)) sh
  | install {pending : PendingUpdate} {bytes : Bytes} {confirmed : Option UpdateRelease}
      (verifying : c.phase = .verifying pending bytes confirmed)
      (verified : verifyBytes pending.release bytes = .ok ()) :
      Moves c sh (c.move .installing)
        { sh with installations := sh.installations
            ++ [{ pending := pending, bytes := bytes, confirmed := confirmed,
                  discarded := sh.discarded }] }
  | take (taking : c.phase = .takingPending) :
      Moves c sh (c.move (.loadingCleared sh.pending))
        { sh with
          pending := none
          taken := (sh.pending.map PendingUpdate.package).toList ++ sh.taken }
  | reset {taken : Option PendingUpdate} (resetting : c.phase = .resetting taken) :
      Moves c sh (c.move (.loadingStatus taken))
        { sh with lifecycle := .default, resets := sh.resets + 1 }
  | discard {phase : Phase} {taken : Option PendingUpdate} (clearing : c.phase.cleared = taken)
      (idle : c.phase.activity = none) (ended : phase.activity = none)
      (uncleared : phase.cleared = none) (running : phase ≠ .panicked) :
      Moves c sh (c.move phase) (sh.discard taken)

omit [Sha256Crate] in
theorem SameLocks.of_save [PathCrate] {sh sh' : Shared} {write : FieldWrite}
    {loaded : UpdatePersistentState} {answer : Answer}
    (h : sh.save write loaded answer = some (.ok sh')) : SameLocks sh sh' := by
  obtain rfl := Shared.save_eq_ok h
  exact ⟨rfl, rfl, rfl, rfl, rfl, rfl, rfl⟩

theorem moves_of_quiet {c : UpdateCall} {sh sh' : Shared} {old phase : Phase}
    (hphase : c.phase = old) (hlocks : SameLocks sh sh')
    (hactivity : Continues old.activity phase.activity)
    (hcleared : phase.cleared = old.cleared) (hrunning : phase ≠ .panicked) :
    Moves c sh (c.move phase) sh' := by
  subst hphase
  exact .quiet hlocks hactivity hcleared hrunning

variable [PathCrate]

theorem advanceCheck_moves {c c' : UpdateCall} {sh sh' : Shared} {answer : Answer}
    (h : advanceCheck c sh answer = some (c', sh')) : Moves c sh c' sh' := by
  unfold advanceCheck at h
  repeat' split at h
  all_goals try contradiction
  all_goals obtain ⟨rfl, rfl⟩ := Prod.mk.inj (Option.some.inj h)
  all_goals have hphase := ‹c.phase = _›
  all_goals first
    | exact .beginCheck _ (by rw [hphase]; rfl) ‹_›
    | exact .decide hphase rfl rfl (by simp) ‹_›
    | exact .fail _ (.inl ⟨_, _, hphase⟩) rfl rfl (by simp)
    | exact moves_of_quiet hphase (.of_save ‹sh.save _ _ _ = _›) (.same _) rfl (by simp)
    | exact moves_of_quiet hphase ⟨rfl, rfl, rfl, rfl, rfl, rfl, rfl⟩
        (by first | exact .same _ | exact .ended _) rfl (by simp)

theorem advanceDownload_moves {c c' : UpdateCall} {sh sh' : Shared} {answer : Answer}
    (h : advanceDownload c sh answer = some (c', sh')) : Moves c sh c' sh' := by
  unfold advanceDownload at h
  repeat' split at h
  all_goals try contradiction
  all_goals obtain ⟨rfl, rfl⟩ := Prod.mk.inj (Option.some.inj h)
  all_goals have hphase := ‹c.phase = _›
  all_goals first
    | exact .panic ‹_› ‹_›
    | exact .beginDownload (by rw [hphase]; rfl) ‹_› ‹_›
    | exact .keep hphase
    | exact .finish hphase ‹_›
    | exact .fail _ (.inr (.inl ⟨_, hphase⟩)) rfl rfl (by simp)
    | exact moves_of_quiet hphase (.of_save ‹sh.save _ _ _ = _›) (.same _) rfl (by simp)
    | exact moves_of_quiet hphase ⟨rfl, rfl, rfl, rfl, rfl, rfl, rfl⟩
        (by first | exact .same _ | exact .lost _ | exact .ended _) rfl (by simp)

theorem advanceInstall_moves {c c' : UpdateCall} {sh sh' : Shared} {answer : Answer}
    (h : advanceInstall c sh answer = some (c', sh')) : Moves c sh c' sh' := by
  unfold advanceInstall at h
  repeat' split at h
  all_goals try contradiction
  all_goals obtain ⟨rfl, rfl⟩ := Prod.mk.inj (Option.some.inj h)
  all_goals have hphase := ‹c.phase = _›
  all_goals first
    | exact .beginInstall (by rw [hphase]; rfl) ‹_›
    | exact .read hphase ‹_›
    | exact .install hphase ‹_›
    | exact .fail _ (.inr (.inr ⟨_, hphase⟩)) rfl rfl (by simp)
    | exact moves_of_quiet hphase ⟨rfl, rfl, rfl, rfl, rfl, rfl, rfl⟩
        (by first | exact .same _ | exact .unprepared _ | exact .stopped _ _ | exact .ended _)
        rfl (by simp)

theorem advanceClear_moves {c c' : UpdateCall} {sh sh' : Shared} {answer : Answer}
    (h : advanceClear c sh answer = some (c', sh')) : Moves c sh c' sh' := by
  unfold advanceClear at h
  repeat' split at h
  all_goals try contradiction
  all_goals obtain ⟨rfl, rfl⟩ := Prod.mk.inj (Option.some.inj h)
  all_goals have hphase := ‹c.phase = _›
  all_goals first
    | exact .take hphase
    | exact .reset hphase
    | exact moves_of_quiet hphase (.of_save ‹sh.save _ _ _ = _›) (.same _) rfl (by simp)
    | exact moves_of_quiet hphase ⟨rfl, rfl, rfl, rfl, rfl, rfl, rfl⟩ (.same _) rfl
        (by simp)
    | exact .discard (by rw [hphase]; rfl) (by rw [hphase]; rfl) rfl rfl (by simp)

theorem advanceStatus_moves {c c' : UpdateCall} {sh sh' : Shared} {answer : Answer}
    (h : advanceStatus c sh answer = some (c', sh')) : Moves c sh c' sh' := by
  unfold advanceStatus at h
  repeat' split at h
  all_goals try contradiction
  all_goals obtain ⟨rfl, rfl⟩ := Prod.mk.inj (Option.some.inj h)
  all_goals have hphase := ‹c.phase = _›
  all_goals first
    | exact moves_of_quiet hphase (.of_save ‹sh.save _ _ _ = _›) (.same _) rfl (by simp)
    | exact moves_of_quiet hphase ⟨rfl, rfl, rfl, rfl, rfl, rfl, rfl⟩ (.same _)
        rfl (by simp)
    | exact .discard (by rw [hphase]; rfl) (by rw [hphase]; rfl) rfl rfl (by simp)

/-- **What a step does to the lifecycle and to the pending package.** -/
theorem advance_moves {c c' : UpdateCall} {sh sh' : Shared} {answer : Answer}
    (h : advance c sh answer = some (c', sh')) : Moves c sh c' sh' := by
  rcases advance_cases h with h | h | h | h | h
  · exact advanceCheck_moves h
  · exact advanceDownload_moves h
  · exact advanceInstall_moves h
  · exact advanceClear_moves h
  · exact advanceStatus_moves h

/-! ## §3. The account of the calls. -/

/-- What is installed is what was confirmed, whole, and nobody had discarded it. -/
structure Installation.Sound (i : Installation) : Prop where
  confirmed : i.confirmed = some i.pending.release
  size : i.bytes.length = i.pending.release.size
  digest : Sha256Crate.digest i.bytes = i.pending.release.sha256
  kept : i.pending.package ∉ i.discarded

/-- What an activity expects of the lifecycle while it has not been reset. -/
def Expected (sh : Shared) : Activity → Prop
  | .checking => sh.lifecycle.phase = .checking
  | .fetching release => sh.lifecycle.phase = .downloading ∧ sh.lifecycle.release = some release
  | .kept release =>
      sh.lifecycle.phase = .downloading ∧ sh.lifecycle.release = some release
        ∧ ∀ p ∈ sh.pending, p.release = release
  | .losing => sh.lifecycle.phase = .downloading
  | .confirmed release => sh.lifecycle.phase = .installing ∧ sh.lifecycle.release = release
  | .prepared _ _ | .installing => sh.lifecycle.phase = .installing

omit [Sha256Crate] [PathCrate] in
/-- What is under way keeps others from beginning. -/
theorem Expected.busy {sh : Shared} {a : Activity} (h : Expected sh a) :
    quietPhase sh.lifecycle.phase = false ∧ sh.lifecycle.phase ≠ .downloaded := by
  cases a with
  | checking => simp [quietPhase, show sh.lifecycle.phase = .checking from h]
  | fetching release => simp [quietPhase, h.1]
  | kept release => simp [quietPhase, h.1]
  | losing => simp [quietPhase, show sh.lifecycle.phase = .downloading from h]
  | confirmed release => simp [quietPhase, h.1]
  | prepared pending release => simp [quietPhase, show sh.lifecycle.phase = .installing from h]
  | installing => simp [quietPhase, show sh.lifecycle.phase = .installing from h]

/-- Where a call stands. -/
structure Stands (sh : Shared) (c : UpdateCall) : Prop where
  began : c.began ≤ sh.resets
  takenBefore : c.takenBefore ≤ sh.taken.length
  expected : ∀ a, c.phase.activity = some a → c.began = sh.resets → Expected sh a
  prepared : ∀ p k, c.phase.activity = some (.prepared p k) →
    k = some p.release ∧ (c.takenBefore = sh.taken.length → p.package ∉ sh.taken)
  cleared : ∀ p ∈ c.phase.cleared, p.package ∈ sh.taken

/-- What the calls find. -/
structure Kept (sh : Shared) : Prop where
  held : sh.lifecycle.Held
  ready : sh.lifecycle.phase ∈ [.downloaded, .installing] →
    ∀ p ∈ sh.pending, sh.lifecycle.release = some p.release
  fresh : ∀ p ∈ sh.pending, p.package ∉ sh.taken ∧ p.package < sh.packages
  takenBelow : ∀ n ∈ sh.taken, n < sh.packages
  discarded : ∀ n ∈ sh.discarded, n ∈ sh.taken
  sound : ∀ i ∈ sh.installations, i.Sound

omit [PathCrate] in
theorem Kept.same {sh sh' : Shared} (h : Kept sh) (hlocks : SameLocks sh sh') : Kept sh' := by
  obtain ⟨hlifecycle, hpending, -, hpackages, htaken, hdiscarded, hinstallations⟩ := hlocks
  constructor
  · rw [hlifecycle]
    exact h.held
  · rw [hlifecycle, hpending]
    exact h.ready
  · rw [hpending, htaken, hpackages]
    exact h.fresh
  · rw [htaken, hpackages]
    exact h.takenBelow
  · rw [hdiscarded, htaken]
    exact h.discarded
  · rw [hinstallations]
    exact h.sound

omit [Sha256Crate] [PathCrate] in
theorem Expected.same {sh sh' : Shared} (hlifecycle : sh'.lifecycle = sh.lifecycle)
    (hpending : sh'.pending = sh.pending) {a : Activity} (h : Expected sh a) : Expected sh' a := by
  cases a <;> simpa only [Expected, hlifecycle, hpending] using h

omit [Sha256Crate] [PathCrate] in
theorem Stands.same {sh sh' : Shared} {c : UpdateCall} (h : Stands sh c)
    (hlifecycle : sh'.lifecycle = sh.lifecycle) (hpending : sh'.pending = sh.pending)
    (hresets : sh'.resets = sh.resets) (htaken : sh'.taken = sh.taken) : Stands sh' c := by
  constructor
  · rw [hresets]
    exact h.began
  · rw [htaken]
    exact h.takenBefore
  · intro a ha hbegan
    rw [hresets] at hbegan
    exact (h.expected a ha hbegan).same hlifecycle hpending
  · rw [htaken]
    exact h.prepared
  · rw [htaken]
    exact h.cleared

omit [Sha256Crate] [PathCrate] in
/-- A call that expects nothing of the lifecycle and has taken nothing out. -/
theorem Stands.ended {sh : Shared} {c : UpdateCall} (hactivity : c.phase.activity = none)
    (hcleared : c.phase.cleared = none) (hbegan : c.began ≤ sh.resets)
    (htaken : c.takenBefore ≤ sh.taken.length) : Stands sh c := by
  refine ⟨hbegan, htaken, ?_, ?_, ?_⟩
  · intro a ha
    exact absurd (hactivity.symm.trans ha) (by simp)
  · intro p k ha
    exact absurd (hactivity.symm.trans ha) (by simp)
  · intro p hp
    exact absurd (hcleared.symm.trans hp) (by simp)

/-! ## §4. What a step keeps of the state. -/

omit [PathCrate] in
theorem verifyBytes_eq_ok {release : UpdateRelease} {bytes : Bytes}
    (h : verifyBytes release bytes = .ok ()) :
    bytes.length = release.size ∧ Sha256Crate.digest bytes = release.sha256 := by
  unfold verifyBytes at h
  by_cases hsize : bytes.length = release.size
  · by_cases hdigest : Sha256Crate.digest bytes = release.sha256
    · exact ⟨hsize, hdigest⟩
    · simp [hsize, hdigest] at h
  · simp [hsize] at h

omit [Sha256Crate] [PathCrate] in
theorem decide_eq_ok {decision : ManifestDecision} {l l' : UpdateLifecycle}
    (h : decide decision l = .ok l') :
    l.phase = .checking ∧ l'.Held ∧ l'.phase ∉ [.downloaded, .installing] := by
  cases decision with
  | upToDate =>
      obtain ⟨hphase, hl⟩ := UpdateLifecycle.setUpToDate_eq_ok h
      exact ⟨hphase, .setUpToDate h, by simp [hl]⟩
  | available release =>
      obtain ⟨hphase, hl⟩ := UpdateLifecycle.setAvailable_eq_ok h
      exact ⟨hphase, .setAvailable h, by simp [hl]⟩

omit [Sha256Crate] [PathCrate] in
/-- A release is there when a download begins. -/
theorem beginDownload_held {l l' : UpdateLifecycle} (hheld : l.Held)
    (h : l.beginDownload = .ok l') : l'.release ≠ none := by
  obtain ⟨-, hl⟩ := UpdateLifecycle.beginDownload_eq_ok h
  have hsome := hheld.beginDownload h (by simp [hl])
  exact Option.isSome_iff_ne_none.mp hsome

omit [PathCrate] in
/-- The steps that only change the lifecycle. -/
theorem Kept.setLifecycle {sh : Shared} (h : Kept sh) {lifecycle : UpdateLifecycle}
    (hheld : lifecycle.Held) (hready : lifecycle.phase ∈ [.downloaded, .installing] →
      ∀ p ∈ sh.pending, lifecycle.release = some p.release) :
    Kept { sh with lifecycle := lifecycle } :=
  { held := hheld, ready := hready, fresh := h.fresh, takenBelow := h.takenBelow,
    discarded := h.discarded, sound := h.sound }

omit [PathCrate] in
/-- **A guarded step keeps what the calls find.** -/
theorem Moves.kept {c c' : UpdateCall} {sh sh' : Shared} (h : Moves c sh c' sh')
    (hguarded : guardedCall c sh = true) (hkept : Kept sh) (hc : Stands sh c) : Kept sh' := by
  cases h with
  | quiet locks activity cleared running => exact hkept.same locks
  | beginCheck now idle transition =>
      have hphase := (UpdateLifecycle.beginCheck_eq_ok transition).2
      exact hkept.setLifecycle (.beginCheck transition) (by simp [hphase])
  | decide deciding ended uncleared running transition =>
      obtain ⟨-, hheld, hphase⟩ := decide_eq_ok transition
      exact hkept.setLifecycle hheld fun hready => absurd hready hphase
  | fail message failing ended uncleared running =>
      exact hkept.setLifecycle (.fail message _) (by simp [UpdateLifecycle.fail])
  | beginDownload idle transition held =>
      obtain ⟨-, hl⟩ := UpdateLifecycle.beginDownload_eq_ok transition
      exact hkept.setLifecycle (hkept.held.beginDownload transition) (by simp [hl])
  | panic transition missing => exact absurd missing (beginDownload_held hkept.held transition)
  | @keep release staged keeping =>
      -- nothing is ready: the download is under way, or nothing is
      have hphase : sh.lifecycle.phase ∉ [.downloaded, .installing] := by
        simp only [guardedCall, keeping, Bool.or_eq_true, beq_iff_eq] at hguarded
        rcases hguarded with hfresh | hquiet
        · have hexpected := hc.expected (.fetching release) (by rw [keeping]; rfl) hfresh
          simp [hexpected.1]
        · intro hready
          simp only [List.mem_cons, List.not_mem_nil, or_false] at hready
          rcases hready with hready | hready <;> simp [hready, quietPhase] at hquiet
      have hnew : sh.packages ∉ sh.taken := fun hmem =>
        Nat.lt_irrefl _ (hkept.takenBelow _ hmem)
      exact
        { held := hkept.held
          ready := fun hready => absurd hready hphase
          fresh := by
            intro p hp
            obtain rfl := Option.mem_some_iff.mp hp
            exact ⟨hnew, Nat.lt_succ_self _⟩
          takenBelow := fun n hn => Nat.lt_succ_of_lt (hkept.takenBelow n hn)
          discarded := hkept.discarded
          sound := hkept.sound }
  | @finish release lifecycle finishing transition =>
      obtain ⟨hphase, hl⟩ := UpdateLifecycle.setDownloaded_eq_ok transition
      refine hkept.setLifecycle (hkept.held.setDownloaded transition) fun _ p hp => ?_
      simp only [guardedCall, finishing, Bool.or_eq_true, beq_iff_eq] at hguarded
      rcases hguarded with hfresh | hquiet
      · obtain ⟨-, hrelease, hpending⟩ :=
          hc.expected (.kept release) (by rw [finishing]; rfl) hfresh
        rw [hl, hpending p hp]
        exact hrelease
      · simp [hphase, quietPhase] at hquiet
  | beginInstall idle transition =>
      obtain ⟨hphase, hl⟩ := UpdateLifecycle.beginInstall_eq_ok transition
      refine hkept.setLifecycle (hkept.held.beginInstall transition) fun _ p hp => ?_
      rw [hl]
      exact hkept.ready (by simp [hphase]) p hp
  | read reading found => exact hkept
  | @install pending bytes confirmed verifying verified =>
      obtain ⟨hconfirmed, huntaken⟩ :=
        hc.prepared pending confirmed (by rw [verifying]; rfl)
      simp only [guardedCall, verifying, beq_iff_eq] at hguarded
      obtain ⟨hsize, hdigest⟩ := verifyBytes_eq_ok verified
      exact
        { held := hkept.held
          ready := hkept.ready
          fresh := hkept.fresh
          takenBelow := hkept.takenBelow
          discarded := hkept.discarded
          sound := by
            intro i hi
            rcases List.mem_append.mp hi with hi | hi
            · exact hkept.sound i hi
            · obtain rfl := List.mem_singleton.mp hi
              exact ⟨hconfirmed, hsize, hdigest, fun hmem =>
                huntaken hguarded (hkept.discarded _ hmem)⟩ }
  | take taking =>
      exact
        { held := hkept.held
          ready := by
            intro _ p hp
            cases hp
          fresh := by
            intro p hp
            cases hp
          takenBelow := by
            intro n hn
            rcases List.mem_append.mp hn with hn | hn
            · obtain ⟨p, hp, rfl⟩ := Option.map_eq_some_iff.mp (Option.mem_toList.mp hn)
              exact (hkept.fresh p hp).2
            · exact hkept.takenBelow n hn
          discarded := fun n hn => List.mem_append_right _ (hkept.discarded n hn)
          sound := hkept.sound }
  | reset resetting =>
      exact
        { held := UpdateLifecycle.held_default
          ready := by
            intro hready
            simp [UpdateLifecycle.default] at hready
          fresh := hkept.fresh
          takenBelow := hkept.takenBelow
          discarded := hkept.discarded
          sound := hkept.sound }
  | discard clearing idle ended uncleared running =>
      exact
        { held := hkept.held
          ready := hkept.ready
          fresh := hkept.fresh
          takenBelow := hkept.takenBelow
          discarded := by
            intro n hn
            rcases List.mem_append.mp hn with hn | hn
            · obtain ⟨p, hp, rfl⟩ := Option.map_eq_some_iff.mp (Option.mem_toList.mp hn)
              exact hc.cleared p (clearing ▸ hp)
            · exact hkept.discarded n hn
          sound := hkept.sound }

/-! ## §5. Where a step leaves the calls. -/

omit [PathCrate] in
/-- **A guarded step leaves its own call where it should stand.** -/
theorem Moves.own {c c' : UpdateCall} {sh sh' : Shared} (h : Moves c sh c' sh')
    (hguarded : guardedCall c sh = true) (hkept : Kept sh) (hc : Stands sh c) : Stands sh' c' := by
  cases h with
  | @quiet phase _ locks activity cleared running =>
      have hbase := hc.same locks.lifecycle locks.pending locks.resets locks.taken
      have hexpected := hbase.expected
      have hprepared := hbase.prepared
      have hcleared := hbase.cleared
      refine ⟨hbase.began, hbase.takenBefore, ?_, ?_, fun p hp => hcleared p (cleared ▸ hp)⟩
      · intro a ha hbegan
        have ha : phase.activity = some a := ha
        generalize hold : c.phase.activity = old at activity
        rw [ha] at activity
        cases activity with
        | same => exact hexpected a hold hbegan
        | lost release => exact (hexpected _ hold hbegan).1
        | unprepared confirmed => exact (hexpected _ hold hbegan).1
        | stopped pending confirmed => exact hexpected (.prepared pending confirmed) hold hbegan
      · intro p k ha
        have ha : phase.activity = some (.prepared p k) := ha
        generalize hold : c.phase.activity = old at activity
        rw [ha] at activity
        cases activity with
        | same => exact hprepared p k hold
  | beginCheck now idle transition =>
      have hphase := (UpdateLifecycle.beginCheck_eq_ok transition).2
      refine ⟨Nat.le_refl _, Nat.le_refl _, ?_, ?_, ?_⟩
      · intro a ha _
        obtain rfl := Option.some.inj ha
        exact hphase
      · intro p k ha
        cases ha
      · intro p hp
        cases hp
  | decide deciding ended uncleared running transition =>
      exact .ended ended uncleared hc.began hc.takenBefore
  | fail message failing ended uncleared running =>
      exact .ended ended uncleared hc.began hc.takenBefore
  | beginDownload idle transition held =>
      obtain ⟨-, hl⟩ := UpdateLifecycle.beginDownload_eq_ok transition
      refine ⟨Nat.le_refl _, Nat.le_refl _, ?_, ?_, ?_⟩
      · intro a ha _
        obtain rfl := Option.some.inj ha
        exact ⟨by simp [hl], held⟩
      · intro p k ha
        cases ha
      · intro p hp
        cases hp
  | panic transition missing => exact absurd missing (beginDownload_held hkept.held transition)
  | @keep release staged keeping =>
      refine ⟨hc.began, hc.takenBefore, ?_, ?_, ?_⟩
      · intro a ha hbegan
        obtain rfl := Option.some.inj ha
        obtain ⟨hphase, hrelease⟩ :=
          hc.expected (.fetching release) (by rw [keeping]; rfl) hbegan
        refine ⟨hphase, hrelease, fun p hp => ?_⟩
        rw [← Option.mem_some_iff.mp hp]
      · intro p k ha
        cases ha
      · intro p hp
        cases hp
  | finish finishing transition =>
      exact .ended rfl rfl hc.began hc.takenBefore
  | beginInstall idle transition =>
      obtain ⟨-, hl⟩ := UpdateLifecycle.beginInstall_eq_ok transition
      refine ⟨Nat.le_refl _, Nat.le_refl _, ?_, ?_, ?_⟩
      · intro a ha _
        obtain rfl := Option.some.inj ha
        exact ⟨by simp [hl], rfl⟩
      · intro p k ha
        cases ha
      · intro p hp
        cases hp
  | @read pending confirmed reading found =>
      have hactivity : c.phase.activity = some (.confirmed confirmed) := by
        rw [reading]
        rfl
      refine ⟨hc.began, hc.takenBefore, ?_, ?_, ?_⟩
      · intro a ha hbegan
        obtain rfl := Option.some.inj ha
        exact (hc.expected _ hactivity hbegan).1
      · intro p k ha
        obtain ⟨rfl, rfl⟩ := Activity.prepared.inj (Option.some.inj ha)
        simp only [guardedCall, reading, found, Option.isNone_some, Bool.or_false,
          beq_iff_eq] at hguarded
        -- the package that is pending is that of the release that was confirmed
        obtain ⟨hphase, hrelease⟩ := hc.expected _ hactivity hguarded
        have hready := hkept.ready (by simp [hphase]) pending found
        exact ⟨hrelease.symm.trans hready, fun _ => (hkept.fresh pending found).1⟩
      · intro p hp
        cases hp
  | @install pending bytes confirmed verifying verified =>
      refine ⟨hc.began, hc.takenBefore, ?_, ?_, ?_⟩
      · intro a ha hbegan
        obtain rfl := Option.some.inj ha
        exact hc.expected (.prepared pending confirmed) (by rw [verifying]; rfl) hbegan
      · intro p k ha
        cases ha
      · intro p hp
        cases hp
  | take taking =>
      refine ⟨hc.began, ?_, ?_, ?_, ?_⟩
      · exact hc.takenBefore.trans (by simp)
      · intro a ha
        cases ha
      · intro p k ha
        cases ha
      · intro p hp
        exact List.mem_append_left _ (Option.mem_toList.mpr (Option.mem_map_of_mem _ hp))
  | @reset taken resetting =>
      refine ⟨Nat.le_succ_of_le hc.began, hc.takenBefore, ?_, ?_, ?_⟩
      · intro a ha
        cases ha
      · intro p k ha
        cases ha
      · intro p hp
        exact hc.cleared p (by rw [resetting]; exact hp)
  | discard clearing idle ended uncleared running =>
      exact .ended ended uncleared hc.began hc.takenBefore

/-- A check, a download or an installation that began after the last reset. -/
def UnderWay (sh : Shared) (c : UpdateCall) : Prop :=
  c.phase.activity ≠ none ∧ c.began = sh.resets

omit [Sha256Crate] [PathCrate] in
theorem Stands.not_quiet {sh : Shared} {d : UpdateCall} (hd : Stands sh d) (h : UnderWay sh d) :
    quietPhase sh.lifecycle.phase = false ∧ sh.lifecycle.phase ≠ .downloaded := by
  obtain ⟨a, ha⟩ := Option.ne_none_iff_exists'.mp h.1
  exact (hd.expected a ha h.2).busy

omit [Sha256Crate] [PathCrate] in
/-- A call that is not under way does not care what becomes of the lifecycle. -/
theorem Stands.aside {sh sh' : Shared} {d : UpdateCall} (hd : Stands sh d)
    (haside : ¬ UnderWay sh d) (hresets : sh'.resets = sh.resets) (htaken : sh'.taken = sh.taken) :
    Stands sh' d := by
  constructor
  · rw [hresets]
    exact hd.began
  · rw [htaken]
    exact hd.takenBefore
  · intro a ha hbegan
    exact absurd ⟨by simp [ha], hbegan.trans hresets⟩ haside
  · rw [htaken]
    exact hd.prepared
  · rw [htaken]
    exact hd.cleared

omit [Sha256Crate] [PathCrate] in
/-- A guarded step on the lifecycle is taken by the call that is under way, or none is. -/
theorem aside_of_guarded {sh : Shared} {c d : UpdateCall} (hactivity : c.phase.activity ≠ none)
    (hguarded : c.began = sh.resets ∨ quietPhase sh.lifecycle.phase = true)
    (halone : UnderWay sh c → ¬ UnderWay sh d) (hd : Stands sh d) : ¬ UnderWay sh d := by
  rcases hguarded with hfresh | hquiet
  · exact halone ⟨hactivity, hfresh⟩
  · intro hunder
    exact absurd hquiet (by simp [(hd.not_quiet hunder).1])

omit [PathCrate] in
/-- **A guarded step leaves the other calls where they stand.** -/
theorem Moves.other {c c' d : UpdateCall} {sh sh' : Shared} (h : Moves c sh c' sh')
    (hguarded : guardedCall c sh = true) (halone : UnderWay sh c → ¬ UnderWay sh d)
    (hd : Stands sh d) : Stands sh' d := by
  cases h with
  | quiet locks activity cleared running =>
      exact hd.same locks.lifecycle locks.pending locks.resets locks.taken
  | beginCheck now idle transition =>
      have hphase := (UpdateLifecycle.beginCheck_eq_ok transition).1
      refine hd.aside (fun hunder => ?_) rfl rfl
      have hquiet := (hd.not_quiet hunder).1
      simp only [List.mem_cons, List.not_mem_nil, or_false] at hphase
      rcases hphase with hphase | hphase | hphase | hphase <;> simp [hphase, quietPhase] at hquiet
  | @decide now selection phase lifecycle deciding ended uncleared running transition =>
      simp only [guardedCall, deciding, Bool.or_eq_true, beq_iff_eq] at hguarded
      have hactivity : c.phase.activity ≠ none := by simp [deciding, Phase.activity]
      exact hd.aside (aside_of_guarded hactivity hguarded halone hd) rfl rfl
  | fail message failing ended uncleared running =>
      have hstep : c.phase.activity ≠ none
          ∧ (c.began = sh.resets ∨ quietPhase sh.lifecycle.phase = true) := by
        rcases failing with ⟨now, kind, hphase⟩ | ⟨error, hphase⟩ | ⟨error, hphase⟩
        all_goals
          simp only [guardedCall, hphase, Bool.or_eq_true, beq_iff_eq] at hguarded
          exact ⟨by simp [hphase, Phase.activity], hguarded⟩
      exact hd.aside (aside_of_guarded hstep.1 hstep.2 halone hd) rfl rfl
  | beginDownload idle transition held =>
      obtain ⟨hphase, -⟩ := UpdateLifecycle.beginDownload_eq_ok transition
      refine hd.aside (fun hunder => ?_) rfl rfl
      have hquiet := (hd.not_quiet hunder).1
      simp [hphase, quietPhase] at hquiet
  | panic transition missing =>
      obtain ⟨hphase, -⟩ := UpdateLifecycle.beginDownload_eq_ok transition
      refine hd.aside (fun hunder => ?_) rfl rfl
      have hquiet := (hd.not_quiet hunder).1
      simp [hphase, quietPhase] at hquiet
  | keep keeping =>
      simp only [guardedCall, keeping, Bool.or_eq_true, beq_iff_eq] at hguarded
      have hactivity : c.phase.activity ≠ none := by simp [keeping, Phase.activity]
      exact hd.aside (aside_of_guarded hactivity hguarded halone hd) rfl rfl
  | finish finishing transition =>
      simp only [guardedCall, finishing, Bool.or_eq_true, beq_iff_eq] at hguarded
      have hactivity : c.phase.activity ≠ none := by simp [finishing, Phase.activity]
      exact hd.aside (aside_of_guarded hactivity hguarded halone hd) rfl rfl
  | beginInstall idle transition =>
      obtain ⟨hphase, -⟩ := UpdateLifecycle.beginInstall_eq_ok transition
      refine hd.aside (fun hunder => ?_) rfl rfl
      exact (hd.not_quiet hunder).2 hphase
  | read reading found => exact hd
  | install verifying verified => exact hd.same rfl rfl rfl rfl
  | take taking =>
      constructor
      · exact hd.began
      · exact hd.takenBefore.trans (by simp)
      · intro a ha hbegan
        have hexpected := hd.expected a ha hbegan
        cases a with
        | kept release => exact ⟨hexpected.1, hexpected.2.1, by simp⟩
        | _ => exact hexpected
      · intro p k ha
        obtain ⟨hk, huntaken⟩ := hd.prepared p k ha
        refine ⟨hk, fun hcount => ?_⟩
        -- a package that is taken out now makes the count a later one
        cases hpending : sh.pending with
        | none =>
            simp only [hpending, Option.map_none, Option.toList_none, List.nil_append] at hcount ⊢
            exact huntaken hcount
        | some pending =>
            have hbefore := hd.takenBefore
            simp only [hpending, Option.map_some, Option.toList_some, List.singleton_append,
              List.length_cons] at hcount
            omega
      · intro p hp
        exact List.mem_append_right _ (hd.cleared p hp)
  | reset resetting =>
      constructor
      · exact Nat.le_succ_of_le hd.began
      · exact hd.takenBefore
      · intro a ha hbegan
        have hbefore := hd.began
        have hbegan : d.began = sh.resets + 1 := hbegan
        omega
      · exact hd.prepared
      · exact hd.cleared
  | discard clearing idle ended uncleared running => exact hd.same rfl rfl rfl rfl

omit [PathCrate] in
/-- A call that a step leaves under way was so before, or nothing was. -/
theorem Moves.underWay {c c' : UpdateCall} {sh sh' : Shared} (h : Moves c sh c' sh')
    (hunder : UnderWay sh' c') :
    UnderWay sh c ∨ quietPhase sh.lifecycle.phase = true ∨ sh.lifecycle.phase = .downloaded := by
  cases h with
  | @quiet phase _ locks activity cleared running =>
      obtain ⟨hactivity, hbegan⟩ := hunder
      refine Or.inl ⟨fun hnone => hactivity ?_, hbegan.trans locks.resets⟩
      have hnone' : Continues none phase.activity := hnone ▸ activity
      generalize hnew : phase.activity = new at hnone'
      cases hnone' with
      | same => exact hnew
      | ended => exact hnew
  | beginCheck now idle transition =>
      have hphase := (UpdateLifecycle.beginCheck_eq_ok transition).1
      simp only [List.mem_cons, List.not_mem_nil, or_false] at hphase
      rcases hphase with hphase | hphase | hphase | hphase <;>
        exact Or.inr (Or.inl (by simp [hphase, quietPhase]))
  | decide deciding ended uncleared running transition => exact absurd ended hunder.1
  | fail message failing ended uncleared running => exact absurd ended hunder.1
  | beginDownload idle transition held =>
      obtain ⟨hphase, -⟩ := UpdateLifecycle.beginDownload_eq_ok transition
      exact Or.inr (Or.inl (by simp [hphase, quietPhase]))
  | panic transition missing => exact absurd rfl hunder.1
  | keep keeping => exact Or.inl ⟨by simp [keeping, Phase.activity], hunder.2⟩
  | finish finishing transition => exact absurd rfl hunder.1
  | beginInstall idle transition =>
      exact Or.inr (Or.inr (UpdateLifecycle.beginInstall_eq_ok transition).1)
  | read reading found => exact Or.inl ⟨by simp [reading, Phase.activity], hunder.2⟩
  | install verifying verified => exact Or.inl ⟨by simp [verifying, Phase.activity], hunder.2⟩
  | take taking => exact absurd rfl hunder.1
  | reset resetting => exact absurd rfl hunder.1
  | discard clearing idle ended uncleared running => exact absurd ended hunder.1

omit [PathCrate] in
/-- No step brings another call under way. -/
theorem Moves.underWay_other {c c' d : UpdateCall} {sh sh' : Shared} (h : Moves c sh c' sh')
    (hd : Stands sh d) (hunder : UnderWay sh' d) : UnderWay sh d := by
  have hresets : sh'.resets = sh.resets ∨ sh'.resets = sh.resets + 1 := by
    cases h with
    | quiet locks activity cleared running => exact Or.inl locks.resets
    | reset resetting => exact Or.inr rfl
    | _ => exact Or.inl rfl
  have hbefore := hd.began
  have hbegan := hunder.2
  refine ⟨hunder.1, ?_⟩
  omega

/-! ## §6. Runs. -/

/-- The account of all calls. -/
structure Account (s : UpdateState) : Prop where
  kept : Kept s.toShared
  calls : ∀ id, Stands s.toShared (s.call id)
  alone : ∀ i j, UnderWay s.toShared (s.call i) → UnderWay s.toShared (s.call j) → i = j

omit [PathCrate] in
theorem account_started (currentVersion : Text) (stored : UpdatePersistentState)
    (files : Text → Option Bytes) : Account (started currentVersion stored files) := by
  constructor
  · constructor
    · exact UpdateLifecycle.held_default
    · intro _ p hp
      cases hp
    · intro p hp
      cases hp
    · intro n hn
      cases hn
    · intro n hn
      cases hn
    · intro i hi
      cases hi
  · intro id
    exact .ended rfl rfl (Nat.le_refl _) (Nat.le_refl _)
  · intro i j hi
    exact absurd rfl hi.1

omit [Sha256Crate] [PathCrate] in
theorem request_idle (request : Request) : request.phase.activity = none
    ∧ request.phase.cleared = none ∧ request.phase ≠ .panicked := by
  cases request <;> simp [Request.phase, Phase.activity, Phase.cleared]

/-- **Every guarded step keeps the account.** -/
theorem step_keeps {event : UpdateEvent} {s s' : UpdateState} (hguarded : guarded event s = true)
    (h : Account s) (hstep : step event s = some s') : Account s' := by
  cases event with
  | disk path contents =>
      obtain rfl := Option.some.inj hstep
      exact ⟨h.kept.same ⟨rfl, rfl, rfl, rfl, rfl, rfl, rfl⟩,
        fun id => (h.calls id).same rfl rfl rfl rfl, h.alone⟩
  | start id request =>
      obtain ⟨-, hshared, hcall⟩ := step_start hstep
      obtain ⟨hactivity, hcleared, -⟩ := request_idle request
      have hphase : (s.toShared.begin request.phase).phase.activity = none := hactivity
      refine ⟨hshared ▸ h.kept, fun j => ?_, fun i j hi hj => ?_⟩
      · rw [hshared, hcall]
        by_cases hj : j = id
        · subst hj
          rw [Function.update_self]
          exact .ended hactivity hcleared (Nat.le_refl _) (Nat.le_refl _)
        · rw [Function.update_of_ne hj]
          exact h.calls j
      · -- the call that is started is not under way
        have hold : ∀ k, UnderWay s'.toShared (s'.call k) → UnderWay s.toShared (s.call k) := by
          intro k hk
          rw [hshared, hcall] at hk
          by_cases hkid : k = id
          · subst hkid
            rw [Function.update_self] at hk
            exact absurd hphase hk.1
          · rw [Function.update_of_ne hkid] at hk
            exact hk
        exact h.alone i j (hold i hi) (hold j hj)
  | step id answer =>
      obtain ⟨⟨c', sh'⟩, hadvance, rfl⟩ := Option.map_eq_some_iff.mp hstep
      have hmoves := advance_moves hadvance
      have hguarded : guardedCall (s.call id) s.toShared = true := hguarded
      have hother : ∀ j, j ≠ id → Stands sh' (s.call j) := by
        intro j hj
        refine hmoves.other hguarded (fun hc hd => hj ?_) (h.calls j)
        exact h.alone j id hd hc
      -- what another call is under way with keeps this one from beginning
      have halone : ∀ j, j ≠ id → UnderWay sh' c' → ¬ UnderWay sh' (s.call j) := by
        intro j hj hc' hd'
        have hd := hmoves.underWay_other (h.calls j) hd'
        rcases hmoves.underWay hc' with hc | hquiet | hdownloaded
        · exact hj (h.alone j id hd hc)
        · exact absurd hquiet (by simp [((h.calls j).not_quiet hd).1])
        · exact ((h.calls j).not_quiet hd).2 hdownloaded
      refine ⟨hmoves.kept hguarded h.kept (h.calls id), fun j => ?_, fun i j hi' hj' => ?_⟩
      · show Stands sh' (Function.update s.call id c' j)
        by_cases hj : j = id
        · subst hj
          rw [Function.update_self]
          exact hmoves.own hguarded h.kept (h.calls j)
        · rw [Function.update_of_ne hj]
          exact hother j hj
      · have hi : UnderWay sh' (Function.update s.call id c' i) := hi'
        have hj : UnderWay sh' (Function.update s.call id c' j) := hj'
        by_cases hiid : i = id
        · by_cases hjid : j = id
          · rw [hiid, hjid]
          · subst hiid
            rw [Function.update_self] at hi
            rw [Function.update_of_ne hjid] at hj
            exact absurd hj (halone j hjid hi)
        · rw [Function.update_of_ne hiid] at hi
          by_cases hjid : j = id
          · subst hjid
            rw [Function.update_self] at hj
            exact absurd hi (halone i hiid hj)
          · rw [Function.update_of_ne hjid] at hj
            exact h.alone i j (hmoves.underWay_other (h.calls i) hi)
              (hmoves.underWay_other (h.calls j) hj)

/-- Every step of a run is guarded. -/
def guardedRun : List UpdateEvent → UpdateState → Bool
  | [], _ => true
  | event :: rest, s =>
      guarded event s && match step event s with
        | none => true
        | some s' => guardedRun rest s'

theorem run_keeps {events : List UpdateEvent} {s s' : UpdateState} (h : Account s)
    (hguarded : guardedRun events s = true) (hrun : run events s = some s') : Account s' := by
  induction events generalizing s with
  | nil =>
      obtain rfl := Option.some.inj hrun
      exact h
  | cons event rest ih =>
      obtain ⟨next, hstep, hrest⟩ := Option.bind_eq_some_iff.mp hrun
      simp only [guardedRun, hstep, Bool.and_eq_true] at hguarded
      exact ih (step_keeps hguarded.1 h hstep) hguarded.2 hrest

/-! ## §7. No download panics. -/

omit [PathCrate] in
/-- From `available` on the lifecycle keeps its release, so that a download finds one. -/
theorem Moves.held {c c' : UpdateCall} {sh sh' : Shared} (h : Moves c sh c' sh')
    (hheld : sh.lifecycle.Held) : sh'.lifecycle.Held ∧ c'.phase ≠ .panicked := by
  cases h with
  | quiet locks activity cleared running =>
      rw [locks.lifecycle]
      exact ⟨hheld, running⟩
  | beginCheck now idle transition => exact ⟨.beginCheck transition, by simp [Shared.begin]⟩
  | decide deciding ended uncleared running transition =>
      exact ⟨(decide_eq_ok transition).2.1, running⟩
  | fail message failing ended uncleared running => exact ⟨.fail message _, running⟩
  | beginDownload idle transition held =>
      exact ⟨hheld.beginDownload transition, by simp [Shared.begin]⟩
  | panic transition missing => exact absurd missing (beginDownload_held hheld transition)
  | keep keeping => exact ⟨hheld, by simp [UpdateCall.move]⟩
  | finish finishing transition => exact ⟨hheld.setDownloaded transition, by simp [UpdateCall.move]⟩
  | beginInstall idle transition => exact ⟨hheld.beginInstall transition, by simp [Shared.begin]⟩
  | read reading found => exact ⟨hheld, by simp [UpdateCall.move]⟩
  | install verifying verified => exact ⟨hheld, by simp [UpdateCall.move]⟩
  | take taking => exact ⟨hheld, by simp [UpdateCall.move]⟩
  | reset resetting => exact ⟨UpdateLifecycle.held_default, by simp [UpdateCall.move]⟩
  | discard clearing idle ended uncleared running => exact ⟨hheld, running⟩

/-- The lifecycle has the release of its phase, and no call has panicked. -/
structure Running (s : UpdateState) : Prop where
  held : s.lifecycle.Held
  running : ∀ id, (s.call id).phase ≠ .panicked

theorem step_running {event : UpdateEvent} {s s' : UpdateState} (h : Running s)
    (hstep : step event s = some s') : Running s' := by
  cases event with
  | disk path contents =>
      obtain rfl := Option.some.inj hstep
      exact ⟨h.held, h.running⟩
  | start id request =>
      obtain ⟨-, hshared, hcall⟩ := step_start hstep
      refine ⟨hshared ▸ h.held, fun j => ?_⟩
      rw [hcall]
      by_cases hj : j = id
      · subst hj
        rw [Function.update_self]
        exact (request_idle request).2.2
      · rw [Function.update_of_ne hj]
        exact h.running j
  | step id answer =>
      obtain ⟨⟨c', sh'⟩, hadvance, rfl⟩ := Option.map_eq_some_iff.mp hstep
      obtain ⟨hheld, hrunning⟩ := (advance_moves hadvance).held h.held
      refine ⟨hheld, fun j => ?_⟩
      show (Function.update s.call id c' j).phase ≠ .panicked
      by_cases hj : j = id
      · subst hj
        rw [Function.update_self]
        exact hrunning
      · rw [Function.update_of_ne hj]
        exact h.running j

theorem run_running {events : List UpdateEvent} {s s' : UpdateState} (h : Running s)
    (hrun : run events s = some s') : Running s' := by
  induction events generalizing s with
  | nil =>
      obtain rfl := Option.some.inj hrun
      exact h
  | cons event rest ih =>
      obtain ⟨next, hstep, hrest⟩ := Option.bind_eq_some_iff.mp hrun
      exact ih (step_running h hstep) hrest

/-- **However the calls interleave, no download panics; and if no step of a check, a download or
an installation that began before a reset meets what began after it, and no package is taken out
between a confirmation and its installation, then whatever is installed is what was
confirmed.** -/
theorem installed_as_confirmed (currentVersion : Text) (stored : UpdatePersistentState)
    (files : Text → Option Bytes) {events : List UpdateEvent} {s : UpdateState}
    (hrun : run events (started currentVersion stored files) = some s) :
    (∀ id, (s.call id).phase ≠ .panicked)
      ∧ (guardedRun events (started currentVersion stored files) = true →
          ∀ i ∈ s.installations, i.Sound) := by
  constructor
  · have hstarted : Running (started currentVersion stored files) :=
      ⟨UpdateLifecycle.held_default, fun _ => by simp [started]⟩
    exact (run_running hstarted hrun).running
  · intro hguarded
    exact (run_keeps (account_started currentVersion stored files) hguarded hrun).kept.sound

end Runs

/-! ## §8. Two generations. -/

def sampleRelease (version : Text) (bytes : Bytes) : UpdateRelease :=
  { version := version, notes := [], publishedAt := none,
    platform := "windows-x86_64-nsis".toList, downloadUrl := [], signature := [],
    sha256 := sampleSha256.digest bytes, size := bytes.length, buildId := [], source := .github }

def firstRelease : UpdateRelease := sampleRelease "1.1.0".toList [1]

def secondRelease : UpdateRelease := sampleRelease "1.2.0".toList [2]

/-- A check that finds a release, up to the lifecycle. -/
def checkOf (id : Nat) (release : UpdateRelease) : List UpdateEvent :=
  [.start id (.check true 100), done id, done id, done id,
    .step id (.checked (.ok { source := .github, decision := .available release,
                              fallbackReason := none })),
    done id, done id]

/-- The rest of a download, from its bytes to the lifecycle. -/
def bytesOf (id : Nat) (bytes : Bytes) : List UpdateEvent :=
  .step id (.downloaded (.ok bytes)) :: List.replicate 6 (done id)

/-- An installation that is confirmed, up to the adapter. -/
def installOf (id : Nat) : List UpdateEvent :=
  .start id (.install true) :: List.replicate 4 (done id)

def oneGeneration : List UpdateEvent :=
  checkOf 0 firstRelease ++ .start 1 .download :: done 1 :: bytesOf 1 [1] ++ installOf 2

theorem oneGeneration_installed : let _ : PathCrate := unixPath
    let _ : Sha256Crate := sampleSha256
    ∃ s, run oneGeneration (started "1.0.0".toList .default fun _ => none) = some s
      ∧ s.installations.map (·.pending.release) = [firstRelease]
      ∧ (∀ id, (s.call id).phase ≠ .panicked) ∧ ∀ i ∈ s.installations, i.Sound := by
  intro _ _
  have hrun : (run oneGeneration (started "1.0.0".toList .default fun _ => none)).any (fun s =>
      s.installations.map (·.pending.release) == [firstRelease]) = true := by decide
  have hguarded :
      guardedRun oneGeneration (started "1.0.0".toList .default fun _ => none) = true := by
    decide
  obtain ⟨s, hs, hinstalled⟩ := (Option.any_eq_true _ _).mp hrun
  have hboth := installed_as_confirmed "1.0.0".toList .default (fun _ => none) hs
  exact ⟨s, hs, beq_iff_eq.mp hinstalled, hboth.1, hboth.2 hguarded⟩

/-- The first release is being downloaded when `clear_downloaded` discards it; the second is
found and its download begins; the first download finishes, and the installation is
confirmed. -/
def twoGenerations : List UpdateEvent :=
  checkOf 0 firstRelease ++ [.start 1 .download, done 1]
    ++ .start 2 .clearDownloaded :: List.replicate 9 (done 2)
    ++ checkOf 3 secondRelease ++ [.start 4 .download, done 4]
    ++ bytesOf 1 [1] ++ installOf 5

/-- `clear_downloaded` has succeeded, the second release is confirmed, and the first one is
installed. -/
theorem other_release_installed : let _ : PathCrate := unixPath
    let _ : Sha256Crate := sampleSha256
    ∃ s, run twoGenerations (started "1.0.0".toList .default fun _ => none) = some s
      ∧ (s.call 2).phase.succeeded = true
      ∧ ∃ i ∈ s.installations, i.confirmed = some secondRelease
        ∧ i.pending.release = firstRelease ∧ ¬ i.Sound := by
  intro _ _
  have hrun : (run twoGenerations (started "1.0.0".toList .default fun _ => none)).any (fun s =>
      (s.call 2).phase.succeeded && s.installations.any fun i =>
        i.confirmed == some secondRelease && i.pending.release == firstRelease) = true := by
    decide
  obtain ⟨s, hs, hall⟩ := (Option.any_eq_true _ _).mp hrun
  simp only [Bool.and_eq_true, List.any_eq_true, beq_iff_eq] at hall
  obtain ⟨hcleared, i, hi, hconfirmed, hinstalled⟩ := hall
  refine ⟨s, hs, hcleared, i, hi, hconfirmed, hinstalled, fun hsound => ?_⟩
  have heq := hsound.confirmed
  rw [hconfirmed, hinstalled] at heq
  exact absurd (Option.some.inj heq) (by decide)

end QingzhouSSH.Services.UpdateManager
