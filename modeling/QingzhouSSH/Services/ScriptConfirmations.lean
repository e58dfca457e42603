/-
  QingzhouSSH.Services.ScriptConfirmations — what becomes of a script preview.

  A preview is kept, held by the one call that has taken it out, or spent.  Only a call that
  holds it submits its script, with what was shown; but a token that is cancelled between the
  connection and the submission is not looked at.

  Main results:
    * `advance_moves` — what a step does to previews, tokens and submissions;
    * `step_keeps` — every step keeps the account of the previews;
    * `executed_as_previewed` — runs;
    * `cancelled_script_submitted` — a cancellation after the connection.
-/
import QingzhouSSH.Lib.Holders
import QingzhouSSH.Services.ScriptPackages
import QingzhouSSH.Services.ScriptRuns

namespace QingzhouSSH.Services.ScriptService

open QingzhouSSH.Core.Scripts
open QingzhouSSH.Core.Tasks (UuidCrate ValidatedParameters hyphenatedUuid)
open QingzhouSSH.Domain
open QingzhouSSH.Lib.Holders
open QingzhouSSH.Repositories
open QingzhouSSH.Repositories.ScriptRepository (Tables Keyed getForEditor getVersion
  getVersion_of_editor getVersion_stable apply_keyed)

/-! ## §1. What a call holds. -/

/-- The run that a call may still submit a script for. -/
def Phase.holds : Phase → Option Uuid
  | .preflighting _ runId | .readying _ runId | .awaiting _ runId | .keepingPreview _ runId =>
      some runId
  | .checkingEnabled confirmation | .readingVersion confirmation => some confirmation.previewId
  | .starting prepared | .recording prepared | .activating prepared | .creatingExecution prepared
  | .connecting prepared | .rendering prepared _ | .marking prepared _ | .submitting prepared _ =>
      some prepared.previewId
  | _ => none

/-- The run is still being prepared for its preview. -/
def Phase.building : Phase → Bool
  | .preflighting _ _ | .readying _ _ | .awaiting _ _ | .keepingPreview _ _ => true
  | _ => false

/-- The call is connected, and has not submitted its script. -/
def Phase.connected : Phase → Bool
  | .rendering _ _ | .marking _ _ | .submitting _ _ => true
  | _ => false

/-- The run whose preview a cancellation has taken out. -/
def Phase.withdrawing : Phase → Option Uuid
  | .cancellingRun runId => some runId
  | _ => none

/-- The run and the token that a cancellation has found. -/
def Phase.target : Phase → Option (Uuid × Nat)
  | .cancellingToken runId token => some (runId, token)
  | _ => none

/-- A connection is taken by a call whose token is not cancelled, and no token is cancelled
between its call's connection and submission. -/
def guarded (event : ScriptEvent) (s : ScriptState) : Bool :=
  match event with
  | .step id (.connected _) => !s.cancelled id
  | .step id _ =>
      match (s.call id).target with
      | some (_, token) => !(s.call token).connected
      | none => true
  | _ => true

section Runs

variable [UuidCrate] (crates : Crates)

/-- These values are accepted for the parameters of the version. -/
def Validates (version : ScriptVersion) (values : Value) (validated : ValidatedParameters) :
    Prop :=
  ∃ parameters, parseParameters crates version = .ok parameters
    ∧ validateScriptParameterValues parameters values = .ok validated

/-- What a draft was made from is still stored. -/
structure Drafted (tables : Tables) (draft : PreviewDraft) : Prop where
  stored : getVersion draft.details.definition.id draft.details.activeVersion.versionNumber tables
    = .ok draft.details.activeVersion
  validated : Validates crates draft.details.activeVersion draft.parameterValues draft.validated
  hashed : draft.scan.bodySha256 = crates.sha256 draft.details.activeVersion.body

omit [UuidCrate] in
/-- A preview shows the version that it was made from. -/
structure Genuine (tables : Tables) (i : IssuedPreview) : Prop where
  stored : getVersion i.preview.scriptDefinitionId i.preview.scriptVersionNumber tables
    = .ok i.version
  versionId : i.preview.scriptVersionId = i.version.id
  hashed : i.preview.bodySha256 = crates.sha256 i.version.body
  timeoutSeconds : i.preview.timeoutSeconds = i.version.timeoutSeconds
  shell : i.preview.shell = i.version.shell

/-- What is kept of a preview is what was shown. -/
structure Matches (i : IssuedPreview) (pending : PendingScriptPreview) : Prop where
  confirmationToken : pending.confirmationToken = i.preview.confirmationToken
  expiresAt : pending.expiresAt = i.preview.expiresAt
  serverId : pending.serverId = i.preview.serverId
  definitionId : pending.definitionId = i.preview.scriptDefinitionId
  versionNumber : pending.versionNumber = i.preview.scriptVersionNumber
  values : Validates crates i.version pending.parameterValues i.values

/-- A confirmation of a preview that was shown. -/
structure Confirms (i : IssuedPreview) (confirmation : Confirmation) : Prop where
  previewId : i.preview.previewId = confirmation.previewId
  kept : Matches crates i confirmation.pending
  confirmationToken : confirmation.confirmationToken = i.preview.confirmationToken
  unexpired : confirmation.confirmedAt ≤ i.preview.expiresAt

/-- A script that is about to run, with what was shown. -/
structure Prepares (i : IssuedPreview) (prepared : PreparedScript) : Prop where
  confirms : Confirms crates i prepared.toConfirmation
  version : prepared.version = i.version
  values : prepared.values = i.values

omit [UuidCrate] in
/-- The command that starts the script. -/
def Launches (version : ScriptVersion) (values : ValidatedParameters) (launcher : Text) : Prop :=
  ∃ executable candidates,
    renderScriptLauncher candidates version.shell executable version.body values = .ok launcher

/-- What a call has worked out is true of what was shown. -/
def Stands (sh : Shared) : Phase → Prop
  | .creatingRun draft | .preflighting draft _ | .readying draft _ | .awaiting draft _
  | .keepingPreview draft _ => Drafted crates sh.tables draft
  | .checkingEnabled confirmation | .readingVersion confirmation =>
      ∃ i ∈ sh.issued, Confirms crates i confirmation
  | .starting prepared | .recording prepared | .activating prepared | .creatingExecution prepared
  | .connecting prepared | .rendering prepared _ => ∃ i ∈ sh.issued, Prepares crates i prepared
  | .marking prepared launcher | .submitting prepared launcher =>
      (∃ i ∈ sh.issued, Prepares crates i prepared)
        ∧ Launches prepared.version prepared.values launcher
  | _ => True

/-- A script that was submitted, as its preview showed it. -/
structure ScriptExecution.AsPreviewed (e : ScriptExecution) (i : IssuedPreview) : Prop where
  previewId : i.preview.previewId = e.previewId
  confirmationToken : e.confirmationToken = i.preview.confirmationToken
  unexpired : e.confirmedAt ≤ i.preview.expiresAt
  serverId : e.pending.serverId = i.preview.serverId
  version : e.version = i.version
  values : e.values = i.values
  launcher : Launches i.version i.values e.launcher

/-! ## §2. What a step does. -/

omit [UuidCrate] in
/-- Only the rows of runs may have changed, and none has gone. -/
structure SamePlaces (sh sh' : Shared) : Prop where
  tables : sh'.tables = sh.tables
  previews : sh'.previews = sh.previews
  active : sh'.active = sh.active
  cancelled : sh'.cancelled = sh.cancelled
  issued : sh'.issued = sh.issued
  withdrawn : sh'.withdrawn = sh.withdrawn
  cancelledRuns : sh'.cancelledRuns = sh.cancelledRuns
  executions : sh'.executions = sh.executions
  runs : ∀ r, sh.runs r ≠ none → sh'.runs r ≠ none

omit [UuidCrate] in
theorem SamePlaces.refl (sh : Shared) : SamePlaces sh sh :=
  ⟨rfl, rfl, rfl, rfl, rfl, rfl, rfl, rfl, fun _ h => h⟩

/-- The steps, by what they do to previews, tokens and submissions. -/
inductive Moves (id : Nat) (phase : Phase) (sh : Shared) (answer : Answer) :
    Phase → Shared → Prop where
  | quiet {phase' : Phase} {sh' : Shared} (same : SamePlaces sh sh')
      (holds : phase'.holds = none
        ∨ (phase'.holds = phase.holds ∧ phase'.building = phase.building))
      (connected : phase'.connected = true → phase.connected = true)
      (withdrawing : phase'.withdrawing = none) (target : phase'.target = none)
      (stands : Keyed sh.tables → (∀ i ∈ sh.issued, Genuine crates sh.tables i) →
        Stands crates sh phase → Stands crates sh phase') :
      Moves id phase sh answer phase' sh'
  | create {draft : PreviewDraft} {runId : Uuid} {row : OperationRunRecord}
      (creating : phase = .creatingRun draft) (fresh : sh.runs runId = none) :
      Moves id phase sh answer (.preflighting draft runId)
        { sh with runs := Function.update sh.runs runId (some row) }
  | keep {draft : PreviewDraft} {runId confirmationToken : Uuid} {now : Int}
      (keeping : phase = .keepingPreview draft runId) :
      Moves id phase sh answer
        (.returned (.ok (.previewed (draft.show runId confirmationToken now))))
        { sh with
          previews := Function.update sh.previews runId (some (draft.pending confirmationToken now))
          issued := { preview := draft.show runId confirmationToken now,
                      version := draft.details.activeVersion, values := draft.validated }
                    :: sh.issued }
  | consume {previewId confirmationToken : Uuid} {now : Int} {pending : PendingScriptPreview}
      (consuming : phase = .consuming previewId confirmationToken)
      (found : sh.previews previewId = some pending)
      (matching : pending.confirmationToken = confirmationToken)
      (unexpired : ¬ pending.expiresAt < now) :
      Moves id phase sh answer
        (.checkingEnabled { previewId := previewId, confirmationToken := confirmationToken,
                            confirmedAt := now, pending := pending })
        { sh with previews := Function.update sh.previews previewId none }
  | expire {previewId : Uuid} :
      Moves id phase sh answer (.expiring previewId)
        { sh with previews := Function.update sh.previews previewId none }
  | activate {prepared : PreparedScript} (activating : phase = .activating prepared) :
      Moves id phase sh answer (.creatingExecution prepared)
        { sh with active := Function.update sh.active prepared.previewId (some id) }
  | connect {prepared : PreparedScript} {capabilities : Core.Tasks.SystemCapabilities}
      (connecting : phase = .connecting prepared) (answered : answer = .connected (.ok capabilities)) :
      Moves id phase sh answer (.rendering prepared capabilities) sh
  | submit {prepared : PreparedScript} {launcher : Text}
      (submitting : phase = .submitting prepared launcher) :
      Moves id phase sh answer (.ending prepared)
        { sh with executions := { toPreparedScript := prepared, launcher := launcher,
                                  cancelledBefore := sh.cancelledRuns } :: sh.executions }
  | deactivate {prepared : PreparedScript} {result : AppResult ExecutionRepository.ExecutionStatus}
      (deactivating : phase = .deactivating prepared result) :
      Moves id phase sh answer (.closing prepared result)
        { sh with active := Function.update sh.active prepared.previewId none }
  | withdraw {runId : Uuid} {pending : PendingScriptPreview}
      (removing : phase = .removingPreview runId) (found : sh.previews runId = some pending) :
      Moves id phase sh answer (.cancellingRun runId)
        { sh with previews := Function.update sh.previews runId none
                  withdrawn := runId :: sh.withdrawn }
  | cancelWaiting {runId : Uuid} {sh' : Shared} (cancelling : phase = .cancellingRun runId)
      (same : SamePlaces sh sh') :
      Moves id phase sh answer (.returned (.ok .cancelled))
        { sh' with cancelledRuns := runId :: sh'.cancelledRuns }
  | find {runId : Uuid} {token : Nat} (finding : phase = .findingToken runId)
      (found : sh.active runId = some token) :
      Moves id phase sh answer (.cancellingToken runId token) sh
  | cancelActive {runId : Uuid} {token : Nat} (cancelling : phase = .cancellingToken runId token)
      (answered : answer = .done) :
      Moves id phase sh answer (.returned (.ok .cancelled))
        { sh with cancelled := Function.update sh.cancelled token true
                  cancelledRuns := runId :: sh.cancelledRuns }

variable {crates}

omit [UuidCrate] in
theorem SamePlaces.of_updateRun {sh sh' : Shared} {runId : Uuid}
    {update : OperationRunRecord → AppResult OperationRunRecord} {answer : Answer}
    (h : sh.updateRun runId update answer = some (.ok sh')) : SamePlaces sh sh' := by
  unfold Shared.updateRun at h
  repeat' split at h
  all_goals simp only [Option.some.injEq, Except.ok.injEq, reduceCtorEq] at h
  obtain rfl := h
  refine ⟨rfl, rfl, rfl, rfl, rfl, rfl, rfl, rfl, fun r hr => ?_⟩
  show Function.update sh.runs runId _ r ≠ none
  by_cases heq : r = runId
  · subst heq
    rw [Function.update_self]
    simp
  · rw [Function.update_of_ne heq]
    exact hr

omit [UuidCrate] in
theorem SamePlaces.of_tryTransition {sh sh' : Shared} {runId : Uuid} {next : OperationStatus}
    {answer : Answer} (h : sh.tryTransition runId next answer = some sh') : SamePlaces sh sh' := by
  unfold Shared.tryTransition at h
  obtain ⟨result, hresult, h⟩ := Option.map_eq_some_iff.mp h
  cases result with
  | ok found =>
      obtain rfl : found = sh' := h
      exact .of_updateRun hresult
  | error error =>
      obtain rfl : sh = sh' := h
      exact .refl sh

/-! ## §3. What a call works out. -/

/-- A draft is made from what is stored. -/
theorem draftPreview_drafted {definitionId : Uuid} {serverId : Text} {parameterValues : Value}
    {tables : Tables} {draft : PreviewDraft} (hkeyed : Keyed tables)
    (h : draftPreview crates definitionId serverId parameterValues tables = .ok draft) :
    Drafted crates tables draft := by
  unfold draftPreview at h
  obtain ⟨details, hdetails, h⟩ := bind_eq_ok.mp h
  obtain ⟨parameters, hparameters, h⟩ := bind_eq_ok.mp h
  obtain ⟨validated, hvalidated, h⟩ := bind_eq_ok.mp h
  obtain ⟨scan, hscan, h⟩ := bind_eq_ok.mp h
  split at h
  next => cases h
  obtain rfl := Except.ok.inj h
  unfold requireEnabled at hdetails
  repeat' split at hdetails
  all_goals try contradiction
  next found hfound _ =>
    obtain rfl := Except.ok.inj hdetails
    have hid : found.definition.id = definitionId := by
      unfold getForEditor at hfound
      obtain ⟨row, hrow, hrest⟩ := Option.bind_eq_some_iff.mp hfound
      obtain ⟨version, -, hrest⟩ := Option.bind_eq_some_iff.mp hrest
      obtain rfl := Option.some.inj hrest
      have hlive := List.find?_some hrow
      simp only [ScriptRepository.isLive, Bool.and_eq_true, beq_iff_eq] at hlive
      exact hlive.1
    refine ⟨?_, ⟨parameters, hparameters, hvalidated⟩, ?_⟩
    · show getVersion found.definition.id _ tables = _
      rw [hid]
      exact getVersion_of_editor hkeyed hfound
    · unfold scanScriptBodyFor at hscan
      obtain ⟨-, -, hscan⟩ := bind_eq_ok.mp hscan
      obtain rfl := Except.ok.inj hscan
      rfl

/-- **The version that a confirmation reads is the one that was shown, and its values are
checked to the same ones.** -/
theorem prepareScript_prepares {i : IssuedPreview} {confirmation : Confirmation}
    {version : ScriptVersion} {prepared : PreparedScript} {tables : Tables}
    (hgenuine : Genuine crates tables i) (hconfirms : Confirms crates i confirmation)
    (hversion : getVersion confirmation.pending.definitionId confirmation.pending.versionNumber
      tables = .ok version)
    (h : prepareScript crates confirmation version = .ok prepared) :
    Prepares crates i prepared := by
  have hstored := hgenuine.stored
  rw [← hconfirms.kept.definitionId, ← hconfirms.kept.versionNumber, hversion] at hstored
  obtain rfl := Except.ok.inj hstored
  obtain ⟨known, hknown, hvalues⟩ := hconfirms.kept.values
  unfold prepareScript at h
  obtain ⟨parameters, hparameters, h⟩ := bind_eq_ok.mp h
  obtain ⟨validated, hvalidated, h⟩ := bind_eq_ok.mp h
  split at h
  next => cases h
  obtain rfl := Except.ok.inj h
  obtain rfl := Except.ok.inj (hknown.symm.trans hparameters)
  exact ⟨hconfirms, rfl, Except.ok.inj (hvalidated.symm.trans hvalues)⟩

theorem prepareScript_previewId {confirmation : Confirmation} {version : ScriptVersion}
    {prepared : PreparedScript} (h : prepareScript crates confirmation version = .ok prepared) :
    prepared.previewId = confirmation.previewId := by
  unfold prepareScript at h
  obtain ⟨parameters, -, h⟩ := bind_eq_ok.mp h
  obtain ⟨validated, -, h⟩ := bind_eq_ok.mp h
  split at h
  next => cases h
  obtain rfl := Except.ok.inj h
  rfl

omit [UuidCrate] in
theorem launches_of_rendered {capabilities : Core.Tasks.SystemCapabilities}
    {candidates : List Uuid} {version : ScriptVersion} {values : ValidatedParameters}
    {launcher : Text}
    (h : (do
        let executable ← version.shell.executable capabilities
        renderScriptLauncher candidates version.shell executable version.body values)
      = .ok launcher) : Launches version values launcher := by
  obtain ⟨executable, -, h⟩ := bind_eq_ok.mp h
  exact ⟨executable, candidates, h⟩

/-! ## §4. The steps. -/

theorem advancePreview_moves {id : Nat} {phase phase' : Phase} {sh sh' : Shared} {answer : Answer}
    (h : advancePreview crates phase sh answer = some (phase', sh')) :
    Moves crates id phase sh answer phase' sh' := by
  unfold advancePreview refuse at h
  repeat' split at h
  all_goals try contradiction
  all_goals obtain ⟨rfl, rfl⟩ := Prod.mk.inj (Option.some.inj h)
  all_goals first
    | exact .create rfl ‹_›
    | exact .keep rfl
    | exact .quiet (.of_updateRun ‹_›) (.inr ⟨rfl, rfl⟩) (fun h => h) rfl rfl (fun _ _ h => h)
    | exact .quiet (.refl _) (.inl rfl) (fun h => h) rfl rfl
        (fun hkeyed _ _ => draftPreview_drafted hkeyed ‹_›)
    | exact .quiet (.refl _) (.inl rfl) (fun h => h) rfl rfl (fun _ _ _ => trivial)

theorem advanceConfirm_moves {id : Nat} {phase phase' : Phase} {sh sh' : Shared} {answer : Answer}
    (h : advanceConfirm crates id phase sh answer = some (phase', sh')) :
    Moves crates id phase sh answer phase' sh' := by
  unfold advanceConfirm refuse at h
  repeat' split at h
  all_goals try contradiction
  all_goals obtain ⟨rfl, rfl⟩ := Prod.mk.inj (Option.some.inj h)
  all_goals first
    | exact .expire
    | exact .consume rfl ‹_› (not_ne_iff.mp ‹_›) ‹_›
    | exact .activate rfl
    | exact .deactivate rfl
    | exact .quiet (.of_updateRun ‹_›) (.inr ⟨rfl, rfl⟩) (fun h => h) rfl rfl (fun _ _ h => h)
    | exact .quiet (.of_updateRun ‹_›) (.inl rfl) (fun h => h) rfl rfl
        (fun _ _ _ => trivial)
    | exact .quiet (.of_tryTransition ‹_›) (.inl rfl) (fun h => h) rfl rfl
        (fun _ _ _ => trivial)
    | exact .quiet (.refl _) (.inl rfl) (fun h => h) rfl rfl (fun _ _ _ => trivial)
    | exact .quiet (.refl _) (.inr ⟨rfl, rfl⟩) (fun h => h) rfl rfl (fun _ _ h => h)
    | exact .quiet (.refl _) (.inr ⟨congrArg some (prepareScript_previewId ‹_›), rfl⟩)
        (fun h => h) rfl rfl
        (fun _ hgenuine hstands => by
          obtain ⟨i, hi, hconfirms⟩ := hstands
          exact ⟨i, hi, prepareScript_prepares (hgenuine i hi) hconfirms ‹_› ‹_›⟩)

theorem advanceExecution_moves {id : Nat} {phase phase' : Phase} {sh sh' : Shared}
    {answer : Answer} (h : advanceExecution id phase sh answer = some (phase', sh')) :
    Moves crates id phase sh answer phase' sh' := by
  unfold advanceExecution at h
  repeat' split at h
  all_goals try contradiction
  all_goals obtain ⟨rfl, rfl⟩ := Prod.mk.inj (Option.some.inj h)
  all_goals first
    | exact .connect rfl rfl
    | exact .submit rfl
    | exact .quiet (.refl _) (.inl rfl) (fun h => by cases h) rfl rfl (fun _ _ _ => trivial)
    | exact .quiet (.refl _) (.inr ⟨rfl, rfl⟩) (fun h => h) rfl rfl (fun _ _ h => h)
    | exact .quiet (.refl _) (.inr ⟨rfl, rfl⟩) (fun _ => rfl) rfl rfl
        (fun _ _ hstands => ⟨hstands, launches_of_rendered ‹_›⟩)

theorem advanceCancel_moves {id : Nat} {phase phase' : Phase} {sh sh' : Shared} {answer : Answer}
    (h : advanceCancel phase sh answer = some (phase', sh')) :
    Moves crates id phase sh answer phase' sh' := by
  unfold advanceCancel refuse at h
  repeat' split at h
  all_goals try contradiction
  all_goals obtain ⟨rfl, rfl⟩ := Prod.mk.inj (Option.some.inj h)
  all_goals first
    | exact .withdraw rfl ‹_›
    | exact .cancelWaiting rfl (.of_updateRun ‹_›)
    | exact .find rfl ‹_›
    | exact .cancelActive rfl rfl
    | exact .quiet (.refl _) (.inl rfl) (fun h => h) rfl rfl (fun _ _ _ => trivial)

/-- **What a step does to previews, tokens and submissions.** -/
theorem advance_moves {id : Nat} {phase phase' : Phase} {sh sh' : Shared} {answer : Answer}
    (h : advance crates id phase sh answer = some (phase', sh')) :
    Moves crates id phase sh answer phase' sh' := by
  rcases advance_cases h with h | h | h | h
  · exact advancePreview_moves h
  · exact advanceConfirm_moves h
  · exact advanceExecution_moves h
  · exact advanceCancel_moves h

/-! ## §5. Where a preview is. -/

omit [UuidCrate] in
/-- The preview is not kept any more, and of the calls only these may submit its script. -/
structure Spent (s : ScriptState) (may : Nat → Prop) (r : Uuid) : Prop where
  known : s.runs r ≠ none
  gone : s.previews r = none
  held : ∀ j, (s.call j).holds = some r → may j ∧ (s.call j).building = false

omit [UuidCrate] in
/-- The state after a step of a call. -/
def ScriptState.moved (s : ScriptState) (id : Nat) (phase : Phase) (sh : Shared) : ScriptState :=
  { toShared := sh, call := Function.update s.call id phase }

/-- No row of a run goes. -/
theorem Moves.runs {id : Nat} {phase phase' : Phase} {sh sh' : Shared} {answer : Answer}
    (h : Moves crates id phase sh answer phase' sh') {r : Uuid} (hr : sh.runs r ≠ none) :
    sh'.runs r ≠ none := by
  cases h with
  | quiet same holds connected withdrawing target stands => exact same.runs r hr
  | @create draft runId row creating fresh =>
      show Function.update sh.runs runId _ r ≠ none
      by_cases heq : r = runId
      · rw [heq, Function.update_self]
        simp
      · rw [Function.update_of_ne heq]
        exact hr
  | cancelWaiting cancelling same => exact same.runs r hr
  | _ => exact hr

/-- What a call holds after a step it held before, has created, or has taken out. -/
theorem Moves.takes {id : Nat} {phase phase' : Phase} {sh sh' : Shared} {answer : Answer}
    (h : Moves crates id phase sh answer phase' sh') {r : Uuid} (hr : phase'.holds = some r) :
    (phase.holds = some r ∧ phase'.building = phase.building)
      ∨ (sh.runs r = none ∧ sh'.runs r ≠ none ∧ sh'.previews = sh.previews)
      ∨ (sh.previews r ≠ none ∧ sh'.previews r = none ∧ phase'.building = false) := by
  cases h with
  | quiet same holds connected withdrawing target stands =>
      rcases holds with hnone | ⟨hsame, hbuilding⟩
      · exact absurd (hnone.symm.trans hr) (by simp)
      · exact Or.inl ⟨hsame.symm.trans hr, hbuilding⟩
  | create creating fresh =>
      obtain rfl := Option.some.inj hr
      exact Or.inr (Or.inl ⟨fresh, by simp, rfl⟩)
  | consume consuming found matching unexpired =>
      obtain rfl := Option.some.inj hr
      exact Or.inr (Or.inr ⟨by simp [found], by simp, rfl⟩)
  | activate activating =>
      subst activating
      exact Or.inl ⟨hr, rfl⟩
  | connect connecting answered =>
      subst connecting
      exact Or.inl ⟨hr, rfl⟩
  | keep keeping => cases hr
  | expire => cases hr
  | submit submitting => cases hr
  | deactivate deactivating => cases hr
  | withdraw removing found => cases hr
  | cancelWaiting cancelling same => cases hr
  | find finding found => cases hr
  | cancelActive cancelling answered => cases hr

/-- A preview that is kept after a step was kept before, or the call that prepared it keeps it. -/
theorem Moves.waits {id : Nat} {phase phase' : Phase} {sh sh' : Shared} {answer : Answer}
    (h : Moves crates id phase sh answer phase' sh') {r : Uuid} (hr : sh'.previews r ≠ none) :
    (sh.previews r ≠ none ∧ sh'.previews r = sh.previews r)
      ∨ (phase.holds = some r ∧ phase.building = true ∧ phase'.holds = none) := by
  have hremoved : ∀ {removed : Uuid}, Function.update sh.previews removed none r ≠ none →
      sh.previews r ≠ none ∧ Function.update sh.previews removed none r = sh.previews r := by
    intro removed hkept
    by_cases heq : r = removed
    · rw [heq, Function.update_self] at hkept
      exact absurd rfl hkept
    · rw [Function.update_of_ne heq] at hkept ⊢
      exact ⟨hkept, rfl⟩
  cases h with
  | quiet same holds connected withdrawing target stands =>
      rw [same.previews] at hr ⊢
      exact Or.inl ⟨hr, rfl⟩
  | @keep draft runId confirmationToken now keeping =>
      by_cases heq : r = runId
      · subst heq
        exact Or.inr ⟨by rw [keeping]; rfl, by rw [keeping]; rfl, rfl⟩
      · refine Or.inl ?_
        have hother : Function.update sh.previews runId
            (some (draft.pending confirmationToken now)) r = sh.previews r :=
          Function.update_of_ne heq _ _
        exact ⟨hother ▸ hr, hother⟩
  | consume consuming found matching unexpired => exact Or.inl (hremoved hr)
  | expire => exact Or.inl (hremoved hr)
  | withdraw removing found => exact Or.inl (hremoved hr)
  | cancelWaiting cancelling same =>
      have hsame := congrFun same.previews r
      exact Or.inl ⟨hsame ▸ hr, hsame⟩
  | _ => exact Or.inl ⟨hr, rfl⟩

/-- **What is spent stays spent.** -/
theorem Spent.step {s : ScriptState} {may may' : Nat → Prop} {r : Uuid} (hspent : Spent s may r)
    {id : Nat} {phase' : Phase} {sh' : Shared} {answer : Answer}
    (h : Moves crates id (s.call id) s.toShared answer phase' sh') (hmay : ∀ j, may j → may' j) :
    Spent (s.moved id phase' sh') may' r := by
  refine ⟨h.runs hspent.known, ?_, fun j hj => ?_⟩
  · by_contra hkept
    rcases h.waits hkept with ⟨hold, -⟩ | ⟨hholds, hbuilding, -⟩
    · exact hold hspent.gone
    · exact absurd hbuilding (by simp [(hspent.held id hholds).2])
  · rcases holds_update hj with ⟨rfl, hnext⟩ | ⟨hne, hold⟩
    · rcases h.takes hnext with ⟨hheld, hbuilding⟩ | ⟨hfresh, -⟩ | ⟨hkept, -⟩
      · obtain ⟨hmayj, hnot⟩ := hspent.held j hheld
        refine ⟨hmay j hmayj, ?_⟩
        show (Function.update s.call j phase' j).building = false
        rw [Function.update_self, hbuilding]
        exact hnot
      · exact absurd hfresh hspent.known
      · exact absurd hspent.gone hkept
    · obtain ⟨hmayj, hnot⟩ := hspent.held j hold
      refine ⟨hmay j hmayj, ?_⟩
      show (Function.update s.call id phase' j).building = false
      rw [Function.update_of_ne hne]
      exact hnot

/-! ## §6. What was shown. -/

/-- What the calls have worked out is true of what was shown, and what was submitted is too. -/
structure Facts (crates : Crates) (s : ScriptState) : Prop where
  keyed : Keyed s.tables
  genuine : ∀ i ∈ s.issued, Genuine crates s.tables i
  waiting : ∀ r pending, s.previews r = some pending →
    ∃ i ∈ s.issued, i.preview.previewId = r ∧ Matches crates i pending
  stands : ∀ j, Stands crates s.toShared (s.call j)
  submitted : ∀ e ∈ s.executions, ∃ i ∈ s.issued, e.AsPreviewed i

/-- What a call has worked out stays true when more is shown. -/
theorem Stands.mono {sh sh' : Shared} {phase : Phase} (h : Stands crates sh phase)
    (htables : sh'.tables = sh.tables) (hissued : ∀ i ∈ sh.issued, i ∈ sh'.issued) :
    Stands crates sh' phase := by
  have hmore : ∀ {P : IssuedPreview → Prop}, (∃ i ∈ sh.issued, P i) → ∃ i ∈ sh'.issued, P i :=
    fun ⟨i, hi, hP⟩ => ⟨i, hissued i hi, hP⟩
  cases phase with
  | creatingRun draft | preflighting draft _ | readying draft _ | awaiting draft _
  | keepingPreview draft _ =>
      show Drafted crates sh'.tables draft
      rw [htables]
      exact h
  | checkingEnabled confirmation | readingVersion confirmation => exact hmore h
  | starting prepared | recording prepared | activating prepared | creatingExecution prepared
  | connecting prepared | rendering prepared _ => exact hmore h
  | marking prepared launcher | submitting prepared launcher => exact ⟨hmore h.1, h.2⟩
  | _ => trivial

/-- What a call has worked out stays true when scripts are edited. -/
theorem Stands.edited {sh : Shared} {phase : Phase} (h : Stands crates sh phase)
    (call : ScriptRepository.Call) :
    Stands crates { sh with tables := ScriptRepository.apply crates call sh.tables } phase := by
  cases phase with
  | creatingRun draft | preflighting draft _ | readying draft _ | awaiting draft _
  | keepingPreview draft _ =>
      have hdrafted : Drafted crates sh.tables draft := h
      exact ⟨getVersion_stable hdrafted.stored call, hdrafted.validated, hdrafted.hashed⟩
  | _ => exact h

theorem Genuine.edited {tables : Tables} {i : IssuedPreview} (h : Genuine crates tables i)
    (call : ScriptRepository.Call) : Genuine crates (ScriptRepository.apply crates call tables) i :=
  { stored := getVersion_stable h.stored call, versionId := h.versionId, hashed := h.hashed,
    timeoutSeconds := h.timeoutSeconds, shell := h.shell }

omit [UuidCrate] in
/-- A preview that is removed. -/
theorem of_removed {previews : Uuid → Option PendingScriptPreview} {removed r : Uuid}
    {pending : PendingScriptPreview} (h : Function.update previews removed none r = some pending) :
    previews r = some pending := by
  by_cases heq : r = removed
  · rw [heq, Function.update_self] at h
    cases h
  · rw [Function.update_of_ne heq] at h
    exact h

/-- **Every step keeps what is known of the previews.** -/
theorem Facts.step {s : ScriptState} (hfacts : Facts crates s) {id : Nat} {phase' : Phase}
    {sh' : Shared} {answer : Answer}
    (h : Moves crates id (s.call id) s.toShared answer phase' sh') :
    Facts crates (s.moved id phase' sh') := by
  -- the call that steps, and the others
  have hcalls : ∀ {shown : Shared}, shown.tables = s.tables → (∀ i ∈ s.issued, i ∈ shown.issued) →
      Stands crates shown phase' → ∀ j, Stands crates shown (Function.update s.call id phase' j) := by
    intro shown htables hissued hown j
    by_cases hj : j = id
    · rw [hj, Function.update_self]
      exact hown
    · rw [Function.update_of_ne hj]
      exact (hfacts.stands j).mono htables hissued
  have hid := hfacts.stands id
  cases h with
  | quiet same holds connected withdrawing target stands =>
      have hmore : ∀ i ∈ s.issued, i ∈ sh'.issued := fun i hi => same.issued ▸ hi
      have hown := (stands hfacts.keyed hfacts.genuine hid).mono same.tables hmore
      constructor
      · show Keyed sh'.tables
        rw [same.tables]
        exact hfacts.keyed
      · show ∀ i ∈ sh'.issued, Genuine crates sh'.tables i
        rw [same.tables, same.issued]
        exact hfacts.genuine
      · show ∀ r pending, sh'.previews r = some pending → _
        rw [same.previews]
        intro r pending hr
        show ∃ i ∈ sh'.issued, _
        rw [same.issued]
        exact hfacts.waiting r pending hr
      · exact hcalls same.tables hmore hown
      · show ∀ e ∈ sh'.executions, ∃ i ∈ sh'.issued, _
        rw [same.executions, same.issued]
        exact hfacts.submitted
  | create creating fresh =>
      rw [creating] at hid
      exact ⟨hfacts.keyed, hfacts.genuine, hfacts.waiting, hcalls rfl (fun i hi => hi) hid,
        hfacts.submitted⟩
  | @keep draft runId confirmationToken now keeping =>
      rw [keeping] at hid
      have hdrafted : Drafted crates s.tables draft := hid
      refine ⟨hfacts.keyed, ?_, ?_,
        hcalls rfl (fun i hi => List.mem_cons_of_mem _ hi) trivial, ?_⟩
      · intro i hi
        rcases List.mem_cons.mp hi with rfl | hi
        · exact ⟨hdrafted.stored, rfl, hdrafted.hashed, rfl, rfl⟩
        · exact hfacts.genuine i hi
      · intro r pending hr
        have hr : Function.update s.previews runId (some (draft.pending confirmationToken now)) r
          = some pending := hr
        by_cases heq : r = runId
        · subst heq
          rw [Function.update_self] at hr
          obtain rfl := Option.some.inj hr
          exact ⟨_, List.mem_cons_self, rfl, rfl, rfl, rfl, rfl, rfl, hdrafted.validated⟩
        · rw [Function.update_of_ne heq] at hr
          obtain ⟨i, hi, hboth⟩ := hfacts.waiting r pending hr
          exact ⟨i, List.mem_cons_of_mem _ hi, hboth⟩
      · intro e he
        obtain ⟨i, hi, hshown⟩ := hfacts.submitted e he
        exact ⟨i, List.mem_cons_of_mem _ hi, hshown⟩
  | @consume previewId confirmationToken now pending consuming found matching unexpired =>
      obtain ⟨i, hi, hpreviewId, hmatches⟩ := hfacts.waiting previewId pending found
      have hunexpired : now ≤ i.preview.expiresAt := by
        rw [← hmatches.expiresAt]
        omega
      refine ⟨hfacts.keyed, hfacts.genuine, fun r kept hr => hfacts.waiting r kept (of_removed hr),
        hcalls rfl (fun i hi => hi) ⟨i, hi, hpreviewId, hmatches, ?_, hunexpired⟩,
        hfacts.submitted⟩
      exact matching.symm.trans hmatches.confirmationToken
  | expire =>
      exact ⟨hfacts.keyed, hfacts.genuine, fun r kept hr => hfacts.waiting r kept (of_removed hr),
        hcalls rfl (fun i hi => hi) trivial, hfacts.submitted⟩
  | activate activating =>
      rw [activating] at hid
      exact ⟨hfacts.keyed, hfacts.genuine, hfacts.waiting, hcalls rfl (fun i hi => hi) hid,
        hfacts.submitted⟩
  | connect connecting answered =>
      rw [connecting] at hid
      exact ⟨hfacts.keyed, hfacts.genuine, hfacts.waiting, hcalls rfl (fun i hi => hi) hid,
        hfacts.submitted⟩
  | @submit prepared launcher submitting =>
      rw [submitting] at hid
      obtain ⟨⟨i, hi, hprepares⟩, hlaunches⟩ := hid
      refine ⟨hfacts.keyed, hfacts.genuine, hfacts.waiting,
        hcalls rfl (fun i hi => hi) trivial, fun e he => ?_⟩
      rcases List.mem_cons.mp he with rfl | he
      · have hconfirms := hprepares.confirms
        rw [hprepares.version, hprepares.values] at hlaunches
        exact ⟨i, hi, hconfirms.previewId, hconfirms.confirmationToken, hconfirms.unexpired,
          hconfirms.kept.serverId, hprepares.version, hprepares.values, hlaunches⟩
      · exact hfacts.submitted e he
  | withdraw removing found =>
      exact ⟨hfacts.keyed, hfacts.genuine, fun r kept hr => hfacts.waiting r kept (of_removed hr),
        hcalls rfl (fun i hi => hi) trivial, hfacts.submitted⟩
  | @cancelWaiting runId shared cancelling same =>
      constructor
      · show Keyed shared.tables
        rw [same.tables]
        exact hfacts.keyed
      · show ∀ i ∈ shared.issued, Genuine crates shared.tables i
        rw [same.tables, same.issued]
        exact hfacts.genuine
      · intro r pending hr
        show ∃ i ∈ shared.issued, _
        rw [same.issued]
        exact hfacts.waiting r pending ((congrFun same.previews r).symm.trans hr)
      · exact hcalls same.tables (fun i hi => same.issued ▸ hi) trivial
      · show ∀ e ∈ shared.executions, ∃ i ∈ shared.issued, _
        rw [same.executions, same.issued]
        exact hfacts.submitted
  | deactivate deactivating =>
      exact ⟨hfacts.keyed, hfacts.genuine, hfacts.waiting, hcalls rfl (fun i hi => hi) trivial,
        hfacts.submitted⟩
  | find finding found =>
      exact ⟨hfacts.keyed, hfacts.genuine, hfacts.waiting, hcalls rfl (fun i hi => hi) trivial,
        hfacts.submitted⟩
  | cancelActive cancelling answered =>
      exact ⟨hfacts.keyed, hfacts.genuine, hfacts.waiting, hcalls rfl (fun i hi => hi) trivial,
        hfacts.submitted⟩

/-! ## §7. Where the previews are. -/

omit [UuidCrate] in
/-- A preview is kept, held by one call, or spent; a script that was submitted is spent. -/
structure Places (s : ScriptState) : Prop where
  alone : Alone Phase.holds s.call
  kept : ∀ r, s.previews r ≠ none → s.runs r ≠ none ∧ ∀ j, (s.call j).holds ≠ some r
  held : ∀ j r, (s.call j).holds = some r → s.runs r ≠ none
  shown : ∀ i ∈ s.issued, s.runs i.preview.previewId ≠ none
    ∧ ∀ j, (s.call j).holds = some i.preview.previewId → (s.call j).building = false
  distinct : (s.issued.map fun i => i.preview.previewId).Nodup
  submitted : ∀ e ∈ s.executions, Spent s (fun _ => False) e.previewId
  once : (s.executions.map fun e => e.previewId).Nodup
  withdrawn : ∀ r ∈ s.withdrawn, Spent s (fun _ => False) r
  unsubmitted : ∀ e ∈ s.executions, e.previewId ∉ s.withdrawn
  withdrawing : ∀ j r, (s.call j).withdrawing = some r → r ∈ s.withdrawn
  active : ∀ r t, s.active r = some t → Spent s (fun j => j = t) r
  target : ∀ j r t, (s.call j).target = some (r, t) → Spent s (fun j => j = t) r
  cancelled : ∀ r ∈ s.cancelledRuns, Spent s (fun j => s.cancelled j = true) r

omit [UuidCrate] in
/-- What one call alone holds, and is not preparing. -/
theorem Places.spent_holder {s : ScriptState} (h : Places s) {id : Nat} {r : Uuid}
    (hholds : (s.call id).holds = some r) (hbuilding : (s.call id).building = false) :
    Spent s (fun j => j = id) r := by
  refine ⟨h.held id r hholds, ?_, fun j hj => ?_⟩
  · by_contra hkept
    exact (h.kept r hkept).2 id hholds
  · obtain rfl := h.alone j id r hj hholds
    exact ⟨rfl, hbuilding⟩

/-- **What the one call that holds a preview lets go is spent.** -/
theorem Places.spent_dropped {s : ScriptState} (hplaces : Places s) {id : Nat} {r : Uuid}
    (hholds : (s.call id).holds = some r) (hbuilding : (s.call id).building = false)
    {phase' : Phase} {sh' : Shared} {answer : Answer}
    (h : Moves crates id (s.call id) s.toShared answer phase' sh') (hdropped : phase'.holds = none) :
    Spent (s.moved id phase' sh') (fun _ => False) r := by
  have hspent := (hplaces.spent_holder hholds hbuilding).step h (fun _ hj => hj)
  refine ⟨hspent.known, hspent.gone, fun j hj => ?_⟩
  obtain ⟨rfl, -⟩ := hspent.held j hj
  have hj : (Function.update s.call j phase' j).holds = some r := hj
  rw [Function.update_self] at hj
  exact absurd (hdropped.symm.trans hj) (by simp)

omit [UuidCrate] in
/-- What is kept and taken out by a call that does not hold it is spent. -/
theorem Places.spent_removed {s : ScriptState} (h : Places s) {r : Uuid}
    (hkept : s.previews r ≠ none) {id : Nat} {phase' : Phase} {sh' : Shared}
    (hruns : sh'.runs r ≠ none) (hgone : sh'.previews r = none) (hholds : phase'.holds = none) :
    Spent (s.moved id phase' sh') (fun _ => False) r := by
  refine ⟨hruns, hgone, fun j hj => ?_⟩
  rcases holds_update hj with ⟨-, hnext⟩ | ⟨-, hold⟩
  · exact absurd (hholds.symm.trans hnext) (by simp)
  · exact absurd hold ((h.kept r hkept).2 j)

/-- The part of the account that any step keeps. -/
theorem Places.moved {s : ScriptState} (hplaces : Places s) {id : Nat} {phase' : Phase}
    {sh' : Shared} {answer : Answer}
    (h : Moves crates id (s.call id) s.toShared answer phase' sh') :
    Alone Phase.holds (s.moved id phase' sh').call
      ∧ (∀ r, sh'.previews r ≠ none →
          sh'.runs r ≠ none ∧ ∀ j, ((s.moved id phase' sh').call j).holds ≠ some r)
      ∧ ∀ j r, ((s.moved id phase' sh').call j).holds = some r → sh'.runs r ≠ none := by
  refine ⟨hplaces.alone.step fun r hr => ?_, fun r hkept => ?_, fun j r hj => ?_⟩
  · rcases h.takes hr with ⟨hold, -⟩ | ⟨hfresh, -⟩ | ⟨hkept, -⟩
    · exact Or.inl hold
    · exact Or.inr fun j hj => hplaces.held j r hj hfresh
    · exact Or.inr (hplaces.kept r hkept).2
  · rcases h.waits hkept with ⟨hold, -⟩ | ⟨hholds, hbuilding, hdropped⟩
    · obtain ⟨hknown, hfree⟩ := hplaces.kept r hold
      refine ⟨h.runs hknown, fun j hj => ?_⟩
      rcases holds_update hj with ⟨rfl, hnext⟩ | ⟨-, hother⟩
      · rcases h.takes hnext with ⟨hholds, -⟩ | ⟨hfresh, -⟩ | ⟨-, hgone, -⟩
        · exact hfree _ hholds
        · exact hknown hfresh
        · exact hkept hgone
      · exact hfree j hother
    · refine ⟨h.runs (hplaces.held id r hholds), fun j hj => ?_⟩
      rcases holds_update hj with ⟨-, hnext⟩ | ⟨hne, hother⟩
      · exact absurd (hdropped.symm.trans hnext) (by simp)
      · exact hne (hplaces.alone j id r hother hholds)
  · rcases holds_update hj with ⟨-, hnext⟩ | ⟨-, hother⟩
    · rcases h.takes hnext with ⟨hold, -⟩ | ⟨-, hcreated, -⟩ | ⟨hkept, -⟩
      · exact h.runs (hplaces.held id r hold)
      · exact hcreated
      · exact h.runs (hplaces.kept r hkept).1
    · exact h.runs (hplaces.held j r hother)

/-- What was shown is not prepared again. -/
theorem Places.shown_moved {s : ScriptState} (hplaces : Places s) {id : Nat} {phase' : Phase}
    {sh' : Shared} {answer : Answer}
    (h : Moves crates id (s.call id) s.toShared answer phase' sh') {i : IssuedPreview}
    (hi : i ∈ s.issued) : sh'.runs i.preview.previewId ≠ none
      ∧ ∀ j, ((s.moved id phase' sh').call j).holds = some i.preview.previewId →
        ((s.moved id phase' sh').call j).building = false := by
  obtain ⟨hknown, hbuilt⟩ := hplaces.shown i hi
  refine ⟨h.runs hknown, fun j hj => ?_⟩
  show (Function.update s.call id phase' j).building = false
  rcases holds_update hj with ⟨rfl, hnext⟩ | ⟨hne, hother⟩
  · rw [Function.update_self]
    rcases h.takes hnext with ⟨hold, hsame⟩ | ⟨hfresh, -⟩ | ⟨-, -, hnot⟩
    · rw [hsame]
      exact hbuilt j hold
    · exact absurd hfresh hknown
    · exact hnot
  · rw [Function.update_of_ne hne]
    exact hbuilt j hother

omit [UuidCrate] in
/-- Who is taking a preview back, after a step. -/
theorem Places.withdrawing_moved {s : ScriptState} (hplaces : Places s) {id : Nat}
    {phase' : Phase} {sh' : Shared} (hown : ∀ r, phase'.withdrawing = some r → r ∈ sh'.withdrawn)
    (hmore : ∀ r ∈ s.withdrawn, r ∈ sh'.withdrawn) (j : Nat) (r : Uuid)
    (hj : ((s.moved id phase' sh').call j).withdrawing = some r) : r ∈ sh'.withdrawn := by
  rcases holds_update hj with ⟨-, hnext⟩ | ⟨-, hother⟩
  · exact hown r hnext
  · exact hmore r (hplaces.withdrawing j r hother)

/-- Whose token is about to be cancelled, after a step. -/
theorem Places.target_moved {s : ScriptState} (hplaces : Places s) {id : Nat} {phase' : Phase}
    {sh' : Shared} {answer : Answer}
    (h : Moves crates id (s.call id) s.toShared answer phase' sh')
    (hown : ∀ r t, phase'.target = some (r, t) → Spent (s.moved id phase' sh') (fun j => j = t) r)
    (j : Nat) (r : Uuid) (t : Nat)
    (hj : ((s.moved id phase' sh').call j).target = some (r, t)) :
    Spent (s.moved id phase' sh') (fun j => j = t) r := by
  rcases holds_update hj with ⟨-, hnext⟩ | ⟨-, hother⟩
  · exact hown r t hnext
  · exact (hplaces.target j r t hother).step h fun _ hk => hk

/-- A step that shows, submits, withdraws and cancels nothing. -/
theorem Places.carried {s : ScriptState} (hplaces : Places s) {id : Nat} {phase' : Phase}
    {sh' : Shared} {answer : Answer}
    (h : Moves crates id (s.call id) s.toShared answer phase' sh')
    (hissued : sh'.issued = s.issued) (hexecutions : sh'.executions = s.executions)
    (hwithdrawn : sh'.withdrawn = s.withdrawn) (hcancelled : sh'.cancelled = s.cancelled)
    (hcancelledRuns : sh'.cancelledRuns = s.cancelledRuns)
    (hactive : ∀ r t, sh'.active r = some t → s.active r = some t
      ∨ Spent (s.moved id phase' sh') (fun j => j = t) r)
    (hwithdrawing : phase'.withdrawing = none)
    (htarget : ∀ r t, phase'.target = some (r, t) →
      Spent (s.moved id phase' sh') (fun j => j = t) r) : Places (s.moved id phase' sh') := by
  obtain ⟨halone, hkept, hheld⟩ := hplaces.moved h
  constructor
  · exact halone
  · exact hkept
  · exact hheld
  · intro i hi
    exact hplaces.shown_moved h (hissued ▸ hi)
  · show (sh'.issued.map _).Nodup
    rw [hissued]
    exact hplaces.distinct
  · intro e he
    exact (hplaces.submitted e (hexecutions ▸ he)).step h fun _ hk => hk
  · show (sh'.executions.map _).Nodup
    rw [hexecutions]
    exact hplaces.once
  · intro r hr
    exact (hplaces.withdrawn r (hwithdrawn ▸ hr)).step h fun _ hk => hk
  · intro e he hr
    exact hplaces.unsubmitted e (hexecutions ▸ he) (hwithdrawn ▸ hr)
  · refine hplaces.withdrawing_moved (fun r hr => ?_) (fun r hr => hwithdrawn ▸ hr)
    exact absurd (hwithdrawing.symm.trans hr) (by simp)
  · intro r t hr
    rcases hactive r t hr with hold | hnew
    · exact (hplaces.active r t hold).step h fun _ hk => hk
    · exact hnew
  · exact hplaces.target_moved h htarget
  · intro r hr
    refine (hplaces.cancelled r (hcancelledRuns ▸ hr)).step h fun j hj => ?_
    show sh'.cancelled j = true
    rw [hcancelled]
    exact hj

/-- **Every step keeps the previews where they are.** -/
theorem Places.step {s : ScriptState} (hplaces : Places s) {id : Nat} {phase' : Phase}
    {sh' : Shared} {answer : Answer}
    (h : Moves crates id (s.call id) s.toShared answer phase' sh') :
    Places (s.moved id phase' sh') := by
  have hmoved := hplaces.moved h
  have hshown := fun i (hi : i ∈ s.issued) => hplaces.shown_moved h hi
  have hspent : ∀ {may may' : Nat → Prop} {r : Uuid}, Spent s may r → (∀ j, may j → may' j) →
      Spent (s.moved id phase' sh') may' r := fun hr hmay => hr.step h hmay
  have hall := h
  cases h with
  | quiet same holds connected withdrawing target stands =>
      refine hplaces.carried hall same.issued same.executions same.withdrawn same.cancelled
        same.cancelledRuns (fun r t hr => Or.inl (same.active ▸ hr)) withdrawing ?_
      intro r t hr
      exact absurd (target.symm.trans hr) (by simp)
  | create creating fresh =>
      exact hplaces.carried hall rfl rfl rfl rfl rfl (fun r t hr => Or.inl hr) rfl
        (fun r t hr => by cases hr)
  | consume consuming found matching unexpired =>
      exact hplaces.carried hall rfl rfl rfl rfl rfl (fun r t hr => Or.inl hr) rfl
        (fun r t hr => by cases hr)
  | expire =>
      exact hplaces.carried hall rfl rfl rfl rfl rfl (fun r t hr => Or.inl hr) rfl
        (fun r t hr => by cases hr)
  | connect connecting answered =>
      exact hplaces.carried hall rfl rfl rfl rfl rfl (fun r t hr => Or.inl hr) rfl
        (fun r t hr => by cases hr)
  | @activate prepared activating =>
      refine hplaces.carried hall rfl rfl rfl rfl rfl (fun r t hr => ?_) rfl
        (fun r t hr => by cases hr)
      have hr : Function.update s.active prepared.previewId (some id) r = some t := hr
      by_cases heq : r = prepared.previewId
      · -- the call that holds the preview is the one whose token is stored
        subst heq
        rw [Function.update_self] at hr
        obtain rfl := Option.some.inj hr
        have hholder := hplaces.spent_holder (r := prepared.previewId) (by rw [activating]; rfl)
          (by rw [activating]; rfl)
        exact Or.inr (hspent hholder fun _ hk => hk)
      · rw [Function.update_of_ne heq] at hr
        exact Or.inl hr
  | @deactivate prepared result deactivating =>
      refine hplaces.carried hall rfl rfl rfl rfl rfl (fun r t hr => Or.inl ?_) rfl
        (fun r t hr => by cases hr)
      have hr : Function.update s.active prepared.previewId none r = some t := hr
      by_cases heq : r = prepared.previewId
      · rw [heq, Function.update_self] at hr
        cases hr
      · rw [Function.update_of_ne heq] at hr
        exact hr
  | find finding found =>
      refine hplaces.carried hall rfl rfl rfl rfl rfl (fun r t hr => Or.inl hr) rfl
        (fun r t hr => ?_)
      obtain ⟨rfl, rfl⟩ := Prod.mk.inj (Option.some.inj hr)
      exact hspent (hplaces.active _ _ found) fun _ hk => hk
  | @keep draft runId confirmationToken now keeping =>
      have hholds : (s.call id).holds = some runId := by
        rw [keeping]
        rfl
      have hbuilding : (s.call id).building = true := by
        rw [keeping]
        rfl
      exact
        { alone := hmoved.1
          kept := hmoved.2.1
          held := hmoved.2.2
          shown := by
            intro i hi
            rcases List.mem_cons.mp hi with rfl | hi
            · refine ⟨hplaces.held id runId hholds, fun j hj => ?_⟩
              -- the call has let the preview go, and nobody else has it
              rcases holds_update hj with ⟨-, hnext⟩ | ⟨hne, hother⟩
              · cases hnext
              · exact absurd (hplaces.alone j id runId hother hholds) hne
            · exact hshown i hi
          distinct := by
            refine List.nodup_cons.mpr ⟨fun hmem => ?_, hplaces.distinct⟩
            obtain ⟨i, hi, heq⟩ := List.mem_map.mp hmem
            have hbuilt := (hplaces.shown i hi).2 id (heq ▸ hholds)
            exact absurd hbuilt (by simp [hbuilding])
          submitted := fun e he => hspent (hplaces.submitted e he) fun _ hk => hk
          once := hplaces.once
          withdrawn := fun r hr => hspent (hplaces.withdrawn r hr) fun _ hk => hk
          unsubmitted := hplaces.unsubmitted
          withdrawing := hplaces.withdrawing_moved (fun r hr => by cases hr) fun r hr => hr
          active := fun r t hr => hspent (hplaces.active r t hr) fun _ hk => hk
          target := hplaces.target_moved hall fun r t hr => by cases hr
          cancelled := fun r hr => hspent (hplaces.cancelled r hr) fun _ hk => hk }
  | @submit prepared launcher submitting =>
      have hholds : (s.call id).holds = some prepared.previewId := by
        rw [submitting]
        rfl
      have hbuilding : (s.call id).building = false := by
        rw [submitting]
        rfl
      exact
        { alone := hmoved.1
          kept := hmoved.2.1
          held := hmoved.2.2
          shown := hshown
          distinct := hplaces.distinct
          submitted := by
            intro e he
            rcases List.mem_cons.mp he with rfl | he
            · exact hplaces.spent_dropped hholds hbuilding hall rfl
            · exact hspent (hplaces.submitted e he) fun _ hk => hk
          once := by
            refine List.nodup_cons.mpr ⟨fun hmem => ?_, hplaces.once⟩
            obtain ⟨e, he, heq⟩ := List.mem_map.mp hmem
            exact ((hplaces.submitted e he).held id (heq ▸ hholds)).1
          withdrawn := fun r hr => hspent (hplaces.withdrawn r hr) fun _ hk => hk
          unsubmitted := by
            intro e he hr
            rcases List.mem_cons.mp he with rfl | he
            · exact ((hplaces.withdrawn _ hr).held id hholds).1
            · exact hplaces.unsubmitted e he hr
          withdrawing := hplaces.withdrawing_moved (fun r hr => by cases hr) fun r hr => hr
          active := fun r t hr => hspent (hplaces.active r t hr) fun _ hk => hk
          target := hplaces.target_moved hall fun r t hr => by cases hr
          cancelled := fun r hr => hspent (hplaces.cancelled r hr) fun _ hk => hk }
  | @withdraw runId pending removing found =>
      have hkept : s.previews runId ≠ none := by simp [found]
      exact
        { alone := hmoved.1
          kept := hmoved.2.1
          held := hmoved.2.2
          shown := hshown
          distinct := hplaces.distinct
          submitted := fun e he => hspent (hplaces.submitted e he) fun _ hk => hk
          once := hplaces.once
          withdrawn := by
            intro r hr
            rcases List.mem_cons.mp hr with rfl | hr
            · exact hplaces.spent_removed hkept (hplaces.kept r hkept).1
                (Function.update_self _ _ _) rfl
            · exact hspent (hplaces.withdrawn r hr) fun _ hk => hk
          unsubmitted := by
            intro e he hr
            rcases List.mem_cons.mp hr with heq | hr
            · exact hkept (heq ▸ (hplaces.submitted e he).gone)
            · exact hplaces.unsubmitted e he hr
          withdrawing := by
            refine hplaces.withdrawing_moved (fun r hr => ?_) fun r hr => List.mem_cons_of_mem _ hr
            obtain rfl := Option.some.inj hr
            exact List.mem_cons_self
          active := fun r t hr => hspent (hplaces.active r t hr) fun _ hk => hk
          target := hplaces.target_moved hall fun r t hr => by cases hr
          cancelled := fun r hr => hspent (hplaces.cancelled r hr) fun _ hk => hk }
  | @cancelWaiting runId shared cancelling same =>
      have hwithdrawn : runId ∈ s.withdrawn := hplaces.withdrawing id runId (by rw [cancelling]; rfl)
      exact
        { alone := hmoved.1
          kept := hmoved.2.1
          held := hmoved.2.2
          shown := fun i hi => hshown i (same.issued ▸ hi)
          distinct := by
            show (shared.issued.map _).Nodup
            rw [same.issued]
            exact hplaces.distinct
          submitted := fun e he =>
            hspent (hplaces.submitted e (same.executions ▸ he)) fun _ hk => hk
          once := by
            show (shared.executions.map _).Nodup
            rw [same.executions]
            exact hplaces.once
          withdrawn := fun r hr => hspent (hplaces.withdrawn r (same.withdrawn ▸ hr)) fun _ hk => hk
          unsubmitted := fun e he hr =>
            hplaces.unsubmitted e (same.executions ▸ he) (same.withdrawn ▸ hr)
          withdrawing := hplaces.withdrawing_moved (fun r hr => by cases hr)
            fun r hr => same.withdrawn ▸ hr
          active := fun r t hr => hspent (hplaces.active r t (same.active ▸ hr)) fun _ hk => hk
          target := hplaces.target_moved hall fun r t hr => by cases hr
          cancelled := by
            intro r hr
            rcases List.mem_cons.mp hr with rfl | hr
            · -- nobody holds what has been withdrawn
              exact hspent (hplaces.withdrawn r hwithdrawn) fun _ hk => hk.elim
            · refine hspent (hplaces.cancelled r (same.cancelledRuns ▸ hr)) fun j hj => ?_
              show shared.cancelled j = true
              rw [same.cancelled]
              exact hj }
  | @cancelActive runId token cancelling answered =>
      have htarget := hplaces.target id runId token (by rw [cancelling]; rfl)
      have hmore : ∀ j, s.cancelled j = true → Function.update s.cancelled token true j = true := by
        intro j hj
        by_cases heq : j = token
        · rw [heq, Function.update_self]
        · rw [Function.update_of_ne heq]
          exact hj
      exact
        { alone := hmoved.1
          kept := hmoved.2.1
          held := hmoved.2.2
          shown := hshown
          distinct := hplaces.distinct
          submitted := fun e he => hspent (hplaces.submitted e he) fun _ hk => hk
          once := hplaces.once
          withdrawn := fun r hr => hspent (hplaces.withdrawn r hr) fun _ hk => hk
          unsubmitted := hplaces.unsubmitted
          withdrawing := hplaces.withdrawing_moved (fun r hr => by cases hr) fun r hr => hr
          active := fun r t hr => hspent (hplaces.active r t hr) fun _ hk => hk
          target := hplaces.target_moved hall fun r t hr => by cases hr
          cancelled := by
            intro r hr
            rcases List.mem_cons.mp hr with rfl | hr
            · refine hspent htarget fun j hj => ?_
              rw [hj]
              exact Function.update_self _ _ _
            · exact hspent (hplaces.cancelled r hr) hmore }

/-! ## §8. Cancelled tokens. -/

omit [UuidCrate] in
/-- A call that is connected has a token that is not cancelled, and no script was submitted whose
run had been cancelled before. -/
structure Heeded (s : ScriptState) : Prop where
  connected : ∀ j, (s.call j).connected = true → s.cancelled j = false
  sound : ∀ e ∈ s.executions, e.previewId ∉ e.cancelledBefore

/-- **A guarded step heeds the tokens.** -/
theorem Heeded.step {s : ScriptState} (hheeded : Heeded s) (hplaces : Places s) {id : Nat}
    {phase' : Phase} {sh' : Shared} {answer : Answer}
    (h : Moves crates id (s.call id) s.toShared answer phase' sh')
    (hguarded : guarded (.step id answer) s = true) : Heeded (s.moved id phase' sh') := by
  -- the other calls are where they were
  have hconnected : (phase'.connected = true → s.cancelled id = false) →
      ∀ j, (Function.update s.call id phase' j).connected = true → s.cancelled j = false := by
    intro hown j hj
    by_cases hid : j = id
    · rw [hid, Function.update_self] at hj
      rw [hid]
      exact hown hj
    · rw [Function.update_of_ne hid] at hj
      exact hheeded.connected j hj
  cases h with
  | quiet same holds connected withdrawing target stands =>
      refine ⟨fun j hj => ?_, fun e he => hheeded.sound e (same.executions ▸ he)⟩
      show sh'.cancelled j = false
      rw [same.cancelled]
      exact hconnected (fun hc => hheeded.connected id (connected hc)) j hj
  | connect connecting answered =>
      subst answered
      have htoken : s.cancelled id = false := by simpa [guarded] using hguarded
      exact ⟨hconnected fun _ => htoken, hheeded.sound⟩
  | @submit prepared launcher submitting =>
      have hholds : (s.call id).holds = some prepared.previewId := by
        rw [submitting]
        rfl
      have htoken := hheeded.connected id (by rw [submitting]; rfl)
      refine ⟨hconnected (fun hc => by cases hc), fun e he => ?_⟩
      rcases List.mem_cons.mp he with rfl | he
      · intro hcancelled
        exact absurd ((hplaces.cancelled _ hcancelled).held id hholds).1 (by simp [htoken])
      · exact hheeded.sound e he
  | @cancelWaiting runId shared cancelling same =>
      refine ⟨fun j hj => ?_, fun e he => hheeded.sound e (same.executions ▸ he)⟩
      show shared.cancelled j = false
      rw [same.cancelled]
      exact hconnected (fun hc => by cases hc) j hj
  | @cancelActive runId token cancelling answered =>
      subst answered
      have htoken : (s.call token).connected = false := by
        simpa [guarded, cancelling, Phase.target] using hguarded
      refine ⟨fun j hj => ?_, hheeded.sound⟩
      have hold := hconnected (fun hc => by cases hc) j hj
      show Function.update s.cancelled token true j = false
      by_cases heq : j = token
      · -- the call whose token is cancelled is not connected
        subst heq
        by_cases hid : j = id
        · have hj : (Function.update s.call id (.returned (.ok .cancelled)) j).connected = true := hj
          rw [hid, Function.update_self] at hj
          cases hj
        · have hj : (Function.update s.call id (.returned (.ok .cancelled)) j).connected = true := hj
          rw [Function.update_of_ne hid, htoken] at hj
          cases hj
      · rw [Function.update_of_ne heq]
        exact hold
  | _ => exact ⟨hconnected (fun hc => by cases hc), hheeded.sound⟩

/-! ## §9. Runs. -/

/-- A call that is started has nothing yet. -/
theorem moves_start (id : Nat) {phase : Phase} (sh : Shared) (request : Request) :
    Moves crates id phase sh .done request.phase sh := by
  cases request with
  | _ =>
      exact .quiet (.refl sh) (.inl rfl) (fun h => by cases h) rfl rfl (fun _ _ _ => trivial)

omit [UuidCrate] in
theorem Spent.edited {s : ScriptState} {may : Nat → Prop} {r : Uuid} (h : Spent s may r)
    (tables : Tables) : Spent { s with tables := tables } may r :=
  ⟨h.known, h.gone, h.held⟩

omit [UuidCrate] in
theorem Places.edited {s : ScriptState} (h : Places s) (tables : Tables) :
    Places { s with tables := tables } :=
  { alone := h.alone, kept := h.kept, held := h.held, shown := h.shown, distinct := h.distinct,
    submitted := fun e he => (h.submitted e he).edited tables,
    once := h.once,
    withdrawn := fun r hr => (h.withdrawn r hr).edited tables,
    unsubmitted := h.unsubmitted, withdrawing := h.withdrawing,
    active := fun r t hr => (h.active r t hr).edited tables,
    target := fun j r t hj => (h.target j r t hj).edited tables,
    cancelled := fun r hr => (h.cancelled r hr).edited tables }

/-- **Every step keeps the account of the previews.** -/
theorem step_keeps {event : ScriptEvent} {s s' : ScriptState}
    (h : Facts crates s ∧ Places s) (hstep : step crates event s = some s') :
    Facts crates s' ∧ Places s' := by
  cases event with
  | start id request =>
      obtain ⟨-, hshared, hcall⟩ := step_start hstep
      have hmoves : Moves crates id (s.call id) s.toShared .done request.phase s.toShared :=
        moves_start id s.toShared request
      have heq : s' = s.moved id request.phase s.toShared := by
        cases s'
        simp only at hshared hcall
        rw [hshared, hcall]
        rfl
      rw [heq]
      exact ⟨h.1.step hmoves, h.2.step hmoves⟩
  | step id answer =>
      obtain ⟨⟨phase', sh'⟩, hadvance, rfl⟩ := Option.map_eq_some_iff.mp hstep
      have hmoves := advance_moves hadvance
      exact ⟨h.1.step hmoves, h.2.step hmoves⟩
  | edit call =>
      obtain rfl := Option.some.inj hstep
      refine ⟨?_, h.2.edited _⟩
      exact ⟨apply_keyed h.1.keyed call, fun i hi => (h.1.genuine i hi).edited call, h.1.waiting,
        fun j => (h.1.stands j).edited call, h.1.submitted⟩

/-- A guarded step of a run heeds the tokens. -/
theorem step_heeds {event : ScriptEvent} {s s' : ScriptState} (hheeded : Heeded s)
    (hplaces : Places s) (hguarded : guarded event s = true)
    (hstep : step crates event s = some s') : Heeded s' := by
  cases event with
  | start id request =>
      obtain ⟨-, hshared, hcall⟩ := step_start hstep
      refine ⟨fun j hj => ?_, fun e he => hheeded.sound e (hshared ▸ he)⟩
      rw [hshared]
      rw [hcall] at hj
      by_cases hid : j = id
      · rw [hid, Function.update_self] at hj
        cases request <;> cases hj
      · rw [Function.update_of_ne hid] at hj
        exact hheeded.connected j hj
  | step id answer =>
      obtain ⟨⟨phase', sh'⟩, hadvance, rfl⟩ := Option.map_eq_some_iff.mp hstep
      exact hheeded.step hplaces (advance_moves hadvance) hguarded
  | edit call =>
      obtain rfl := Option.some.inj hstep
      exact ⟨hheeded.connected, hheeded.sound⟩

variable (crates) in
/-- Every step of a run is guarded. -/
def guardedRun : List ScriptEvent → ScriptState → Bool
  | [], _ => true
  | event :: rest, s =>
      guarded event s && match step crates event s with
        | none => true
        | some s' => guardedRun rest s'

theorem run_keeps {events : List ScriptEvent} {s s' : ScriptState}
    (h : Facts crates s ∧ Places s) (hrun : run crates events s = some s') :
    Facts crates s' ∧ Places s' := by
  induction events generalizing s with
  | nil =>
      obtain rfl := Option.some.inj hrun
      exact h
  | cons event rest ih =>
      obtain ⟨next, hstep, hrest⟩ := Option.bind_eq_some_iff.mp hrun
      exact ih (step_keeps h hstep) hrest

theorem run_heeds {events : List ScriptEvent} {s s' : ScriptState}
    (h : Facts crates s ∧ Places s) (hheeded : Heeded s)
    (hguarded : guardedRun crates events s = true) (hrun : run crates events s = some s') :
    Heeded s' := by
  induction events generalizing s with
  | nil =>
      obtain rfl := Option.some.inj hrun
      exact hheeded
  | cons event rest ih =>
      obtain ⟨next, hstep, hrest⟩ := Option.bind_eq_some_iff.mp hrun
      simp only [guardedRun, hstep, Bool.and_eq_true] at hguarded
      exact ih (step_keeps h hstep) (step_heeds hheeded h.2 hguarded.1 hstep) hguarded.2 hrest

theorem keeps_started {tables : Tables} (hkeyed : Keyed tables)
    (runs : Uuid → Option OperationRunRecord) (steps : Uuid → List OperationStepRecord) :
    Facts crates (started tables runs steps) ∧ Places (started tables runs steps) := by
  constructor
  · constructor
    · exact hkeyed
    · intro i hi
      cases hi
    · intro r pending hr
      cases hr
    · intro j
      trivial
    · intro e he
      cases he
  · constructor
    · intro i j r hi
      cases hi
    · intro r hr
      exact absurd rfl hr
    · intro j r hj
      cases hj
    · intro i hi
      cases hi
    · exact List.nodup_nil
    · intro e he
      cases he
    · exact List.nodup_nil
    · intro r hr
      cases hr
    · intro e he
      cases he
    · intro j r hj
      cases hj
    · intro r t hr
      cases hr
    · intro j r t hj
      cases hj
    · intro r hr
      cases hr

/-- **However the calls and the edits interleave, no preview is shown or submitted twice, what is
submitted was confirmed with its token before its end and is what was shown, and no preview
is submitted that a cancellation has withdrawn; and if no connection is taken with a cancelled
token, and none is cancelled between its connection and its submission, nothing is submitted
whose cancellation had succeeded.** -/
theorem executed_as_previewed (calls : List ScriptRepository.Call)
    (runs : Uuid → Option OperationRunRecord) (steps : Uuid → List OperationStepRecord)
    {events : List ScriptEvent} {s : ScriptState}
    (hrun : run crates events (started (ScriptRepository.stored crates calls) runs steps)
      = some s) :
    (s.issued.map fun i => i.preview.previewId).Nodup
      ∧ (s.executions.map fun e => e.previewId).Nodup
      ∧ (∀ e ∈ s.executions, ∃ i ∈ s.issued, e.AsPreviewed i ∧ Genuine crates s.tables i)
      ∧ (∀ e ∈ s.executions, e.previewId ∉ s.withdrawn)
      ∧ (guardedRun crates events
            (started (ScriptRepository.stored crates calls) runs steps) = true →
          ∀ e ∈ s.executions, e.previewId ∉ e.cancelledBefore) := by
  have hstarted : Facts crates (started (ScriptRepository.stored crates calls) runs steps)
      ∧ Places (started (ScriptRepository.stored crates calls) runs steps) :=
    keeps_started (ScriptRepository.stored_keyed calls) runs steps
  obtain ⟨hfacts, hplaces⟩ := run_keeps hstarted hrun
  refine ⟨hplaces.distinct, hplaces.once, fun e he => ?_, hplaces.unsubmitted, fun hguarded => ?_⟩
  · obtain ⟨i, hi, hshown⟩ := hfacts.submitted e he
    exact ⟨i, hi, hshown, hfacts.genuine i hi⟩
  · have hheeded : Heeded (started (ScriptRepository.stored crates calls) runs steps) :=
      ⟨fun j hj => (by cases hj), fun e he => (by cases he)⟩
    exact (run_heeds hstarted hheeded hguarded hrun).sound

end Runs

/-! ## §10. A cancellation that comes too late. -/

/-- The calls that store a script and enable it, the latest first. -/
def enabledScript : List ScriptRepository.Call :=
  .setEnabled sampleId true :: sampleCalls "a" 300

def previewToken : Uuid := ⟨"00000000-0000-0000-0000-000000000002".toList, by decide⟩

/-- The script is previewed, confirmed, and connected to its host. -/
def connectedScript : List ScriptEvent :=
  [.start 0 (.preview sampleId "s".toList (.object [])), .step 0 .done,
    .step 0 (.created sampleId), .step 0 .done, .step 0 .done, .step 0 .done,
    .step 0 (.kept previewToken 0),
    .start 1 (.confirm sampleId previewToken), .step 1 (.at 0), .step 1 .done, .step 1 .done,
    .step 1 .done, .step 1 .done, .step 1 .done, .step 1 .done,
    .step 1 (.connected (.ok (ExecutionService.linuxWith ["sh".toList])))]

/-- The script is rendered and submitted. -/
def submittedScript : List ScriptEvent :=
  [.step 1 (.rendered [previewToken]), .step 1 .done, .step 1 (.submitted (.ok ()))]

/-- A cancellation of the run, up to its return. -/
def lateCancel : List ScriptEvent :=
  [.start 2 (.cancel sampleId), .step 2 .done, .step 2 .done, .step 2 .done]

/-- A service over the enabled script. -/
def sampleService [UuidCrate] : ScriptState :=
  started (ScriptRepository.stored (sampleCrates "a").toCrates enabledScript) (fun _ => none)
    fun _ => []

/-- The call has returned from a cancellation, and not with an error. -/
def Phase.hasCancelled : Phase → Bool
  | .returned (.ok .cancelled) => true
  | _ => false

theorem confirmed_script_submitted : let _ : UuidCrate := hyphenatedUuid
    ∃ s, run (sampleCrates "a").toCrates (connectedScript ++ submittedScript) sampleService = some s
      ∧ s.executions.map (fun e => e.previewId) = [sampleId]
      ∧ (s.executions.map fun e => e.previewId).Nodup
      ∧ (∀ e ∈ s.executions, ∃ i ∈ s.issued, e.AsPreviewed i
          ∧ Genuine (sampleCrates "a").toCrates s.tables i)
      ∧ ∀ e ∈ s.executions, e.previewId ∉ e.cancelledBefore := by
  intro _
  have hrun : (run (sampleCrates "a").toCrates (connectedScript ++ submittedScript)
      sampleService).any (fun s => s.executions.map (fun e => e.previewId) == [sampleId])
      = true := by decide +kernel
  have hguarded : guardedRun (sampleCrates "a").toCrates (connectedScript ++ submittedScript)
      sampleService = true := by decide +kernel
  obtain ⟨s, hs, hsubmitted⟩ := (Option.any_eq_true _ _).mp hrun
  obtain ⟨-, honce, hshown, -, hheeded⟩ :=
    executed_as_previewed enabledScript (fun _ => none) (fun _ => []) hs
  exact ⟨s, hs, beq_iff_eq.mp hsubmitted, honce, hshown, hheeded hguarded⟩

/-- The cancellation has returned successfully, and the script is submitted after it. -/
theorem cancelled_script_submitted : let _ : UuidCrate := hyphenatedUuid
    ∃ s, run (sampleCrates "a").toCrates (connectedScript ++ lateCancel ++ submittedScript)
        sampleService = some s
      ∧ (s.call 2).hasCancelled = true
      ∧ ∃ e ∈ s.executions, e.previewId = sampleId ∧ e.previewId ∈ e.cancelledBefore := by
  intro _
  have hrun : (run (sampleCrates "a").toCrates (connectedScript ++ lateCancel ++ submittedScript)
      sampleService).any (fun s => (s.call 2).hasCancelled && s.executions.any fun e =>
        e.previewId == sampleId && decide (e.previewId ∈ e.cancelledBefore)) = true := by
    decide +kernel
  obtain ⟨s, hs, hall⟩ := (Option.any_eq_true _ _).mp hrun
  simp only [Bool.and_eq_true, List.any_eq_true, beq_iff_eq, decide_eq_true_eq] at hall
  obtain ⟨hcancelled, e, he, hboth⟩ := hall
  exact ⟨s, hs, hcancelled, e, he, hboth⟩

end QingzhouSSH.Services.ScriptService
