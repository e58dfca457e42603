/-
  QingzhouSSH.Services.TransferQueueRuns — what holds of every run of the queue.

  Main results:
    * `transfer_follows` — the events of a transfer follow the states of a job;
    * `transitions_allowed` — so do the jobs of the queue, when no attempts overlap and no
      download compares hashes.
-/
import QingzhouSSH.Services.TransferQueueService

namespace QingzhouSSH.Services.TransferQueueService

open QingzhouSSH.Domain
open QingzhouSSH.Lib
open QingzhouSSH.Lib.Process
open QingzhouSSH.Core.Sftp
open QingzhouSSH.Repositories.ExecutionRepository (ExecutionStatus)
open QingzhouSSH.Repositories.TransferJobRepository

/-! ## §1. The states that events lead to. -/

/-- A change of status, if it is allowed. -/
def moveTo (status next : TransferJobStatus) : Option TransferJobStatus :=
  if status.canTransitionTo next then some next else none

/-- The status of a job after an event. -/
def advance (status : TransferJobStatus) : TransferEvent → Option TransferJobStatus
  | .progress phase _ => moveTo status (.ofPhase phase)
  | .finished result _ _ => moveTo status (executionStatus result)
  | .failed category _ _ => moveTo status (failedStatus category)
  | .started _ | .fileProduced => some status

/-- The status after these events, if every change is allowed. -/
def follow : TransferJobStatus → List TransferEvent → Option TransferJobStatus
  | status, [] => some status
  | status, event :: rest => (advance status event).bind fun next => follow next rest

theorem follow_append (status : TransferJobStatus) (events later : List TransferEvent) :
    follow status (events ++ later)
      = (follow status events).bind fun next => follow next later := by
  induction events generalizing status with
  | nil => rfl
  | cons event rest ih =>
      show (advance status event).bind _ = ((advance status event).bind _).bind _
      rw [Option.bind_assoc]
      exact congrArg _ (funext fun next => ih next)

theorem follow_send {start status next : TransferJobStatus} {events : List TransferEvent}
    {event : TransferEvent} (h : follow start events = some status)
    (hnext : advance status event = some next) : follow start (events ++ [event]) = some next := by
  rw [follow_append, h]
  show (advance status event).bind _ = _
  rw [hnext]
  rfl

theorem moveTo_allowed {status next : TransferJobStatus}
    (h : status.canTransitionTo next = true) : moveTo status next = some next :=
  if_pos h

theorem failedStatus_terminal (category : Text) :
    (failedStatus category).isTerminal = true ∧ failedStatus category ≠ .succeeded := by
  unfold failedStatus
  split
  · exact ⟨rfl, nofun⟩
  · split
    · exact ⟨rfl, nofun⟩
    · exact ⟨rfl, nofun⟩

/-! ## §2. The events of one transfer. -/

/-- A transfer works on its events by itself. -/
def Alone : TransferState → TransferState → Prop := fun _ _ => False

def holding (P : TransferState → Prop) : Assertion Alone fun _ => True where
  holds := P
  stable _ _ h := h.elim
  safe _ _ := trivial

/-- The events have led to this status. -/
def At (status : TransferJobStatus) (s : TransferState) : Prop :=
  follow .connecting s.events = some status

/-- The tracker and the job are in this phase. -/
def InPhase (phase : TransferPhase) (s : TransferState) : Prop :=
  At (.ofPhase phase) s ∧ s.tracker.phase = phase

/-- The transfer is at work. -/
def AtWork (s : TransferState) : Prop := ∃ phase, At (.ofPhase phase) s

/-- A download has hashes to compare. -/
def Hashed (s : TransferState) : Prop :=
  ∃ strategy, s.strategy = some strategy ∧ strategy ≠ .transportAndSize

variable {A : (question : TransferQuestion) → TransferAnswer question → Prop}
variable {P : TransferState → Prop}

theorem InPhase.atWork {phase : TransferPhase} {s : TransferState} (h : InPhase phase s) :
    AtWork s :=
  ⟨phase, h.1⟩

/-- An answer that may be an error of a transfer at work. -/
theorem answered {α : Type} {s : TransferState} (answer : AppResult α) (hs : P s)
    (hwork : ∀ s, P s → AtWork s) :
    (outcome (fun _ : α => holding P) (holding AtWork) answer).holds s := by
  cases answer with
  | ok _ => exact hs
  | error e => exact hwork s hs

theorem attempt_spec {action : TransferAction} (hwork : ∀ s, P s → AtWork s) :
    Triple A (holding P) (attempt action).run
      (outcome (fun _ => holding P) (holding AtWork)) :=
  triple_query fun answer _ _ hs => answered answer hs hwork

theorem targetExists_spec (hwork : ∀ s, P s → AtWork s) :
    Triple A (holding P) targetExists.run (outcome (fun _ => holding P) (holding AtWork)) :=
  triple_query fun answer _ _ hs => answered answer hs hwork

theorem remoteSize_spec (hwork : ∀ s, P s → AtWork s) :
    Triple A (holding P) remoteSize.run (outcome (fun _ => holding P) (holding AtWork)) :=
  triple_query fun answer _ _ hs => answered answer hs hwork

theorem remoteHash_spec (hwork : ∀ s, P s → AtWork s) :
    Triple A (holding P) remoteHash.run (outcome (fun _ => holding P) (holding AtWork)) :=
  triple_query fun answer _ _ hs => answered answer hs hwork

theorem hashAvailable_spec (hwork : ∀ s, P s → AtWork s) :
    Triple A (holding P) hashAvailable.run (outcome (fun _ => holding P) (holding AtWork)) :=
  triple_query fun answer _ _ hs => answered answer hs hwork

theorem localLength_spec (hwork : ∀ s, P s → AtWork s) :
    Triple A (holding P) localLength.run (outcome (fun _ => holding P) (holding AtWork)) :=
  triple_query fun answer _ _ hs => answered answer hs hwork

theorem lift_spec {question : TransferQuestion} :
    Triple A (holding P)
      (ExceptT.lift (Process.query question) : TransferProcess (TransferAnswer question)).run
      (outcome (fun _ => holding P) (holding AtWork)) :=
  triple_lift (triple_query fun _ _ _ hs => hs)

theorem ofResult_spec {α : Type} {result : AppResult α} (hwork : ∀ s, P s → AtWork s) :
    Triple A (holding P) (Core.Sftp.ofResult result).run
      (outcome (fun _ => holding P) (holding AtWork)) :=
  triple_result (fun _ _ _ hs => hs) fun _ _ s hs => hwork s hs

theorem sample_spec {phase : TransferPhase} (transferred : Nat) :
    Triple A (holding (InPhase phase)) (sample transferred).run
      (outcome (fun _ => holding (InPhase phase)) (holding AtWork)) := by
  unfold sample
  refine triple_andThen lift_spec fun now => triple_andThen lift_spec fun rates => ?_
  refine triple_atomic fun s hs => ?_
  show InPhase phase (s.sample transferred now rates)
  unfold TransferState.sample
  dsimp only
  split
  · refine ⟨follow_send hs.1 ?_, hs.2⟩
    show moveTo _ (TransferJobStatus.ofPhase s.tracker.phase) = _
    rw [hs.2]
    exact moveTo_allowed (TransferJobStatus.canTransitionTo_self _)
  · exact hs

theorem changePhase_spec {status : TransferJobStatus} {phase : TransferPhase}
    (hnext : status.canTransitionTo (.ofPhase phase) = true) :
    Triple A (holding (At status)) (changePhase phase).run
      (outcome (fun _ => holding (InPhase phase)) (holding AtWork)) := by
  unfold changePhase
  refine triple_andThen lift_spec fun now => triple_andThen lift_spec fun rates => ?_
  refine triple_atomic fun s hs => ?_
  exact ⟨follow_send hs (moveTo_allowed hnext), rfl⟩

theorem moveBlocks_spec {phase : TransferPhase} (blocks : List Nat) (transferred : Nat) :
    Triple A (holding (InPhase phase)) (moveBlocks blocks transferred).run
      (outcome (fun _ => holding (InPhase phase)) (holding AtWork)) := by
  induction blocks generalizing transferred with
  | nil => exact triple_ok fun _ hs => hs
  | cons block rest ih =>
      unfold moveBlocks
      refine triple_andThen (attempt_spec fun _ hs => hs.atWork) fun _ => ?_
      exact triple_andThen (sample_spec _) fun _ => ih _

theorem remoteHashFor_spec (strategy : VerificationStrategy) (hwork : ∀ s, P s → AtWork s) :
    Triple A (holding P) (remoteHashFor strategy).run
      (outcome (fun _ => holding P) (holding AtWork)) := by
  cases strategy with
  | transportAndSize => exact triple_ok fun _ hs => hs
  | remoteHash | sftpReread =>
      exact triple_andThen (remoteHash_spec hwork) fun hash => triple_ok fun _ hs => hs

theorem putInPlace_spec (overwrite : Bool) (hwork : ∀ s, P s → AtWork s) :
    Triple A (holding P) (putInPlace overwrite).run
      (outcome (fun _ => holding P) (holding AtWork)) := by
  unfold putInPlace
  cases overwrite with
  | false => exact attempt_spec hwork
  | true =>
      refine triple_andThen (targetExists_spec hwork) fun found => ?_
      cases found with
      | false => exact attempt_spec hwork
      | true => exact triple_andThen (attempt_spec hwork) fun _ => attempt_spec hwork

/-- The second half of both directions: verifying, finalizing, and putting in place. -/
theorem uploadToPartial_spec (path : Text) (overwrite : Bool) (total : Nat)
    (strategy : VerificationStrategy) :
    Triple A (holding (At .connecting)) (uploadToPartial path overwrite total strategy).run
      (outcome (fun _ => holding (InPhase .finalizing)) (holding AtWork)) := by
  unfold uploadToPartial
  refine triple_andThen (attempt_spec fun _ hs => ⟨.connecting, hs⟩) fun _ => ?_
  -- the first sample of a new tracker is reported
  have hfresh : Triple A (holding (At .connecting)) (newTracker (some total)).run
      (outcome (fun _ => holding fun s => At .connecting s ∧ s.tracker = .new (some total))
        (holding AtWork)) :=
    triple_atomic fun s hs => ⟨hs, rfl⟩
  refine triple_andThen hfresh fun _ => ?_
  have hfirst : Triple A (holding fun s => At .connecting s ∧ s.tracker = .new (some total))
      (sample 0).run (outcome (fun _ => holding (InPhase .transferring)) (holding AtWork)) := by
    unfold sample
    refine triple_andThen lift_spec fun now => triple_andThen lift_spec fun rates => ?_
    refine triple_atomic fun s hs => ?_
    show InPhase .transferring (s.sample 0 now rates)
    unfold TransferState.sample
    rw [hs.2]
    have hreports : ({ TransferProgressTracker.new (some total) with
        transferred := max 0 (TransferProgressTracker.new (some total)).transferred }).reports now
        = true := by
      unfold TransferProgressTracker.reports TransferProgressTracker.new
      dsimp only
      rw [Bool.or_true]
    dsimp only at hreports ⊢
    rw [if_pos hreports]
    exact ⟨follow_send hs.1 (moveTo_allowed rfl), rfl⟩
  refine triple_andThen hfirst fun _ => triple_andThen lift_spec fun blocks => ?_
  refine triple_andThen (moveBlocks_spec blocks 0) fun transferred => ?_
  refine triple_andThen (attempt_spec fun _ hs => hs.atWork) fun _ => ?_
  have hverifying : Triple A (holding (InPhase .transferring)) (changePhase .verifying).run
      (outcome (fun _ => holding (InPhase .verifying)) (holding AtWork)) :=
    (changePhase_spec (rfl : TransferJobStatus.canTransitionTo .transferring .verifying = true)).weaken (fun _ hs => hs.1) fun _ _ hs => hs
  refine triple_andThen hverifying fun _ => triple_andThen lift_spec fun localHash => ?_
  refine triple_andThen (remoteSize_spec fun _ hs => hs.atWork) fun size => ?_
  refine triple_andThen (ofResult_spec fun _ hs => hs.atWork) fun _ => ?_
  refine triple_andThen (remoteHashFor_spec strategy fun _ hs => hs.atWork) fun hash => ?_
  refine triple_andThen (ofResult_spec fun _ hs => hs.atWork) fun _ => ?_
  have hfinalizing : Triple A (holding (InPhase .verifying)) (changePhase .finalizing).run
      (outcome (fun _ => holding (InPhase .finalizing)) (holding AtWork)) :=
    (changePhase_spec (rfl : TransferJobStatus.canTransitionTo .verifying .finalizing = true)).weaken (fun _ hs => hs.1) fun _ _ hs => hs
  refine triple_andThen hfinalizing fun _ => ?_
  refine triple_andThen (putInPlace_spec overwrite fun _ hs => hs.atWork) fun _ => ?_
  exact triple_ok fun _ hs => hs

theorem sftpUpload_spec (path : Text) (overwrite : Bool) (policy : VerificationPolicy) :
    Triple A (holding (At .connecting)) (sftpUpload path overwrite policy).run
      (outcome (fun _ => holding (InPhase .finalizing)) (holding AtWork)) := by
  have hwork : ∀ s, At .connecting s → AtWork s := fun s hs => ⟨.connecting, hs⟩
  unfold sftpUpload
  refine triple_andThen (attempt_spec hwork) fun _ => ?_
  refine triple_andThen (hashAvailable_spec hwork) fun available => ?_
  have hnote : Triple A (holding (At .connecting))
      (noteStrategy (selectVerification policy available)).run
      (outcome (fun _ => holding (At .connecting)) (holding AtWork)) :=
    triple_atomic fun s hs => hs
  refine triple_andThen hnote fun _ => triple_andThen (localLength_spec hwork) fun total => ?_
  refine triple_andThen (attempt_spec hwork) fun _ => ?_
  refine triple_andThen (targetExists_spec hwork) fun found => ?_
  cases hexists : found && !overwrite with
  | true => exact triple_throw hwork
  | false => exact uploadToPartial_spec _ _ _ _

theorem downloadToPartial_spec (path : Text) (overwrite : Bool) (total : Option Nat)
    (strategy : VerificationStrategy) (expectedHash : Option Text) :
    Triple A (holding (InPhase .transferring))
      (downloadToPartial path overwrite total strategy expectedHash).run
      (outcome (fun _ => holding (InPhase .finalizing)) (holding AtWork)) := by
  unfold downloadToPartial
  refine triple_andThen (attempt_spec fun _ hs => hs.atWork) fun _ => ?_
  refine triple_andThen lift_spec fun blocks => ?_
  refine triple_andThen (moveBlocks_spec blocks 0) fun transferred => ?_
  refine triple_andThen (attempt_spec fun _ hs => hs.atWork) fun _ => ?_
  have hverifying : Triple A (holding (InPhase .transferring)) (changePhase .verifying).run
      (outcome (fun _ => holding (InPhase .verifying)) (holding AtWork)) :=
    (changePhase_spec (rfl : TransferJobStatus.canTransitionTo .transferring .verifying
      = true)).weaken (fun _ hs => hs.1) fun _ _ hs => hs
  refine triple_andThen hverifying fun _ => triple_andThen lift_spec fun actualHash => ?_
  refine triple_andThen (ofResult_spec fun _ hs => hs.atWork) fun _ => ?_
  refine triple_andThen (ofResult_spec fun _ hs => hs.atWork) fun _ => ?_
  have hfinalizing : Triple A (holding (InPhase .verifying)) (changePhase .finalizing).run
      (outcome (fun _ => holding (InPhase .finalizing)) (holding AtWork)) :=
    (changePhase_spec (rfl : TransferJobStatus.canTransitionTo .verifying .finalizing
      = true)).weaken (fun _ hs => hs.1) fun _ _ hs => hs
  refine triple_andThen hfinalizing fun _ => ?_
  refine triple_andThen (putInPlace_spec overwrite fun _ hs => hs.atWork) fun _ => ?_
  exact triple_ok fun _ hs => hs

/-! ## §3. How a file is verified does not change on the way. -/

/-- The strategy is as before. -/
def SameStrategy (s s' : TransferState) : Prop := s'.strategy = s.strategy

theorem sample_sameStrategy (transferred : Nat) :
    Guarantees SameStrategy (sample transferred).run := by
  unfold sample
  refine guarantees_andThen (guarantees_lift fun _ => trivial) fun now => ?_
  refine guarantees_andThen (guarantees_lift fun _ => trivial) fun rates => ?_
  refine guarantees_atomic fun s => ?_
  show (s.sample transferred now rates).strategy = s.strategy
  unfold TransferState.sample
  dsimp only
  split <;> rfl

theorem changePhase_sameStrategy (phase : TransferPhase) :
    Guarantees SameStrategy (changePhase phase).run := by
  unfold changePhase
  refine guarantees_andThen (guarantees_lift fun _ => trivial) fun now => ?_
  refine guarantees_andThen (guarantees_lift fun _ => trivial) fun rates => ?_
  exact guarantees_atomic fun s => rfl

theorem moveBlocks_sameStrategy (blocks : List Nat) (transferred : Nat) :
    Guarantees SameStrategy (moveBlocks blocks transferred).run := by
  induction blocks generalizing transferred with
  | nil => trivial
  | cons block rest ih =>
      unfold moveBlocks
      refine guarantees_andThen (fun _ => trivial) fun _ => ?_
      exact guarantees_andThen (sample_sameStrategy _) fun _ => ih _

theorem putInPlace_sameStrategy (overwrite : Bool) :
    Guarantees SameStrategy (putInPlace overwrite).run := by
  unfold putInPlace
  cases overwrite with
  | false => exact fun _ => trivial
  | true =>
      refine guarantees_andThen (fun _ => trivial) fun found => ?_
      cases found with
      | false => exact fun _ => trivial
      | true => exact guarantees_andThen (fun _ => trivial) fun _ => fun _ => trivial

theorem downloadToPartial_sameStrategy (path : Text) (overwrite : Bool) (total : Option Nat)
    (strategy : VerificationStrategy) (expectedHash : Option Text) :
    Guarantees SameStrategy
      (downloadToPartial path overwrite total strategy expectedHash).run := by
  unfold downloadToPartial
  refine guarantees_andThen (fun _ => trivial) fun _ => ?_
  refine guarantees_andThen (guarantees_lift fun _ => trivial) fun blocks => ?_
  refine guarantees_andThen (moveBlocks_sameStrategy _ _) fun transferred => ?_
  refine guarantees_andThen (fun _ => trivial) fun _ => ?_
  refine guarantees_andThen (changePhase_sameStrategy _) fun _ => ?_
  refine guarantees_andThen (guarantees_lift fun _ => trivial) fun actualHash => ?_
  refine guarantees_andThen trivial fun _ => guarantees_andThen trivial fun _ => ?_
  refine guarantees_andThen (changePhase_sameStrategy _) fun _ => ?_
  exact guarantees_andThen (putInPlace_sameStrategy _) fun _ => trivial

/-- What a part makes of a transfer in which hashes are compared. -/
theorem hashed_spec {α : Type} {p : TransferProcess α} {Q E : Assertion Alone fun _ => True}
    (h : Guarantees SameStrategy p.run) :
    Triple A (holding Hashed) p.run
      (outcome (fun _ => Q.or (holding Hashed)) (E.or (holding Hashed))) := by
  have hkeep : ∀ s s', SameStrategy s s' → Hashed s → Hashed s' := by
    intro s s' hsame hs
    obtain ⟨strategy, hstrategy, hne⟩ := hs
    exact ⟨strategy, hsame.trans hstrategy, hne⟩
  refine Triple.weaken (triple_of_guarantees h (yields_any _) hkeep) (fun _ hs => hs)
    fun r s hs => ?_
  cases r with
  | ok _ => exact Or.inr hs.2
  | error _ => exact Or.inr hs.2

/-! ## §4. The events of a whole transfer. -/

/-- A download follows the states of a job, or it compares hashes. -/
theorem sftpDownload_spec (path : Text) (overwrite : Bool) (policy : VerificationPolicy) :
    Triple A (holding (At .connecting)) (sftpDownload path overwrite policy).run
      (outcome (fun _ => (holding (InPhase .finalizing)).or (holding Hashed))
        ((holding AtWork).or (holding Hashed))) := by
  have hwork : ∀ s, At .connecting s → AtWork s := fun s hs => ⟨.connecting, hs⟩
  have hleft : ∀ s, (holding AtWork).holds s → ((holding AtWork).or (holding Hashed)).holds s :=
    fun _ hs => Or.inl hs
  unfold sftpDownload
  refine triple_andThen ((attempt_spec hwork).leave hleft) fun _ => ?_
  refine triple_andThen ((targetExists_spec hwork).leave hleft) fun found => ?_
  cases hexists : found && !overwrite with
  | true => exact triple_throw fun s hs => Or.inl (hwork s hs)
  | false =>
      refine triple_andThen ((attempt_spec hwork).leave hleft) fun _ => ?_
      refine triple_andThen ((hashAvailable_spec hwork).leave hleft) fun available => ?_
      dsimp only
      generalize selectVerification policy available = strategy
      by_cases hplain : strategy = .transportAndSize
      · subst hplain
        have hnote : Triple A (holding (At .connecting)) (noteStrategy .transportAndSize).run
            (outcome (fun _ => holding (At .connecting)) ((holding AtWork).or (holding Hashed))) :=
          triple_atomic fun s hs => hs
        refine triple_andThen hnote fun _ => ?_
        refine triple_andThen ((remoteSize_spec hwork).leave hleft) fun total => ?_
        have htracker : Triple A (holding (At .connecting)) (newTracker total).run
            (outcome (fun _ => holding (At .connecting)) ((holding AtWork).or (holding Hashed))) :=
          triple_atomic fun s hs => hs
        refine triple_andThen htracker fun _ => ?_
        rw [if_neg (by simp)]
        refine triple_andThen ((remoteHashFor_spec _ hwork).leave hleft) fun hash => ?_
        have hnext : TransferJobStatus.canTransitionTo .connecting .transferring = true := rfl
        refine triple_andThen ((changePhase_spec hnext).leave hleft) fun _ => ?_
        refine ((downloadToPartial_spec _ _ _ _ _).leave hleft).weaken (fun _ hs => hs)
          fun r s hs => ?_
        cases r with
        | ok _ => exact Or.inl hs
        | error _ => exact hs
      · -- whatever is sent from here on, the hashes are compared
        have hnote : Triple A (holding (At .connecting)) (noteStrategy strategy).run
            (outcome (fun _ => holding Hashed) ((holding AtWork).or (holding Hashed))) :=
          triple_atomic fun s hs => ⟨strategy, rfl, hplain⟩
        refine triple_andThen hnote fun _ => ?_
        have hrest : Guarantees SameStrategy (do
            let total ← remoteSize
            newTracker total
            if strategy ≠ .transportAndSize then changePhase .verifying
            let expectedHash ← remoteHashFor strategy
            changePhase .transferring
            downloadToPartial path overwrite total strategy expectedHash :
              TransferProcess TransferOutcome).run := by
          refine guarantees_andThen (fun _ => trivial) fun total => ?_
          refine guarantees_andThen (guarantees_atomic fun s => rfl) fun _ => ?_
          rw [if_pos hplain]
          refine guarantees_andThen (changePhase_sameStrategy _) fun _ => ?_
          refine guarantees_andThen ?_ fun hash => ?_
          · cases strategy with
            | transportAndSize => trivial
            | remoteHash | sftpReread =>
                exact guarantees_andThen (fun _ => trivial) fun _ => trivial
          · refine guarantees_andThen (changePhase_sameStrategy _) fun _ => ?_
            exact downloadToPartial_sameStrategy _ _ _ _ _
        exact hashed_spec hrest

/-- A download whose hashes are compared. -/
def Spoiled (direction : TransferDirection) (s : TransferState) : Prop :=
  direction = .download ∧ Hashed s

/-- The events lead to an end. -/
def Ended (s : TransferState) : Prop :=
  ∃ status, At status s ∧ status.isTerminal = true

/-- The events lead somewhere. -/
def Followed (s : TransferState) : Prop := ∃ status, At status s

theorem emit_spec {status next : TransferJobStatus} {event : TransferEvent}
    (hnext : advance status event = some next) :
    Triple A (holding (At status)) (emit event).run
      (outcome (fun _ => holding (At next)) (holding Followed)) :=
  triple_atomic fun _ hs => follow_send hs hnext

/-- Any action of a transfer that is followed. -/
theorem attempt_followed {action : TransferAction} {status : TransferJobStatus} :
    Triple A (holding (At status)) (attempt action).run
      (outcome (fun _ => holding (At status)) (holding Followed)) := by
  refine (triple_query fun answer _ s hs => ?_ :
    Triple A (holding (At status)) (Process.query (TransferQuestion.attempt action))
      (outcome (fun _ => holding (At status)) (holding Followed)))
  cases answer with
  | ok _ => exact hs
  | error e => exact ⟨_, hs⟩

theorem finishError_spec (e : AppError) {status : TransferJobStatus}
    (hactive : status.isActive = true) :
    Triple A (holding (At status)) (finishError e).run
      (outcome (fun _ => holding Ended) (holding Followed)) := by
  unfold finishError
  obtain ⟨hterminal, hne⟩ := failedStatus_terminal e.code
  have hnext : advance status (.failed e.code e.message e.retryable)
      = some (failedStatus e.code) :=
    moveTo_allowed (TransferJobStatus.active_canFail hactive hterminal hne)
  refine triple_andThen attempt_followed fun _ => triple_andThen (emit_spec hnext) fun _ => ?_
  refine triple_andThen attempt_followed fun _ => triple_ok fun s hs => ⟨_, hs, hterminal⟩

theorem finishSuccess_spec (result : TransferOutcome) :
    Triple A (holding (At .finalizing)) (finishSuccess result).run
      (outcome (fun _ => holding Ended) (holding Followed)) := by
  unfold finishSuccess
  have hnext : advance .finalizing (.finished .succeeded (some result.sha256)
      (some result.location)) = some .succeeded := moveTo_allowed rfl
  refine triple_andThen attempt_followed fun _ => triple_andThen (emit_spec hnext) fun _ => ?_
  exact triple_andThen attempt_followed fun _ => triple_ok fun s hs => ⟨_, hs, rfl⟩

/-- Ways of finishing that leave the strategy alone. -/
theorem finish_sameStrategy (e : AppError) (result : TransferOutcome) :
    Guarantees SameStrategy (finishError e).run
      ∧ Guarantees SameStrategy (finishSuccess result).run := by
  have hemit : ∀ event, Guarantees SameStrategy (emit event).run :=
    fun event => guarantees_atomic fun s => rfl
  constructor
  · exact guarantees_andThen (fun _ => trivial) fun _ => guarantees_andThen (hemit _) fun _ =>
      guarantees_andThen (fun _ => trivial) fun _ => trivial
  · exact guarantees_andThen (fun _ => trivial) fun _ => guarantees_andThen (hemit _) fun _ =>
      guarantees_andThen (fun _ => trivial) fun _ => trivial

/-- **The events of a transfer follow the states of a job, up to its end if there is a
record**, except those of a download that compares hashes. -/
theorem transfer_spec (direction : TransferDirection) (path : Text) (overwrite : Bool)
    (policy : VerificationPolicy) :
    Triple A (holding (At .connecting)) (transfer direction path overwrite policy).run
      (outcome (fun _ => (holding Ended).or (holding (Spoiled direction)))
        ((holding Followed).or (holding (Spoiled direction)))) := by
  have hleft : ∀ s, (holding Followed).holds s →
      ((holding Followed).or (holding (Spoiled direction))).holds s := fun _ hs => Or.inl hs
  have hends : ∀ {status : TransferJobStatus} {p : TransferProcess TransferRecord},
      Triple A (holding (At status)) p.run (outcome (fun _ => holding Ended) (holding Followed)) →
      Triple A (holding (At status)) p.run
        (outcome (fun _ => (holding Ended).or (holding (Spoiled direction)))
          ((holding Followed).or (holding (Spoiled direction)))) := by
    intro status p hp
    refine (hp.leave hleft).weaken (fun _ hs => hs) fun r s hs => ?_
    cases r with
    | ok _ => exact Or.inl hs
    | error _ => exact hs
  -- an end that comes while the transfer is at work in some phase
  have herror : ∀ e : AppError, Triple A (holding AtWork) (finishError e).run
      (outcome (fun _ => (holding Ended).or (holding (Spoiled direction)))
        ((holding Followed).or (holding (Spoiled direction)))) := by
    intro e s hs
    obtain ⟨phase, hphase⟩ := hs
    exact hends (finishError_spec e (TransferJobStatus.ofPhase_active phase)) s hphase
  unfold transfer
  refine triple_andThen (attempt_followed.leave hleft) fun _ => ?_
  refine triple_andThen (attempt_followed.leave hleft) fun _ => ?_
  refine triple_andThen (attempt_followed.leave hleft) fun _ => ?_
  refine triple_andThen (attempt_followed.leave hleft) fun _ => ?_
  refine triple_andThen (triple_lift (triple_query fun _ _ _ hs => hs)) fun executionId => ?_
  have hstarted : advance .connecting (.started executionId) = some .connecting := rfl
  refine triple_andThen ((emit_spec hstarted).leave hleft) fun _ => ?_
  have hconnecting : advance .connecting connectingProgress = some .connecting :=
    moveTo_allowed rfl
  refine triple_andThen ((emit_spec hconnecting).leave hleft) fun _ => ?_
  refine triple_andThen (triple_lift (triple_query fun _ _ _ hs => hs)) fun connected => ?_
  cases connected with
  | error e => exact hends (finishError_spec e rfl)
  | ok _ =>
      cases direction with
      | upload =>
          have hsession : Triple A (holding (At .connecting))
              (ExceptT.lift (sftpUpload path overwrite policy).run :
                TransferProcess (AppResult TransferOutcome)).run
              (outcome (outcome (fun _ => holding (InPhase .finalizing)) (holding AtWork))
                ((holding Followed).or (holding (Spoiled .upload)))) :=
            triple_lift (sftpUpload_spec path overwrite policy)
          refine triple_andThen hsession fun result => ?_
          cases result with
          | error e => exact herror e
          | ok result =>
              dsimp only
              rw [if_neg (by decide)]
              exact (hends (finishSuccess_spec result)).weaken (fun _ hs => hs.1) fun _ _ hs => hs
      | download =>
          have hsession : Triple A (holding (At .connecting))
              (ExceptT.lift (sftpDownload path overwrite policy).run :
                TransferProcess (AppResult TransferOutcome)).run
              (outcome (outcome (fun _ => (holding (InPhase .finalizing)).or (holding Hashed))
                  ((holding AtWork).or (holding Hashed)))
                ((holding Followed).or (holding (Spoiled .download)))) :=
            triple_lift (sftpDownload_spec path overwrite policy)
          have hspoiled : ∀ {α : Type} {p : TransferProcess α} {Q : Assertion Alone fun _ => True},
              Guarantees SameStrategy p.run →
              Triple A (holding Hashed) p.run
                (outcome (fun _ => Q.or (holding (Spoiled .download)))
                  ((holding Followed).or (holding (Spoiled .download)))) := by
            intro α p Q hp
            refine (hashed_spec (Q := Q) (E := holding Followed) hp).weaken (fun _ hs => hs)
              fun r s hs => ?_
            cases r with
            | ok _ => exact hs.imp_right fun hhashed => ⟨rfl, hhashed⟩
            | error _ => exact hs.imp_right fun hhashed => ⟨rfl, hhashed⟩
          refine triple_andThen hsession fun result => ?_
          cases result with
          | error e =>
              intro s hs
              rcases hs with hs | hs
              · exact herror e s hs
              · exact hspoiled (finish_sameStrategy e ⟨0, [], []⟩).1 s hs
          | ok result =>
              dsimp only
              rw [if_pos rfl]
              intro s hs
              rcases hs with hs | hs
              · refine hends (triple_andThen attempt_followed fun _ => ?_) s hs.1
                have hproduced : advance .finalizing .fileProduced = some .finalizing := rfl
                exact triple_andThen (emit_spec hproduced) fun _ => finishSuccess_spec result
              · have hrecord : Guarantees SameStrategy (attempt .recordFile).run := fun _ => trivial
                have hproduced : Guarantees SameStrategy (emit .fileProduced).run :=
                  guarantees_atomic fun _ => rfl
                refine hspoiled (guarantees_andThen hrecord fun _ => ?_) s hs
                exact guarantees_andThen hproduced fun _ => (finish_sameStrategy .cancelled result).2

theorem transfer_follows {direction : TransferDirection} {path : Text} {overwrite : Bool}
    {policy : VerificationPolicy} (ending : TransferEnd direction path overwrite policy)
    (hplain : ¬ Spoiled direction ending.val.2) :
    ∃ status, follow .connecting ending.val.2.events = some status
      ∧ ∀ record, ending.val.1 = .ok record → status.isTerminal = true := by
  have hspec := triple_iff.mp (transfer_spec (A := fun _ _ => True) direction path overwrite policy)
    TransferState.initial rfl _ _ (ReachesIn.of_reaches ending.property)
  have hend := hspec.2 _ rfl
  cases hresult : ending.val.1 with
  | error e =>
      rw [hresult] at hend
      obtain ⟨status, hstatus⟩ := hend.resolve_right hplain
      exact ⟨status, hstatus, nofun⟩
  | ok record =>
      rw [hresult] at hend
      obtain ⟨status, hstatus, hterminal⟩ := hend.resolve_right hplain
      exact ⟨status, hstatus, fun _ _ => hterminal⟩

/-! ## §5. Orderly runs of the queue. -/

/-- The worker that has claimed the job and has not left it. -/
def owner (id : Uuid) : List Deed → Option Nat
  | [] => none
  | .restarted :: _ => none
  | .left party left :: earlier =>
      if left = id ∧ owner id earlier = some party then none else owner id earlier
  | .called (some party) (.claim claimed now) :: earlier =>
      if claimed = id ∧ (claim id now (store earlier)).1 = true then some party
      else owner id earlier
  | _ :: earlier => owner id earlier

/-- No job is claimed before the worker of its last attempt has left it. -/
def Exclusive (deeds : List Deed) : Prop :=
  ∀ later earlier party id now, deeds = later ++ .called party (.claim id now) :: earlier →
    (claim id now (store earlier)).1 = true → owner id earlier = none

/-- No download compares hashes. -/
def Plain (deeds : List Deed) : Prop :=
  ∀ party id direction strategy, .transferred party id direction strategy ∈ deeds →
    direction = .upload ∨ strategy = none ∨ strategy = some .transportAndSize

structure Orderly (deeds : List Deed) : Prop where
  exclusive : Exclusive deeds
  plain : Plain deeds

theorem Orderly.tail {deed : Deed} {deeds : List Deed} (h : Orderly (deed :: deeds)) :
    Orderly deeds where
  exclusive later earlier party id now heq :=
    h.exclusive (deed :: later) earlier party id now (by rw [heq]; rfl)
  plain party id direction strategy hmem :=
    h.plain party id direction strategy (List.mem_cons_of_mem _ hmem)

/-- Every change the call makes is allowed. -/
def Allowed (earlier : List Deed) (operation : Operation) : Prop :=
  ∀ job ∈ store earlier, job.status.canTransitionTo (operation.row job).status = true

/-- The changes are allowed, and progress is reported by the worker of the attempt. -/
def Fair (earlier : List Deed) : Deed → Prop
  | .called party operation =>
      Allowed earlier operation
        ∧ ∀ id status progress now, operation = .updateProgress id status progress now →
          party ≠ none ∧ owner id earlier = party
  | _ => True

/-- Calls that are allowed whoever makes them. -/
structure Harmless (operation : Operation) : Prop where
  noProgress : ∀ id status progress now, operation ≠ .updateProgress id status progress now
  noSuccess : ∀ id result now, operation = .finish id result now → result.status ≠ .succeeded

/-- Every call is, but a report of progress and an end. -/
theorem harmless_of {operation : Operation}
    (h : match operation with
      | .updateProgress .. | .finish .. => False
      | _ => True) : Harmless operation := by
  refine ⟨fun _ _ _ _ heq => ?_, fun _ _ _ heq => ?_⟩
  · subst heq
    exact h.elim
  · subst heq
    exact h.elim

theorem Harmless.allowed {operation : Operation} (h : Harmless operation) (job : TransferJob) :
    job.status.canTransitionTo (operation.row job).status = true := by
  rcases row_change operation job with heq | hchange
  · rw [heq]
    exact TransferJobStatus.canTransitionTo_self _
  · generalize operation.row job = job' at hchange
    cases hchange with
    | claimed now hqueued =>
        rw [hqueued]
        rfl
    | executionSet executionId now hactive => exact TransferJobStatus.canTransitionTo_self _
    | progressed progress now _ _ => exact absurd rfl (h.noProgress _ _ _ _)
    | finished now hterminal hactive =>
        exact TransferJobStatus.active_canFail hactive hterminal (h.noSuccess _ _ _ rfl)
    | cancelledQueued now hqueued =>
        rw [hqueued]
        rfl
    | cancelAsked now hactive => exact TransferJobStatus.canTransitionTo_self _
    | retried now hretry =>
        rcases (canRetry_iff.mp hretry).1 with hstatus | hstatus <;> rw [hstatus] <;> rfl
    | requeued now hrequeue =>
        rw [(canRequeue_iff.mp hrequeue).1]
        rfl
    | interrupted now hactive => exact TransferJobStatus.active_canFail hactive rfl nofun

theorem Harmless.fair {operation : Operation} (h : Harmless operation) (party : Option Nat)
    (earlier : List Deed) : Fair earlier (.called party operation) :=
  ⟨fun job _ => h.allowed job,
    fun id status progress now heq => absurd heq (h.noProgress id status progress now)⟩

/-! ## §6. What the parties rely on. -/

/-- Everything the party has done in orderly runs was fair. -/
def SafeFor (party : Nat) (deeds : List Deed) : Prop :=
  ∀ later deed earlier, deeds = later ++ deed :: earlier → deed.by = some party →
    Orderly (deed :: earlier) → Fair earlier deed

/-- A step of the party. -/
def Does (party : Nat) (s s' : List Deed) : Prop :=
  s' = s ∨ ∃ deed, s' = deed :: s ∧ deed.by = some party

/-- A step of another party. -/
def Others (party : Nat) (s s' : List Deed) : Prop :=
  s' = s ∨ ∃ deed other, s' = deed :: s ∧ deed.by = some other ∧ other ≠ party
    ∧ (Orderly s' → Fair s deed)

theorem others_of_does {i j : Nat} {s s' : List Deed} (hne : i ≠ j) (hdoes : Does i s s')
    (hsafe : SafeFor i s') : Others j s s' := by
  rcases hdoes with rfl | ⟨deed, rfl, hby⟩
  · exact Or.inl rfl
  · exact Or.inr ⟨deed, i, rfl, hby, hne, hsafe [] deed s rfl hby⟩

theorem SafeFor.cons {party : Nat} {deed : Deed} {s : List Deed} (h : SafeFor party s)
    (hfair : deed.by = some party → Orderly (deed :: s) → Fair s deed) :
    SafeFor party (deed :: s) := by
  intro later first earlier heq hby horderly
  cases later with
  | nil =>
      obtain ⟨rfl, rfl⟩ := List.cons.inj heq
      exact hfair hby horderly
  | cons _ later => exact h later first earlier (List.cons.inj heq).2 hby horderly

theorem SafeFor.others {party : Nat} {s s' : List Deed} (h : SafeFor party s)
    (hothers : Others party s s') : SafeFor party s' := by
  rcases hothers with rfl | ⟨deed, other, rfl, hby, hne, _⟩
  · exact h
  · refine h.cons fun hown => ?_
    rw [hby] at hown
    exact absurd (Option.some.inj hown) hne

/-- The worker owns the job, and while the job is active it is in this status. -/
def Owns (party : Nat) (id : Uuid) (status : TransferJobStatus) (s : List Deed) : Prop :=
  Orderly s → owner id s = some party
    ∧ ∀ job, get id (store s) = some job → job.status.isActive = true → job.status = status

theorem Owns.others {party : Nat} {id : Uuid} {status : TransferJobStatus} {s s' : List Deed}
    (h : Owns party id status s) (hothers : Others party s s') : Owns party id status s' := by
  rcases hothers with rfl | ⟨deed, other, rfl, hby, hne, hfair⟩
  · exact h
  · intro horderly
    obtain ⟨howner, hstatus⟩ := h horderly.tail
    cases deed with
    | restarted => cases hby
    | transferred => exact ⟨howner, hstatus⟩
    | left left leftId =>
        cases hby
        refine ⟨?_, hstatus⟩
        unfold owner
        rw [if_neg fun hand => hne (Option.some.inj (hand.2.symm.trans howner))]
        exact howner
    | called caller operation =>
        cases hby
        obtain ⟨_, hprogress⟩ := hfair horderly
        -- nobody else claims the job that the worker owns
        have hclaim : ∀ now, operation = .claim id now → (claim id now (store s)).1 = false := by
          intro now hop
          refine Bool.eq_false_iff.mpr fun htrue => ?_
          have hnone := horderly.exclusive [] s (some other) id now (by rw [hop]; rfl) htrue
          rw [howner] at hnone
          cases hnone
        refine ⟨?_, fun job' hjob' hactive => ?_⟩
        · cases operation with
          | claim claimed now =>
              unfold owner
              by_cases hid : claimed = id
              · subst hid
                rw [if_neg fun hand => absurd hand.2 (by rw [hclaim now rfl]; decide)]
                exact howner
              · rw [if_neg fun hand => hid hand.1]
                exact howner
          | create | setExecution | updateProgress | finish | requestCancel | retry
          | requeueAutomatically | recoverInterrupted => exact howner
        · rcases get_replay_cons hjob' with ⟨job, hjob, rfl⟩ | ⟨newId, draft, now, rfl⟩
          · have hid := (get_some hjob).2
            rcases row_change operation job with heq | hchange
            · rw [heq] at hactive ⊢
              exact hstatus job hjob hactive
            · by_cases hbefore : job.status.isActive = true
              · have hsame := hstatus job hjob hbefore
                generalize operation.row job = job' at hchange hactive
                cases hchange with
                | claimed now hqueued =>
                    rw [hqueued] at hbefore
                    cases hbefore
                | executionSet executionId now _ => exact hsame
                | progressed progress now _ _ =>
                    obtain ⟨_, hother⟩ := hprogress _ _ _ _ rfl
                    rw [hid, howner] at hother
                    exact absurd (Option.some.inj hother.symm) hne
                | finished now hterminal _ =>
                    rw [finishRow_status, TransferJobStatus.not_active_of_terminal hterminal]
                      at hactive
                    cases hactive
                | cancelledQueued now hqueued => cases hactive
                | cancelAsked now _ => exact hsame
                | retried now _ => cases hactive
                | requeued now _ => cases hactive
                | interrupted now _ => cases hactive
              · obtain ⟨hqueued, now, hop⟩ :=
                  hchange.claim_of_active (Bool.eq_false_iff.mpr hbefore) hactive
                have hfalse := hclaim now (by rw [hop, hid])
                have htrue : (claim id now (store s)).1 = true :=
                  (claim_true_iff (replay_unique _)).mpr ⟨job, hjob, hqueued⟩
                rw [htrue] at hfalse
                cases hfalse
          · cases hactive

/-! ## §7. The steps of a worker. -/

/-- Nothing but that the party has been fair. -/
def idle (party : Nat) : Assertion (Others party) (SafeFor party) where
  holds := SafeFor party
  stable _ _ hothers h := h.others hothers
  safe _ h := h

def owning (party : Nat) (id : Uuid) (status : TransferJobStatus) :
    Assertion (Others party) (SafeFor party) where
  holds s := SafeFor party s ∧ Owns party id status s
  stable _ _ hothers h := ⟨h.1.others hothers, h.2.others hothers⟩
  safe _ h := h.1

theorem orderly_of_others {party : Nat} {s s' : List Deed} (h : Others party s s') :
    Orderly s' → Orderly s := by
  rcases h with rfl | ⟨deed, other, rfl, _⟩
  · exact id
  · exact Orderly.tail

/-- The run is not orderly any more. -/
def disorderly (party : Nat) : Assertion (Others party) (SafeFor party) where
  holds s := SafeFor party s ∧ ¬ Orderly s
  stable _ _ hothers h := ⟨h.1.others hothers, fun horderly =>
    h.2 (orderly_of_others hothers horderly)⟩
  safe _ h := h.1

section Worker

variable {party : Nat} {id : Uuid} {status : TransferJobStatus}
variable {P E : Assertion (Others party) (SafeFor party)}

/-- Every answer is admitted. -/
abbrev Any : (question : QueueQuestion) → QueueAnswer question → Prop := fun _ _ => True

theorem query_spec {question : QueueQuestion} :
    Triple Any P (ExceptT.lift (Process.query question) : QueueProcess (QueueAnswer question)).run
      (outcome (fun _ => P) E) :=
  triple_lift (triple_query fun _ _ _ hs => hs)

/-- An answer that may be an error. -/
theorem answered_spec {α : Type} {s : List Deed} (answer : AppResult α) (hs : P.holds s)
    (hleave : ∀ s, P.holds s → E.holds s) : (outcome (fun _ : α => P) E answer).holds s := by
  cases answer with
  | ok _ => exact hs
  | error e => exact hleave s hs

theorem database_spec (hleave : ∀ s, P.holds s → E.holds s) :
    Triple Any P database.run (outcome (fun _ => P) E) :=
  triple_query fun answer _ _ hs => answered_spec answer hs hleave

theorem join_spec (hleave : ∀ s, P.holds s → E.holds s) :
    Triple Any P join.run (outcome (fun _ => P) E) :=
  triple_query fun answer _ _ hs => answered_spec answer hs hleave

theorem look_spec {α : Type} {f : Jobs → AppResult α} {Qa : α → Assertion (Others party) (SafeFor party)}
    (hok : ∀ s a, P.holds s → f (store s) = .ok a → (Qa a).holds s)
    (hleave : ∀ s, P.holds s → E.holds s) :
    Triple Any P (look f).run (outcome Qa E) := by
  unfold look
  refine triple_andThen (database_spec hleave) fun _ => ?_
  refine triple_read fun s hs => ?_
  cases hf : f (store s) with
  | ok a => exact hok s a hs hf
  | error e => exact hleave s hs

/-- **A call that writes**: it is fair, and whatever it answers is allowed for. -/
theorem perform_spec {α : Type} {operation : Int → Operation} {f : Int → Jobs → AppResult α}
    {Qa : α → Assertion (Others party) (SafeFor party)}
    (hfair : ∀ now s, P.holds s → Orderly (.called (some party) (operation now) :: s) →
      Fair s (.called (some party) (operation now)))
    (hok : ∀ now s a, P.holds s → f now (store s) = .ok a →
      SafeFor party (.called (some party) (operation now) :: s) →
      (Qa a).holds (.called (some party) (operation now) :: s))
    (herror : ∀ now s e, P.holds s → f now (store s) = .error e →
      SafeFor party (.called (some party) (operation now) :: s) →
      E.holds (.called (some party) (operation now) :: s))
    (hleave : ∀ s, P.holds s → E.holds s) :
    Triple Any P (perform party operation f).run (outcome Qa E) := by
  unfold perform
  refine triple_andThen query_spec fun now => triple_andThen (database_spec hleave) fun _ => ?_
  refine triple_atomic fun s hs => ?_
  have hsafe : SafeFor party (.called (some party) (operation now) :: s) :=
    (P.safe s hs).cons fun _ => hfair now s hs
  dsimp only
  cases hf : f now (store s) with
  | ok a => exact hok now s a hs hf hsafe
  | error e => exact herror now s e hs hf hsafe

/-- A harmless call by a party that does nothing else for the moment. -/
theorem perform_idle {α : Type} {operation : Int → Operation} {f : Int → Jobs → AppResult α}
    (hharmless : ∀ now, Harmless (operation now)) :
    Triple Any P (perform party operation f).run
      (outcome (fun _ => idle party) (idle party)) :=
  perform_spec (fun now s _ _ => (hharmless now).fair _ s) (fun _ _ _ _ _ hsafe => hsafe)
    (fun _ _ _ _ _ hsafe => hsafe) fun s hs => P.safe s hs

theorem harmless_finish {result : TransferJobFinish} (h : result.status ≠ .succeeded) (now : Int) :
    Harmless (.finish id result now) where
  noProgress _ _ _ _ heq := nomatch heq
  noSuccess _ _ _ heq := by
    cases heq
    exact h

/-- The row of the owned job after a call by its worker. -/
theorem Owns.step {next : TransferJobStatus} {operation : Operation} {s : List Deed}
    (h : Owns party id status s) (hnoClaim : ∀ claimed now, operation ≠ .claim claimed now)
    (hrow : ∀ job, get id (store s) = some job → (job.status.isActive = true → job.status = status) →
      (operation.row job).status.isActive = true → (operation.row job).status = next) :
    Owns party id next (.called (some party) operation :: s) := by
  intro horderly
  obtain ⟨howner, hstatus⟩ := h horderly.tail
  refine ⟨?_, fun job' hjob' hactive => ?_⟩
  · cases operation with
    | claim claimed now => exact absurd rfl (hnoClaim claimed now)
    | create | setExecution | updateProgress | finish | requestCancel | retry
    | requeueAutomatically | recoverInterrupted => exact howner
  · rcases get_replay_cons hjob' with ⟨job, hjob, rfl⟩ | ⟨newId, draft, now, rfl⟩
    · exact hrow job hjob (hstatus job hjob) hactive
    · cases hactive

/-- A report of progress by the worker of the job. -/
theorem progress_spec {phase : TransferPhase} (progress : TransferProgress)
    (hnext : status.canTransitionTo (.ofPhase phase) = true) :
    Triple Any (owning party id status)
      (perform party (.updateProgress id (.ofPhase phase) progress)
        fun now jobs => (updateProgress id (.ofPhase phase) progress now jobs).1).run
      (outcome (fun _ => owning party id (.ofPhase phase)) (idle party)) := by
  refine perform_spec (fun now s hs horderly => ?_) (fun now s _ hs hok hsafe => ?_)
    (fun _ _ _ _ _ hsafe => hsafe) fun s hs => hs.1
  · obtain ⟨howner, hstatus⟩ := hs.2 horderly.tail
    refine ⟨fun job hjob => ?_, fun _ _ _ _ heq => ?_⟩
    · rcases row_change (.updateProgress id (.ofPhase phase) progress now) job with heq | hchange
      · rw [heq]
        exact TransferJobStatus.canTransitionTo_self _
      · generalize Operation.row _ job = job' at hchange
        cases hchange with
        | progressed _ _ _ hactive =>
            have hget := (get_eq_some (replay_unique _)).mpr ⟨hjob, rfl⟩
            rw [progressRow_status, hstatus job hget hactive]
            exact hnext
    · cases heq
      exact ⟨nofun, howner⟩
  · refine ⟨hsafe, hs.2.step nofun fun job hjob hstatus hactive => ?_⟩
    -- the report has been taken, so an active row is in the new phase
    have hrow : job.status.isActive = true →
        (Operation.updateProgress id (.ofPhase phase) progress now).row job
          = progressRow (.ofPhase phase) progress now job := by
      intro hbefore
      unfold Operation.row
      refine if_pos ⟨⟨TransferJobStatus.ofPhase_active phase, ?_⟩, (get_some hjob).2, hbefore⟩
      unfold updateProgress at hok
      rw [if_pos (TransferJobStatus.ofPhase_active phase)] at hok
      cases hcheck : checkProgress progress with
      | ok _ => rfl
      | error e =>
          rw [hcheck] at hok
          cases hok
    by_cases hbefore : job.status.isActive = true
    · rw [hrow hbefore]
      exact progressRow_status _ _ _ _
    · have hsame : (Operation.updateProgress id (.ofPhase phase) progress now).row job = job := by
        unfold Operation.row
        exact if_neg fun hand => hbefore hand.2.2
      rw [hsame] at hactive
      exact absurd hactive hbefore

/-- The end of a job that its worker reports. -/
theorem performFinish_spec {result : TransferJobFinish}
    (hnext : status.isActive = true → status.canTransitionTo result.status = true)
    (hterminal : result.status.isTerminal = true) :
    Triple Any (owning party id status) (performFinish party id result).run
      (outcome (fun _ => owning party id result.status) (idle party)) := by
  refine perform_spec (fun now s hs horderly => ?_) (fun now s _ hs hok hsafe => ?_)
    (fun _ _ _ _ _ hsafe => hsafe) fun s hs => hs.1
  · obtain ⟨howner, hstatus⟩ := hs.2 horderly.tail
    refine ⟨fun job hjob => ?_, fun _ _ _ _ heq => by cases heq⟩
    rcases row_change (.finish id result now) job with heq | hchange
    · rw [heq]
      exact TransferJobStatus.canTransitionTo_self _
    · generalize Operation.row _ job = job' at hchange
      cases hchange with
      | finished _ _ hactive =>
          have hget := (get_eq_some (replay_unique _)).mpr ⟨hjob, rfl⟩
          have hsame := hstatus job hget hactive
          rw [finishRow_status, hsame]
          exact hnext (hsame ▸ hactive)
  · refine ⟨hsafe, hs.2.step nofun fun job hjob hstatus hactive => ?_⟩
    by_cases hbefore : job.status.isActive = true
    · have hrow : (Operation.finish id result now).row job = finishRow result now job := by
        unfold Operation.row
        exact if_pos ⟨hterminal, (get_some hjob).2, hbefore⟩
      rw [hrow]
      exact finishRow_status _ _ _
    · have hsame : (Operation.finish id result now).row job = job := by
        unfold Operation.row
        exact if_neg fun hand => hbefore hand.2.2
      rw [hsame] at hactive
      exact absurd hactive hbefore

/-- **The events of a transfer move its job as they go.** -/
theorem processEvent_spec {next : TransferJobStatus} {event : TransferEvent}
    (hnext : advance status event = some next) :
    Triple Any (owning party id status) (processEvent party id event).run
      (outcome (fun _ => owning party id next) (idle party)) := by
  have hmove : ∀ {target : TransferJobStatus}, moveTo status target = some next →
      status.canTransitionTo target = true ∧ target = next := by
    intro target h
    unfold moveTo at h
    split at h
    next hallowed => exact ⟨hallowed, Option.some.inj h⟩
    next => cases h
  cases event with
  | started executionId =>
      cases hnext
      have hset : Triple Any (owning party id status)
          (perform party (.setExecution id executionId)
            fun now jobs => .ok (setExecution id executionId now jobs).1).run
          (outcome (fun _ => owning party id status) (idle party)) := by
        have hharmless : ∀ now, Harmless (.setExecution id executionId now) :=
          fun now => harmless_of trivial
        refine perform_spec (fun now s hs _ => (hharmless now).fair _ s)
          (fun now s _ hs hok hsafe => ?_) (fun _ _ _ _ _ hsafe => hsafe) fun s hs => hs.1
        · refine ⟨hsafe, hs.2.step nofun fun job hjob hstatus hactive => ?_⟩
          have hrow : ((Operation.setExecution id executionId now).row job).status = job.status := by
            unfold Operation.row
            dsimp only
            split <;> rfl
          rw [hrow] at hactive ⊢
          exact hstatus hactive
      unfold processEvent
      refine triple_andThen hset fun _ => ?_
      refine triple_andThen (look_spec (fun s _ hs _ => hs) fun s hs => hs.1) fun cancel => ?_
      cases cancel with
      | false => exact triple_ok fun _ hs => hs
      | true => exact triple_andThen query_spec fun _ => triple_ok fun _ hs => hs
  | progress phase progress =>
      obtain ⟨hallowed, rfl⟩ := hmove hnext
      exact progress_spec progress hallowed
  | fileProduced =>
      cases hnext
      exact triple_ok fun _ hs => hs
  | finished result sha256 location =>
      obtain ⟨hallowed, rfl⟩ := hmove hnext
      refine performFinish_spec (fun _ => hallowed) ?_
      cases result <;> rfl
  | failed category message retryable =>
      obtain ⟨hallowed, rfl⟩ := hmove hnext
      exact performFinish_spec (fun _ => hallowed) (failedStatus_terminal category).1

theorem processEvents_spec {last : TransferJobStatus} {events : List TransferEvent}
    (hfollow : follow status events = some last) :
    Triple Any (owning party id status) (processEvents party id events).run
      (outcome (fun _ => owning party id last) (idle party)) := by
  induction events generalizing status with
  | nil =>
      cases hfollow
      exact triple_ok fun _ hs => hs
  | cons event rest ih =>
      obtain ⟨next, hnext, hrest⟩ := Option.bind_eq_some_iff.mp hfollow
      unfold processEvents
      exact triple_andThen (processEvent_spec hnext) fun _ => ih hrest

/-! ## §8. What each party does. -/

theorem perform_does {α : Type} {operation : Int → Operation} {f : Int → Jobs → AppResult α} :
    Guarantees (Does party) (perform party operation f).run := by
  unfold perform
  refine guarantees_andThen (guarantees_lift fun _ => trivial) fun now => ?_
  refine guarantees_andThen (fun _ => trivial) fun _ => ?_
  exact guarantees_atomic fun s => Or.inr ⟨_, rfl, rfl⟩

theorem look_does {α : Type} {f : Jobs → AppResult α} :
    Guarantees (Does party) (look f).run := by
  unfold look
  refine guarantees_andThen (fun _ => trivial) fun _ => ?_
  exact ⟨fun _ => Or.inl rfl, fun _ => trivial⟩

theorem note_does {deed : Deed} (hby : deed.by = some party) :
    Guarantees (Does party) (note deed).run :=
  guarantees_atomic fun _ => Or.inr ⟨deed, rfl, hby⟩

theorem processEvents_does (events : List TransferEvent) :
    Guarantees (Does party) (processEvents party id events).run := by
  induction events with
  | nil => trivial
  | cons event rest ih =>
      unfold processEvents
      refine guarantees_andThen ?_ fun _ => ih
      cases event with
      | started executionId =>
          unfold processEvent
          refine guarantees_andThen perform_does fun _ => guarantees_andThen look_does fun cancel => ?_
          cases cancel with
          | false => trivial
          | true => exact guarantees_andThen (guarantees_lift fun _ => trivial) fun _ => trivial
      | progress phase progress =>
          unfold processEvent
          exact perform_does
      | fileProduced => trivial
      | finished result sha256 location =>
          unfold processEvent performFinish
          exact perform_does
      | failed category message retryable =>
          unfold processEvent performFinish
          exact perform_does

theorem ensureFinished_does (details : TransferRecord) (result : Option Text × Option Text) :
    Guarantees (Does party) (ensureFinished party id details result).run := by
  unfold ensureFinished
  refine guarantees_andThen look_does fun job => ?_
  split
  · trivial
  · exact perform_does

/-- What follows when the transfer has come to its end. -/
def afterTransfer (party : Nat) (id : Uuid) (events : List TransferEvent)
    (result : AppResult TransferRecord) : QueueProcess Unit := do
  processEvents party id events
  join
  let details ← ofResult result
  ensureFinished party id details (resultFields events)

theorem afterTransfer_does (events : List TransferEvent) (result : AppResult TransferRecord) :
    Guarantees (Does party) (afterTransfer party id events result).run := by
  unfold afterTransfer
  refine guarantees_andThen (processEvents_does events) fun _ => ?_
  refine guarantees_andThen (fun _ => trivial) fun _ => guarantees_andThen trivial fun details => ?_
  exact ensureFinished_does _ _

theorem executeInner_does : Guarantees (Does party) (executeInner party id).run := by
  unfold executeInner
  refine guarantees_andThen look_does fun job => guarantees_andThen trivial fun policy => ?_
  refine guarantees_andThen (guarantees_lift fun _ => trivial) fun ending => ?_
  exact guarantees_andThen (note_does rfl) fun _ => afterTransfer_does _ _

/-- What `execute` does after its job has ended. -/
theorem execute_settled_does : Guarantees (Does party) (do
    let _ ← (note (.left party id)).run
    match ← (look (require id)).run with
    | .ok job =>
        if retriesAutomatically job then
          let _ ← (perform party (.requeueAutomatically id)
            fun now jobs => .ok (requeueAutomatically id now jobs).1).run
    | .error _ => pure () : PlainProcess Unit) := by
  refine guarantees_bind (note_does rfl) fun _ => guarantees_bind look_does fun found => ?_
  cases found with
  | error e => trivial
  | ok job =>
      dsimp only
      split
      · exact guarantees_bind perform_does fun _ => trivial
      · trivial

theorem execute_does : (execute party id).Guarantees (Does party) := by
  unfold execute
  refine guarantees_bind executeInner_does fun result => ?_
  cases result with
  | error e => exact guarantees_bind perform_does fun _ => execute_settled_does
  | ok _ => exact execute_settled_does

theorem workerLoop_does (turns : Nat) : (workerLoop party turns).Guarantees (Does party) := by
  induction turns with
  | zero => trivial
  | succ turns ih =>
      unfold workerLoop
      refine guarantees_bind ?_ fun _ => ih
      unfold workerTurn
      refine guarantees_bind look_does fun next => ?_
      split
      · refine guarantees_bind perform_does fun claimed => ?_
        split
        · exact execute_does
        · trivial
      · trivial

theorem role_does (role : Role) : (role.process party).Guarantees (Does party) := by
  cases role with
  | worker turns => exact workerLoop_does turns
  | enqueue draft =>
      refine guarantees_bind (guarantees_andThen (guarantees_lift fun _ => trivial) fun id => ?_)
        fun _ => trivial
      exact perform_does
  | retry id => exact guarantees_bind perform_does fun _ => trivial
  | cancel id =>
      refine guarantees_bind ?_ fun _ => trivial
      unfold cancel
      refine guarantees_andThen perform_does fun action => ?_
      cases action with
      | cancelledQueued => exact look_does
      | awaitExecutionId => exact look_does
      | signalExecution executionId =>
          refine guarantees_andThen (guarantees_lift fun _ => trivial) fun answer => ?_
          cases answer with
          | ok _ => exact look_does
          | error e =>
              refine guarantees_andThen look_does fun current => ?_
              dsimp only
              split
              · trivial
              · exact look_does

/-! ## §9. Every party is fair. -/

/-- A part of a run that has ceased to be orderly. -/
theorem disorderly_spec {α : Type} {p : QueueProcess α} (h : Guarantees (Does party) p.run) :
    Triple Any (disorderly party) p.run
      (outcome (fun _ => idle party) (idle party)) := by
  have hkeep : ∀ s s', Does party s s' → (disorderly party).holds s →
      (disorderly party).holds s' := by
    intro s s' hdoes hs
    rcases hdoes with rfl | ⟨deed, rfl, hby⟩
    · exact hs
    · have hnot : ¬ Orderly (deed :: s) := fun horderly => hs.2 horderly.tail
      exact ⟨hs.1.cons fun _ horderly => absurd horderly hnot, hnot⟩
  refine (triple_of_guarantees h (yields_any _) hkeep).weaken (fun _ hs => hs) fun r s hs => ?_
  cases r with
  | ok _ => exact hs.2.1
  | error _ => exact hs.2.1

theorem ensureFinished_spec (hterminal : status.isTerminal = true) (details : TransferRecord)
    (result : Option Text × Option Text) :
    Triple Any (owning party id status) (ensureFinished party id details result).run
      (outcome (fun _ => idle party) (idle party)) := by
  unfold ensureFinished
  refine triple_andThen (look_spec (fun s _ hs _ => hs) fun s hs => hs.1) fun job => ?_
  split
  · exact triple_ok fun _ hs => hs.1
  · -- the job has come to its end, so nothing is left to be changed
    have hidle : status.isActive = false := TransferJobStatus.not_active_of_terminal hterminal
    refine (performFinish_spec (fun hactive => ?_) ?_).weaken (fun _ hs => hs) fun r s hs => ?_
    · rw [hidle] at hactive
      cases hactive
    · cases details.status <;> rfl
    · cases r with
      | ok _ => exact hs.1
      | error _ => exact hs

theorem afterTransfer_spec {last : TransferJobStatus} {events : List TransferEvent}
    {result : AppResult TransferRecord} (hfollow : follow status events = some last)
    (hlast : ∀ record, result = .ok record → last.isTerminal = true) :
    Triple Any (owning party id status) (afterTransfer party id events result).run
      (outcome (fun _ => idle party) (idle party)) := by
  unfold afterTransfer
  refine triple_andThen (processEvents_spec hfollow) fun _ => ?_
  refine triple_andThen (join_spec fun s hs => hs.1) fun _ => ?_
  cases result with
  | error e => exact triple_throw fun s hs => hs.1
  | ok record => exact ensureFinished_spec (hlast record rfl) record _

theorem executeInner_spec :
    Triple Any (owning party id .connecting) (executeInner party id).run
      (outcome (fun _ => idle party) (idle party)) := by
  unfold executeInner
  refine triple_andThen (look_spec (fun s _ hs _ => hs) fun s hs => hs.1) fun job => ?_
  have hpolicy : Triple Any (owning party id .connecting)
      (ofResult (parseVerification job.verification)).run
      (outcome (fun _ => owning party id .connecting) (idle party)) :=
    triple_result (fun _ _ _ hs => hs) fun _ _ s hs => hs.1
  refine triple_andThen hpolicy fun policy => triple_andThen query_spec fun ending => ?_
  by_cases hspoiled : Spoiled job.direction ending.val.2
  · -- a download that compares hashes leaves the orderly runs
    have hnote : Triple Any (owning party id .connecting)
        (note (.transferred party id job.direction ending.val.2.strategy)).run
        (outcome (fun _ => disorderly party) (idle party)) := by
      refine triple_atomic fun s hs => ?_
      obtain ⟨hdownload, strategy, hstrategy, hne⟩ := hspoiled
      refine ⟨hs.1.cons fun _ _ => trivial, fun horderly => ?_⟩
      rcases horderly.plain party id job.direction _ List.mem_cons_self with hup | hnone | hsome
      · rw [hdownload] at hup
        cases hup
      · rw [hstrategy] at hnone
        cases hnone
      · rw [hstrategy] at hsome
        exact hne (Option.some.inj hsome)
    exact triple_andThen hnote fun _ => disorderly_spec (afterTransfer_does _ _)
  · obtain ⟨last, hfollow, hlast⟩ := transfer_follows ending hspoiled
    have hnote : Triple Any (owning party id .connecting)
        (note (.transferred party id job.direction ending.val.2.strategy)).run
        (outcome (fun _ => owning party id .connecting) (idle party)) := by
      refine triple_atomic fun s hs => ?_
      exact ⟨hs.1.cons fun _ _ => trivial, fun horderly => hs.2 horderly.tail⟩
    exact triple_andThen hnote fun _ => afterTransfer_spec hfollow hlast

/-- After its job has ended, a party owns nothing. -/
theorem execute_settled : Triple Any (idle party) (do
    let _ ← (note (.left party id)).run
    match ← (look (require id)).run with
    | .ok job =>
        if retriesAutomatically job then
          let _ ← (perform party (.requeueAutomatically id)
            fun now jobs => .ok (requeueAutomatically id now jobs).1).run
    | .error _ => pure () : PlainProcess Unit) fun _ => idle party := by
  have hleft : Triple Any (idle party) (note (.left party id)).run
      (outcome (fun _ => idle party) (idle party)) :=
    triple_atomic fun s hs => SafeFor.cons hs fun _ _ => trivial
  refine triple_bind hleft fun noted => ?_
  have hsame : (outcome (fun _ : Unit => idle party) (idle party) noted) = idle party := by
    cases noted <;> rfl
  rw [hsame]
  have hlook : Triple Any (idle party) (look (require id)).run
      (outcome (fun _ => idle party) (idle party)) :=
    look_spec (fun s _ hs _ => hs) fun s hs => hs
  refine triple_bind hlook fun found => ?_
  cases found with
  | error e => exact triple_pure fun _ hs => hs
  | ok job =>
      dsimp only
      split
      · have hharmless : ∀ now, Harmless (.requeueAutomatically id now) :=
          fun now => harmless_of trivial
        refine triple_bind (perform_idle hharmless) fun requeued => ?_
        refine triple_pure fun s hs => ?_
        cases requeued <;> exact hs
      · exact triple_pure fun _ hs => hs

theorem execute_spec :
    Triple Any (owning party id .connecting) (execute party id) fun _ => idle party := by
  unfold execute
  refine triple_bind executeInner_spec fun result => ?_
  cases result with
  | ok _ => exact execute_settled
  | error e =>
      have hfinish : Triple Any (idle party) (performFinish party id (errorFinish e)).run
          (outcome (fun _ => idle party) (idle party)) := by
        have hfailed : (errorFinish e).status ≠ .succeeded := by
          intro h
          cases h
        exact perform_idle fun now => harmless_finish hfailed now
      refine triple_bind hfinish fun finished => ?_
      cases finished <;> exact execute_settled

theorem workerTurn_spec : Triple Any (idle party) (workerTurn party) fun _ => idle party := by
  unfold workerTurn
  have hlook : Triple Any (idle party) (look fun jobs => .ok (nextRunnable jobs)).run
      (outcome (fun _ => idle party) (idle party)) :=
    look_spec (fun s _ hs _ => hs) fun s hs => hs
  refine triple_bind hlook fun next => ?_
  cases next with
  | error e => exact triple_pure fun _ hs => hs
  | ok next =>
      cases next with
      | none => exact triple_pure fun _ hs => hs
      | some job =>
          have hharmless : ∀ now, Harmless (.claim job.id now) :=
            fun now => harmless_of trivial
          have hclaim : Triple Any (idle party)
              (perform party (.claim job.id) fun now jobs => .ok (claim job.id now jobs).1).run
              (outcome (fun claimed =>
                  if claimed then owning party job.id .connecting else idle party)
                (idle party)) := by
            refine perform_spec (fun now s _ _ => (hharmless now).fair _ s)
              (fun now s claimed hs hok hsafe => ?_) (fun _ _ _ _ _ hsafe => hsafe) fun s hs => hs
            cases claimed with
            | false => exact hsafe
            | true =>
                have htrue : (claim job.id now (store s)).1 = true := Except.ok.inj hok
                refine ⟨hsafe, fun horderly => ⟨?_, fun row hrow _ => ?_⟩⟩
                · unfold owner
                  exact if_pos ⟨rfl, htrue⟩
                · exact (claimed_connecting htrue).unique hrow
          refine triple_bind hclaim fun claimed => ?_
          cases claimed with
          | error e => exact triple_pure fun _ hs => hs
          | ok claimed =>
              cases claimed with
              | false => exact triple_pure fun _ hs => hs
              | true => exact execute_spec

theorem role_spec (role : Role) :
    Triple Any (idle party) (role.process party) fun _ => idle party := by
  have hquiet : ∀ {α : Type} {p : QueueProcess α},
      Triple Any (idle party) p.run (outcome (fun _ => idle party) (idle party)) →
      Triple Any (idle party) (do let _ ← p.run : PlainProcess Unit) fun _ => idle party := by
    intro α p hp
    refine triple_bind hp fun result => triple_pure fun s hs => ?_
    cases result <;> exact hs
  cases role with
  | worker turns =>
      show Triple Any (idle party) (workerLoop party turns) fun _ => idle party
      induction turns with
      | zero => exact triple_pure fun _ hs => hs
      | succ turns ih =>
          unfold workerLoop
          exact triple_bind workerTurn_spec fun _ => ih
  | enqueue draft =>
      refine hquiet (triple_andThen query_spec fun id => ?_)
      have hharmless : ∀ now, Harmless (.create id draft now) :=
        fun now => harmless_of trivial
      exact perform_idle hharmless
  | retry id =>
      have hharmless : ∀ now, Harmless (.retry id now) :=
        fun now => harmless_of trivial
      exact hquiet (perform_idle hharmless)
  | cancel id =>
      have hlook : Triple Any (idle party) (look (require id)).run
          (outcome (fun _ => idle party) (idle party)) :=
        look_spec (fun s _ hs _ => hs) fun s hs => hs
      have hrequest : Triple Any (idle party)
          (perform party (.requestCancel id) fun now jobs => (requestCancel id now jobs).1).run
          (outcome (fun _ => idle party) (idle party)) := by
        have hharmless : ∀ now, Harmless (.requestCancel id now) :=
          fun now => harmless_of trivial
        exact perform_idle hharmless
      refine hquiet ?_
      unfold cancel
      refine triple_andThen hrequest fun action => ?_
      cases action with
      | cancelledQueued => exact hlook
      | awaitExecutionId => exact hlook
      | signalExecution executionId =>
          refine triple_andThen query_spec fun answer => ?_
          cases answer with
          | ok _ => exact hlook
          | error e =>
              refine triple_andThen hlook fun current => ?_
              dsimp only
              split
              · exact triple_throw fun _ hs => hs
              · exact hlook

end Worker

/-! ## §10. Runs of the application. -/

/-- Everything anyone has done in orderly runs was fair. -/
def AllFair (deeds : List Deed) : Prop :=
  ∀ later deed earlier, deeds = later ++ deed :: earlier → Orderly (deed :: earlier) →
    Fair earlier deed

theorem AllFair.cons {deed : Deed} {deeds : List Deed} (h : AllFair deeds)
    (hfair : Orderly (deed :: deeds) → Fair deeds deed) : AllFair (deed :: deeds) := by
  intro later first earlier heq horderly
  cases later with
  | nil =>
      obtain ⟨rfl, rfl⟩ := List.cons.inj heq
      exact hfair horderly
  | cons _ later => exact h later first earlier (List.cons.inj heq).2 horderly

/-- The deeds of a session come from its parties. -/
theorem deeds_of_parties {parties parties' : Nat → PlainProcess Unit} {s s' : List Deed}
    (hdoes : ∀ party, (parties party).Guarantees (Does party))
    (hrun : Relation.ReflTransGen Parallel (parties, s) (parties', s')) :
    ∃ new, s' = new ++ s ∧ ∀ deed ∈ new, ∃ party, deed.by = some party := by
  suffices hall : ∀ c c' : (Nat → PlainProcess Unit) × List Deed,
      Relation.ReflTransGen Parallel c c' → (∀ party, (c.1 party).Guarantees (Does party)) →
      (∀ party, (c'.1 party).Guarantees (Does party))
        ∧ ∃ new, c'.2 = new ++ c.2 ∧ ∀ deed ∈ new, ∃ party, deed.by = some party from
    (hall _ _ hrun hdoes).2
  intro c c' hsteps hg
  induction hsteps with
  | refl => exact ⟨hg, [], rfl, fun _ hmem => absurd hmem List.not_mem_nil⟩
  | tail _ hlast ih =>
      obtain ⟨hg, new, hnew, hby⟩ := ih
      cases hlast with
      | step parties i hone =>
          obtain ⟨hnext, hchange⟩ := (hg i).step hone
          refine ⟨fun party => ?_, ?_⟩
          · by_cases hparty : party = i
            · subst hparty
              dsimp only
              rw [Function.update_self]
              exact hnext
            · dsimp only
              rw [Function.update_of_ne hparty]
              exact hg party
          · dsimp only at hnew ⊢
            rcases hchange with rfl | rfl | ⟨deed, rfl, hdeed⟩
            · exact ⟨new, hnew, hby⟩
            · exact ⟨new, hnew, hby⟩
            · refine ⟨deed :: new, by rw [hnew]; rfl, fun other hother => ?_⟩
              rcases List.mem_cons.mp hother with rfl | hother
              · exact ⟨i, hdeed⟩
              · exact hby other hother

/-- In a session everyone goes on to be fair. -/
theorem session_fair {roles : Nat → Role} {parties : Nat → PlainProcess Unit}
    {deeds deeds' : List Deed} (h : AllFair deeds)
    (hrun : Relation.ReflTransGen Parallel
      (fun party => (roles party).process party, deeds) (parties, deeds')) : AllFair deeds' := by
  have hstart : ∀ party, ((roles party).process party).Holds (Others party) Any (SafeFor party)
      (fun _ s => SafeFor party s) deeds := by
    intro party
    have hspec : ((roles party).process party).Holds _ Any _ _ deeds := role_spec (roles party) deeds
      fun later deed earlier heq _ horderly => h later deed earlier heq horderly
    exact hspec.imp fun _ _ _ hs => hs
  have hdoes : ∀ party, ((roles party).process party).Guarantees (Does party) :=
    fun party => role_does (roles party)
  have hothers : ∀ i j s s', i ≠ j → Does i s s' → SafeFor i s' → Others j s s' :=
    fun _ _ _ _ => others_of_does
  have hkeeps := Parallel.keeps hothers hdoes hstart hrun
  obtain ⟨new, rfl, hby⟩ := deeds_of_parties hdoes hrun
  intro later deed earlier heq horderly
  -- an old deed was fair before the session; a new one has its party to answer for it
  rcases List.append_eq_append_iff.mp heq with ⟨middle, hlater, hdeeds⟩ | ⟨middle, hnew, hrest⟩
  · exact h middle deed earlier hdeeds horderly
  · cases middle with
    | nil =>
        refine h [] deed earlier ?_ horderly
        rw [List.nil_append] at hrest ⊢
        exact hrest.symm
    | cons first middle =>
        obtain ⟨rfl, hearlier⟩ := List.cons.inj hrest
        obtain ⟨party, hparty⟩ := hby deed (by rw [hnew]; simp)
        exact (hkeeps.2 party).here later deed earlier heq hparty horderly

theorem Reached.allFair {deeds : List Deed} (h : Reached deeds) : AllFair deeds := by
  induction h with
  | installed => exact fun later deed earlier heq => absurd (congrArg List.length heq) (by simp)
  | session now roles _ hrun ih =>
      have hrestarted : AllFair (.restarted :: _) := ih.cons fun _ => trivial
      refine session_fair (hrestarted.cons fun _ => ?_) hrun
      have hharmless : Harmless (.recoverInterrupted now) :=
        harmless_of trivial
      exact hharmless.fair none _

/-- **Every change of a job's status is one that the domain allows**, in every run of the
queue in which no job is claimed while the worker of its last attempt has not left it, and
no download compares hashes. -/
theorem transitions_allowed {deeds : List Deed} (h : Reached deeds) (horderly : Orderly deeds) :
    ∀ later earlier party operation, deeds = later ++ .called party operation :: earlier →
      ∀ job ∈ store earlier, job.status.canTransitionTo (operation.row job).status = true := by
  intro later earlier party operation heq job hjob
  have hpart : ∀ rest : List Deed, Orderly (rest ++ .called party operation :: earlier) →
      Orderly (.called party operation :: earlier) := by
    intro rest
    induction rest with
    | nil => exact id
    | cons _ rest ih => exact fun hrest => ih hrest.tail
  exact (h.allFair later _ earlier heq (hpart later (heq ▸ horderly))).1 job hjob

/-! ## §11. Examples of runs. -/

/-- Identifiers that differ in the last digit. -/
def jobId (n : Fin 10) : Uuid where
  text := "00000000-0000-4000-8000-00000000000".toList ++ [Nat.digitChar n]
  hyphenated := Domain.hyphenated_digit n

def sampleDraft (direction : TransferDirection) : NewTransferJob :=
  { serverId := "web-1".toList, direction := direction, sourcePath := "/a".toList,
    targetPath := "/b".toList, overwrite := false, verification := "balanced".toList }

/-- A server that can or cannot compute hashes, and what becomes of the only block. -/
def sampleTransferAnswer (hashes : Bool) (block : AppResult Unit) :
    (question : TransferQuestion) → TransferAnswer question
  | .attempt .moveBlock => block
  | .attempt _ | .connect => .ok ()
  | .hashAvailable => .ok hashes
  | .targetExists => .ok false
  | .drawId => jobId 9
  | .localLength => .ok (3 : Nat)
  | .remoteSize => .ok (some (3 : Nat))
  | .localHash => []
  | .remoteHash => .ok []
  | .blocks => [3]
  | .now => (0 : Int)
  | .rates => ⟨none, none, none⟩

def sampleEnd (hashes : Bool) (block : AppResult Unit) (direction : TransferDirection)
    (path : Text) (overwrite : Bool) (policy : VerificationPolicy) :
    TransferEnd direction path overwrite policy :=
  ⟨Process.run (fun _ => sampleTransferAnswer hashes block) 0
      (transfer direction path overwrite policy).run TransferState.initial,
    run_reaches _ 0 _ _⟩

/-- The answers when this identifier is drawn next. -/
def sampleAnswer (drawn : Fin 10) (hashes : Bool) (block : AppResult Unit) :
    (question : QueueQuestion) → QueueAnswer question
  | .now => (0 : Int)
  | .drawId => jobId drawn
  | .database | .join | .cancelExecution _ => .ok ()
  | .transfer direction path overwrite policy =>
      sampleEnd hashes block direction path overwrite policy

/-- The first session, in which the parties take these turns. -/
def sampleSession (roles : Nat → Role)
    (turns : List (Nat × Nat × ((question : QueueQuestion) → QueueAnswer question))) : List Deed :=
  (takeTurns turns (fun party => (roles party).process party,
    [.called none (.recoverInterrupted 0), .restarted])).2

theorem sampleSession_reached (roles : Nat → Role)
    (turns : List (Nat × Nat × ((question : QueueQuestion) → QueueAnswer question))) :
    Reached (sampleSession roles turns) :=
  .session 0 roles .installed (takeTurns_parallel turns _)

/-- One download, by one worker. -/
def oneDownload (hashes : Bool) : List Deed :=
  sampleSession
    (fun party => if party = 0 then .enqueue (sampleDraft .download) else .worker 1)
    [(0, 10, sampleAnswer 5 hashes (.ok ())), (1, 60, sampleAnswer 5 hashes (.ok ()))]

/-- The two parts of an orderly run, evaluated. -/
def orderlyCheck : List Deed → Bool
  | [] => true
  | deed :: earlier =>
      (match deed with
        | .called _ (.claim id now) =>
            !(claim id now (store earlier)).1 || (owner id earlier).isNone
        | .transferred _ _ direction strategy =>
            direction == .upload || strategy == none || strategy == some .transportAndSize
        | _ => true) && orderlyCheck earlier

theorem orderly_of_check {deeds : List Deed} (h : orderlyCheck deeds = true) : Orderly deeds := by
  induction deeds with
  | nil =>
      refine ⟨fun later earlier party id now heq => ?_, fun _ _ _ _ hmem => ?_⟩
      · exact absurd (congrArg List.length heq) (by simp)
      · exact absurd hmem List.not_mem_nil
  | cons deed earlier ih =>
      unfold orderlyCheck at h
      obtain ⟨hdeed, hrest⟩ := Bool.and_eq_true_iff.mp h
      have horderly := ih hrest
      refine ⟨fun later first party id now heq htrue => ?_,
        fun party id direction strategy hmem => ?_⟩
      · cases later with
        | cons _ later =>
            exact horderly.exclusive later first party id now (List.cons.inj heq).2 htrue
        | nil =>
            obtain ⟨rfl, rfl⟩ := List.cons.inj heq
            dsimp only at hdeed
            rw [htrue, Bool.not_true, Bool.false_or, Option.isNone_iff_eq_none] at hdeed
            exact hdeed
      · rcases List.mem_cons.mp hmem with heq | hmem
        · rw [← heq] at hdeed
          simp only [Bool.or_eq_true, beq_iff_eq, or_assoc] at hdeed
          exact hdeed
        · exact horderly.plain party id direction strategy hmem

/-- A download from a server that cannot compute hashes. -/
theorem oneDownload_allowed :
    (store (oneDownload false)).map TransferJob.status = [.succeeded]
      ∧ ∀ later earlier party operation,
        oneDownload false = later ++ .called party operation :: earlier →
        ∀ job ∈ store earlier, job.status.canTransitionTo (operation.row job).status = true :=
  ⟨by decide,
    transitions_allowed (sampleSession_reached _ _) (orderly_of_check (by decide))⟩

/-- A download from a server that can goes from connecting to verifying, and back to
transferring. -/
theorem oneDownload_verifies_first :
    Reached (oneDownload true)
      ∧ ∃ later earlier party operation,
        oneDownload true = later ++ .called party operation :: earlier
          ∧ ∃ job ∈ store earlier, job.status = .connecting
            ∧ (operation.row job).status = .verifying
            ∧ job.status.canTransitionTo (operation.row job).status = false := by
  refine ⟨sampleSession_reached _ _, (oneDownload true).take 6, (oneDownload true).drop 7,
    some 1, .updateProgress (jobId 5) .verifying
      { transferred := 0, total := some 3, percent := some 0, bytesPerSecond := none,
        averageBytesPerSecond := none, etaSeconds := none } 0, ?_, ?_⟩
  · decide +kernel
  · decide

/-! ## §12. Cancelled and crowded queues. -/

/-- An upload is cancelled while it runs and then loses its connection. -/
def cancelledUpload : List Deed :=
  sampleSession
    (fun party =>
      match party with
      | 0 => .enqueue (sampleDraft .upload)
      | 2 => .cancel (jobId 5)
      | _ => .worker 2)
    [(0, 10, sampleAnswer 5 false (.ok ())),
     (1, 13, sampleAnswer 5 false (.error (.io "connection reset".toList))),
     (2, 10, sampleAnswer 5 false (.ok ())),
     (1, 100, sampleAnswer 5 false (.error (.io "connection reset".toList)))]

/-- The queue starts a cancelled upload again. -/
theorem cancelledUpload_restarted :
    Reached cancelledUpload ∧ ¬ CancelStands (cancelledUpload.filterMap Deed.operation) := by
  refine ⟨sampleSession_reached _ _, fun hstands => ?_⟩
  have hsplit : cancelledUpload.filterMap Deed.operation
      = [] ++ ((cancelledUpload.filterMap Deed.operation).take 10
        ++ .requestCancel (jobId 5) 0 :: (cancelledUpload.filterMap Deed.operation).drop 11) := by
    decide +kernel
  have hnoRetry : ∀ operation ∈ (cancelledUpload.filterMap Deed.operation).take 10,
      ∀ now, operation ≠ .retry (jobId 5) now := by
    have hall : ((cancelledUpload.filterMap Deed.operation).take 10).all
        (fun operation => !(operation matches .retry _ _)) = true := by
      decide
    intro operation hmem now heq
    have hnot := List.all_eq_true.mp hall operation hmem
    rw [heq] at hnot
    cases hnot
  have hclaim := (hstands [] _ _ (jobId 5) 0 hsplit (by decide) ?_).1
    ((cancelledUpload.filterMap Deed.operation).take 5)
    (((cancelledUpload.filterMap Deed.operation).take 10).drop 6) 0 (by decide +kernel)
  · exact absurd hclaim (by decide)
  · rintro ⟨after, before, now, heq, _⟩
    exact hnoRetry (.retry (jobId 5) now) (by rw [heq]; simp) now rfl

/-- Three workers on one server: between the selection and the claim of the second one, a
job is enqueued that comes first, and the third one selects and claims it. -/
def crowdedServer : List Deed :=
  sampleSession
    (fun party =>
      match party with
      | 1 | 2 | 3 => .worker 1
      | _ => .enqueue (sampleDraft .upload))
    [(4, 10, sampleAnswer 1 false (.ok ())), (1, 7, sampleAnswer 1 false (.ok ())),
     (5, 10, sampleAnswer 7 false (.ok ())), (2, 2, sampleAnswer 7 false (.ok ())),
     (6, 10, sampleAnswer 6 false (.ok ())), (3, 7, sampleAnswer 6 false (.ok ())),
     (2, 3, sampleAnswer 6 false (.ok ()))]

theorem crowdedServer_over_limit :
    Reached crowdedServer ∧ activeOn "web-1".toList (store crowdedServer) = 3
      ∧ ¬ LimitKept (crowdedServer.filterMap Deed.operation) := by
  have hcount : activeOn "web-1".toList (store crowdedServer) = 3 := by decide
  refine ⟨sampleSession_reached _ _, hcount, fun hkept => ?_⟩
  have hle : activeOn "web-1".toList (store crowdedServer) ≤ 2 :=
    hkept [] (crowdedServer.filterMap Deed.operation) rfl "web-1".toList
  omega

end QingzhouSSH.Services.TransferQueueService
