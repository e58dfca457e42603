/-
  QingzhouSSH.Core.Sftp.Overwrite — what a transfer leaves at its destination.

  Here a transfer acts on what its destination and its partial file contain.  The server
  and the disk say of every change whether it was made; a change that fails may have taken
  effect all the same, and a write may have stopped in its middle.

  Main results:
    * `fill_spec` — a transfer fills its partial file and leaves the destination alone;
    * `commit_whole_iff` — when a commit that fails leaves a whole file;
    * `overwrite_whole_iff` — the same of a whole transfer, in both directions.
-/
import QingzhouSSH.Core.Sftp.Transfer

namespace QingzhouSSH.Core.Sftp.Overwrite

open QingzhouSSH.Domain
open QingzhouSSH.Lib
open QingzhouSSH.Lib.Process

/-! ## §1. Files. -/

abbrev Bytes := List UInt8

/-- The contents of both files, where they exist. -/
structure FileState where
  destination : Option Bytes
  partialFile : Option Bytes
  deriving Repr, DecidableEq

inductive FileChange where
  | createPartial
  | write (block : Bytes)
  | removeDestination
  | renamePartial
  | removePartial
  deriving Repr, DecidableEq

/-- The files after a change. -/
def FileChange.apply (s : FileState) : FileChange → FileState
  | .createPartial => { s with partialFile := some [] }
  | .write block => { s with partialFile := s.partialFile.map fun content => content ++ block }
  | .removeDestination => { s with destination := none }
  | .renamePartial =>
      match s.partialFile with
      | none => s
      | some content => { destination := some content, partialFile := none }
  | .removePartial => { s with partialFile := none }

/-- What is said of a change: it was made, or it failed with so much of it made. -/
inductive ChangeAnswer where
  | made
  | failed (error : AppError) (extent : Nat)
  deriving DecidableEq

/-- The files after a change that failed: of a write its first bytes were made, of any
other change nothing or all of it. -/
def FileChange.applyPart (s : FileState) (extent : Nat) : FileChange → FileState
  | .write block => (FileChange.write (block.take extent)).apply s
  | change => if extent = 0 then s else change.apply s

def ChangeAnswer.settle (change : FileChange) (s : FileState) :
    ChangeAnswer → AppResult Unit × FileState
  | .made => (.ok (), change.apply s)
  | .failed e extent => (.error e, change.applyPart s extent)

/-- Every change but these two leaves the destination alone. -/
def FileChange.spares : FileChange → Bool
  | .removeDestination | .renamePartial => false
  | _ => true

theorem FileChange.destination_applyPart {change : FileChange} (h : change.spares = true)
    (s : FileState) (extent : Nat) : (change.applyPart s extent).destination = s.destination := by
  cases change with
  | write block => rfl
  | createPartial | removePartial =>
      simp only [FileChange.applyPart]
      split_ifs
      · rfl
      · rfl
  | removeDestination | renamePartial => cases h

/-! ## §2. Procedures. -/

/-- What a transfer does outside that changes neither file; a cancellation is an error of
the action it interrupts. -/
inductive FileAction where
  | validateRequest
  | readLocalSize
  | createDirectory
  | openSftp
  | openSource
  | readSource
  | flushPartial
  | closePartial
  | report
  | relativeLocation
  deriving Repr, DecidableEq

inductive FileQuestion where
  | attempt (action : FileAction)
  | change (change : FileChange)
  | hashAvailable
  | remoteSize
  | remoteHash
  | remoteExists
  | localExists
  | partialExists

def FileAnswer : FileQuestion → Type
  | .attempt _ => AppResult Unit
  | .change _ => ChangeAnswer
  | .hashAvailable | .remoteExists => AppResult Bool
  | .remoteSize => AppResult (Option Nat)
  | .remoteHash => AppResult Text
  | .localExists | .partialExists => Bool

abbrev PlainFiles (α : Type) := Process FileState FileAnswer α

abbrev FileProcess (α : Type) := ExceptT AppError PlainFiles α

def attempt (action : FileAction) : FileProcess Unit := Process.query (FileQuestion.attempt action)

def change (c : FileChange) : FileProcess Unit := do
  let answer ← ExceptT.lift (Process.query (FileQuestion.change c))
  Process.atomic fun s => answer.settle c s

def hashAvailable : FileProcess Bool := Process.query FileQuestion.hashAvailable

def remoteSize : FileProcess (Option Nat) := Process.query FileQuestion.remoteSize

def remoteHash : FileProcess Text := Process.query FileQuestion.remoteHash

/-- Is there a destination?  A local file that cannot be looked up counts as missing. -/
def lookUp : TransferDirection → FileProcess Bool
  | .upload => Process.query FileQuestion.remoteExists
  | .download => ExceptT.lift (Process.query FileQuestion.localExists)

def partialExists : PlainFiles Bool := Process.query FileQuestion.partialExists

/-- The hash of the remote file, if it is compared. -/
def remoteHashFor : VerificationStrategy → FileProcess (Option Text)
  | .transportAndSize => pure none
  | .remoteHash | .sftpReread => do
      let hash ← remoteHash
      pure (some hash)

def ofResult {α : Type} (result : AppResult α) : FileProcess α := ExceptT.mk (pure result)

/-- The loop over the blocks that the source gives. -/
def writeBlocks : List Bytes → FileProcess Unit
  | [] => pure ()
  | block :: rest => do
      attempt .readSource
      change (.write block)
      attempt .report
      writeBlocks rest

/-- What is known of the source before it is moved. -/
structure TransferPlan where
  strategy : VerificationStrategy
  /-- of a download, the size of the source -/
  total : Option Nat
  /-- of a download, the hash of the source -/
  expectedHash : Option Text

/-- A partial file of an earlier download is removed. -/
def removeStale : FileProcess Unit := do
  let found ← ExceptT.lift partialExists
  if found then change .removePartial

/-- A hash that is compared is reported as a phase of its own. -/
def reportVerifying (strategy : VerificationStrategy) : FileProcess Unit :=
  if strategy ≠ .transportAndSize then attempt .report else pure ()

/-- A source of unknown size is read to its end. -/
def readEnd (total : Option Nat) : FileProcess Unit :=
  if total.isNone then attempt .readSource else pure ()

/-- `upload`, up to the partial file. -/
def prepareUpload (overwrite : Bool) (policy : VerificationPolicy) : FileProcess TransferPlan := do
  attempt .validateRequest
  let available ← hashAvailable
  attempt .readLocalSize
  attempt .openSftp
  let found ← lookUp .upload
  if found && !overwrite then throw (.validation "远程目标文件已存在".toList)
  pure
    { strategy := selectVerification policy available
      total := none
      expectedHash := none }

/-- `download`, up to the partial file. -/
def prepareDownload (overwrite : Bool) (policy : VerificationPolicy) :
    FileProcess TransferPlan := do
  attempt .validateRequest
  let found ← lookUp .download
  if found && !overwrite then throw (.validation "本地下载目标已存在".toList)
  attempt .createDirectory
  removeStale
  attempt .openSftp
  let available ← hashAvailable
  let strategy := selectVerification policy available
  let total ← remoteSize
  reportVerifying strategy
  let expectedHash ← remoteHashFor strategy
  attempt .report
  pure
    { strategy := strategy
      total := total
      expectedHash := expectedHash }

/-- `upload_to_partial`, up to its last step. -/
def fillUpload (digest : Bytes → Text) (blocks : List Bytes) (plan : TransferPlan) :
    FileProcess Unit := do
  attempt .openSource
  change .createPartial
  attempt .report
  writeBlocks blocks
  attempt .readSource
  attempt .flushPartial
  attempt .closePartial
  attempt .report
  let size ← remoteSize
  ofResult (compareSize .upload plan.strategy size blocks.flatten.length)
  let hash ← remoteHashFor plan.strategy
  ofResult (compareHash .upload hash (digest blocks.flatten))
  attempt .report

/-- `download_to_partial`, up to its last step. -/
def fillDownload (digest : Bytes → Text) (blocks : List Bytes) (plan : TransferPlan) :
    FileProcess Unit := do
  change .createPartial
  attempt .openSource
  writeBlocks blocks
  readEnd plan.total
  attempt .flushPartial
  attempt .closePartial
  attempt .report
  ofResult (compareSize .download plan.strategy plan.total blocks.flatten.length)
  ofResult (compareHash .download plan.expectedHash (digest blocks.flatten))
  attempt .report

/-- A destination that may be overwritten is removed. -/
def removeExisting (direction : TransferDirection) (overwrite : Bool) : FileProcess Unit :=
  if overwrite then do
    let found ← lookUp direction
    if found then change .removeDestination
  else pure ()

/-- Replace the destination by the partial file, the last step of both. -/
def putInPlace (direction : TransferDirection) (overwrite : Bool) : FileProcess Unit := do
  removeExisting direction overwrite
  change .renamePartial

/-- The last step; a download then makes its location relative. -/
def commit (overwrite : Bool) : TransferDirection → FileProcess Unit
  | .upload => putInPlace .upload overwrite
  | .download => do
      putInPlace .download overwrite
      attempt .relativeLocation

/-- The partial file of a transfer that has failed is removed, if that is possible. -/
def removeLeftover : TransferDirection → PlainFiles Unit
  | .upload => do
      let _ ← (change .removePartial).run
      pure ()
  | .download => do
      let found ← partialExists
      if found then
        let _ ← (change .removePartial).run
        pure ()
      else pure ()

def cleaning (direction : TransferDirection) (p : FileProcess Unit) : FileProcess Unit :=
  ExceptT.mk do
    let result ← p.run
    match result with
    | .ok () => pure (.ok ())
    | .error e => do
        removeLeftover direction
        pure (.error e)

section Transfers

variable (digest : Bytes → Text) (blocks : List Bytes) (overwrite : Bool)
  (policy : VerificationPolicy)

def prepare : TransferDirection → FileProcess TransferPlan
  | .upload => prepareUpload overwrite policy
  | .download => prepareDownload overwrite policy

def fill (plan : TransferPlan) : TransferDirection → FileProcess Unit
  | .upload => fillUpload digest blocks plan
  | .download => fillDownload digest blocks plan

/-- `upload` or `download`. -/
def transfer (direction : TransferDirection) : FileProcess Unit := do
  let plan ← prepare overwrite policy direction
  cleaning direction do
    fill digest blocks plan direction
    commit overwrite direction

/-- A transfer up to its last step. -/
def beforeCommit (direction : TransferDirection) : FileProcess Unit := do
  let plan ← prepare overwrite policy direction
  fill digest blocks plan direction

end Transfers

/-! ## §3. The partial file is filled. -/

/-- The destination is as it was. -/
def kept (destination : Option Bytes) : Assertion Undisturbed (fun _ : FileState => True) :=
  .undisturbed (fun s => s.destination = destination) fun _ _ => trivial

/-- And this is what the partial file contains. -/
def filled (destination : Option Bytes) (content : Bytes) :
    Assertion Undisturbed (fun _ : FileState => True) :=
  .undisturbed (fun s => s.destination = destination ∧ s.partialFile = some content)
    fun _ _ => trivial

/-- Any answer may be given. -/
def Anyhow (question : FileQuestion) (_ : FileAnswer question) : Prop := True

section Specs

variable {destination : Option Bytes} {P : Assertion Undisturbed (fun _ : FileState => True)}

/-- What changes no file. -/
theorem silent_spec {α : Type} {p : FileProcess α} (hsilent : Guarantees (fun _ _ => False) p.run)
    (hkept : ∀ s, P.holds s → s.destination = destination) :
    Triple Anyhow P p.run (outcome (fun _ => P) (kept destination)) :=
  triple_of_silent hsilent (fun _ _ h => h.elim) hkept

theorem attempt_spec (action : FileAction) (hkept : ∀ s, P.holds s → s.destination = destination) :
    Triple Anyhow P (attempt action).run (outcome (fun _ => P) (kept destination)) :=
  silent_spec (fun _ => trivial) hkept

/-- An action that is taken under a condition. -/
theorem when_spec (action : FileAction) {condition : Prop} [Decidable condition]
    (hkept : ∀ s, P.holds s → s.destination = destination) :
    Triple Anyhow P (if condition then attempt action else pure ()).run
      (outcome (fun _ => P) (kept destination)) := by
  split
  · exact attempt_spec action hkept
  · exact triple_ok fun _ hs => hs

theorem ofResult_spec (result : AppResult Unit)
    (hkept : ∀ s, P.holds s → s.destination = destination) :
    Triple Anyhow P (ofResult result).run (outcome (fun _ => P) (kept destination)) :=
  silent_spec trivial hkept

theorem remoteHashFor_spec (strategy : VerificationStrategy)
    (hkept : ∀ s, P.holds s → s.destination = destination) :
    Triple Anyhow P (remoteHashFor strategy).run (outcome (fun _ => P) (kept destination)) := by
  refine silent_spec ?_ hkept
  cases strategy with
  | transportAndSize => trivial
  | remoteHash | sftpReread => exact guarantees_andThen (fun _ => trivial) fun _ => trivial

/-- What a change brings about if it is made, and if it fails. -/
theorem changed_spec {c : FileChange} {Q E : Assertion Undisturbed (fun _ : FileState => True)}
    (hmade : ∀ s, P.holds s → Q.holds (c.apply s))
    (hfailed : ∀ s extent, P.holds s → E.holds (c.applyPart s extent)) :
    Triple Anyhow P (change c).run (outcome (fun _ => Q) E) := by
  have hasked : Triple Anyhow P (ExceptT.lift (Process.query (FileQuestion.change c))
      : FileProcess (ChangeAnswer)).run (outcome (fun _ => P) E) :=
    triple_lift (triple_query fun _ _ _ hs => hs)
  refine triple_andThen hasked fun answer => triple_atomic fun s hs => ?_
  cases answer with
  | made => exact hmade s hs
  | failed e extent => exact hfailed s extent hs

/-- A change that leaves the destination alone. -/
theorem change_spec {c : FileChange} {Q : Assertion Undisturbed (fun _ : FileState => True)}
    (hspares : c.spares = true) (hkept : ∀ s, P.holds s → s.destination = destination)
    (hmade : ∀ s, P.holds s → Q.holds (c.apply s)) :
    Triple Anyhow P (change c).run (outcome (fun _ => Q) (kept destination)) :=
  changed_spec hmade fun s extent hs =>
    (FileChange.destination_applyPart hspares s extent).trans (hkept s hs)

theorem removeStale_spec :
    Triple Anyhow (kept destination) removeStale.run
      (outcome (fun _ => kept destination) (kept destination)) := by
  have hasked : Triple Anyhow (kept destination) (ExceptT.lift partialExists : FileProcess Bool).run
      (outcome (fun _ => kept destination) (kept destination)) :=
    triple_lift (triple_query fun _ _ _ hs => hs)
  refine triple_andThen hasked fun found => ?_
  cases found with
  | false => exact triple_ok fun _ hs => hs
  | true => exact change_spec rfl (fun _ hs => hs) fun _ hs => hs

theorem writeBlocks_spec (blocks : List Bytes) (content : Bytes) :
    Triple Anyhow (filled destination content) (writeBlocks blocks).run
      (outcome (fun _ => filled destination (content ++ blocks.flatten)) (kept destination)) := by
  induction blocks generalizing content with
  | nil =>
      refine triple_ok fun s hs => ?_
      rw [List.flatten_nil, List.append_nil]
      exact hs
  | cons block rest ih =>
      have hwrite : Triple Anyhow (filled destination content) (change (.write block)).run
          (outcome (fun _ => filled destination (content ++ block)) (kept destination)) := by
        refine change_spec rfl (fun s hs => hs.1) fun s hs => ⟨hs.1, ?_⟩
        show s.partialFile.map (fun content => content ++ block) = _
        rw [hs.2]
        rfl
      rw [List.flatten_cons, ← List.append_assoc]
      refine triple_andThen (attempt_spec .readSource fun s hs => hs.1) fun _ => ?_
      refine triple_andThen hwrite fun _ => ?_
      exact triple_andThen (attempt_spec .report fun s hs => hs.1) fun _ => ih (content ++ block)

/-- Before its partial file, a transfer does not touch the destination. -/
theorem prepare_spec (overwrite : Bool) (policy : VerificationPolicy)
    (direction : TransferDirection) :
    Triple Anyhow (kept destination) (prepare overwrite policy direction).run
      (outcome (fun _ => kept destination) (kept destination)) := by
  have hkept : ∀ s, (kept destination).holds s → s.destination = destination := fun _ hs => hs
  cases direction with
  | upload =>
      refine triple_andThen (attempt_spec .validateRequest hkept) fun _ => ?_
      refine triple_andThen (silent_spec (fun _ => trivial) hkept) fun available => ?_
      refine triple_andThen (attempt_spec .readLocalSize hkept) fun _ => ?_
      refine triple_andThen (attempt_spec .openSftp hkept) fun _ => ?_
      refine triple_andThen (silent_spec (fun _ => trivial) hkept) fun found => ?_
      split
      · exact triple_throw hkept
      · exact triple_ok hkept
  | download =>
      refine triple_andThen (attempt_spec .validateRequest hkept) fun _ => ?_
      refine triple_andThen (silent_spec (fun _ => trivial) hkept) fun found => ?_
      split
      · exact triple_throw hkept
      refine triple_andThen (attempt_spec .createDirectory hkept) fun _ => ?_
      refine triple_andThen removeStale_spec fun _ => ?_
      refine triple_andThen (attempt_spec .openSftp hkept) fun _ => ?_
      refine triple_andThen (silent_spec (fun _ => trivial) hkept) fun available => ?_
      refine triple_andThen (silent_spec (fun _ => trivial) hkept) fun total => ?_
      refine triple_andThen (when_spec .report hkept) fun _ => ?_
      refine triple_andThen (remoteHashFor_spec _ hkept) fun expectedHash => ?_
      exact triple_andThen (attempt_spec .report hkept) fun _ => triple_ok hkept

/-- **A transfer that fills its partial file leaves the destination alone.** -/
theorem fill_spec (digest : Bytes → Text) (blocks : List Bytes) (plan : TransferPlan)
    (direction : TransferDirection) :
    Triple Anyhow (kept destination) (fill digest blocks plan direction).run
      (outcome (fun _ => filled destination blocks.flatten) (kept destination)) := by
  have hkept : ∀ s, (kept destination).holds s → s.destination = destination := fun _ hs => hs
  have hfilled : ∀ s, (filled destination blocks.flatten).holds s → s.destination = destination :=
    fun _ hs => hs.1
  have hcreate : Triple Anyhow (kept destination) (change .createPartial).run
      (outcome (fun _ => filled destination []) (kept destination)) :=
    change_spec rfl hkept fun s hs => ⟨hs, rfl⟩
  have hwrite : Triple Anyhow (filled destination []) (writeBlocks blocks).run
      (outcome (fun _ => filled destination blocks.flatten) (kept destination)) :=
    writeBlocks_spec blocks []
  cases direction with
  | upload =>
      refine triple_andThen (attempt_spec .openSource hkept) fun _ => ?_
      refine triple_andThen hcreate fun _ => ?_
      refine triple_andThen (attempt_spec .report fun s hs => hs.1) fun _ => ?_
      refine triple_andThen hwrite fun _ => ?_
      refine triple_andThen (attempt_spec .readSource hfilled) fun _ => ?_
      refine triple_andThen (attempt_spec .flushPartial hfilled) fun _ => ?_
      refine triple_andThen (attempt_spec .closePartial hfilled) fun _ => ?_
      refine triple_andThen (attempt_spec .report hfilled) fun _ => ?_
      refine triple_andThen (silent_spec (fun _ => trivial) hfilled) fun size => ?_
      refine triple_andThen (ofResult_spec _ hfilled) fun _ => ?_
      refine triple_andThen (remoteHashFor_spec plan.strategy hfilled) fun hash => ?_
      refine triple_andThen (ofResult_spec _ hfilled) fun _ => ?_
      exact attempt_spec .report hfilled
  | download =>
      refine triple_andThen hcreate fun _ => ?_
      refine triple_andThen (attempt_spec .openSource fun s hs => hs.1) fun _ => ?_
      refine triple_andThen hwrite fun _ => ?_
      refine triple_andThen (when_spec .readSource hfilled) fun _ => ?_
      refine triple_andThen (attempt_spec .flushPartial hfilled) fun _ => ?_
      refine triple_andThen (attempt_spec .closePartial hfilled) fun _ => ?_
      refine triple_andThen (attempt_spec .report hfilled) fun _ => ?_
      refine triple_andThen (ofResult_spec _ hfilled) fun _ => ?_
      refine triple_andThen (ofResult_spec _ hfilled) fun _ => ?_
      exact attempt_spec .report hfilled

end Specs

/-! ## §4. The commit. -/

section Commit

variable {answer : Nat → (question : FileQuestion) → FileAnswer question} {n : Nat}
  {original content : Bytes} {s : FileState}

/-- What is said of the destination, if the question is whether there is one. -/
def foundAt (answer : Nat → (question : FileQuestion) → FileAnswer question) (n : Nat) :
    TransferDirection → AppResult Bool
  | .upload => answer n .remoteExists
  | .download => .ok (answer n .localExists)

/-- What is said of a change. -/
def changeAt (answer : Nat → (question : FileQuestion) → FileAnswer question) (n : Nat)
    (c : FileChange) : ChangeAnswer :=
  answer n (.change c)

theorem runOn_lookUp (direction : TransferDirection) :
    runOn answer n (lookUp direction).run s = (n + 1, foundAt answer n direction, s) := by
  cases direction with
  | upload => rfl
  | download => rfl

theorem runOn_change (c : FileChange) :
    runOn answer n (change c).run s
      = (n + 1, ((changeAt answer n c).settle c s).1, ((changeAt answer n c).settle c s).2) :=
  rfl

/-- The destination holds all that it held, or all of the new content. -/
def Whole (original content : Bytes) (s : FileState) : Prop :=
  s.destination = some original ∨ s.destination = some content

/-- So it does where a transfer fails. -/
def WholeOnError (original content : Bytes) (r : AppResult Unit × FileState) : Prop :=
  ∀ e, r.1 = .error e → Whole original content r.2

/-- From this question on, a destination is found, and it vanishes with an error: its
removal fails and has taken effect, or is followed by a renaming that fails without
effect. -/
def LosesAt (answer : Nat → (question : FileQuestion) → FileAnswer question) (n : Nat)
    (direction : TransferDirection) : Prop :=
  foundAt answer n direction = .ok true
    ∧ ((∃ e extent, changeAt answer (n + 1) .removeDestination = .failed e extent ∧ extent ≠ 0)
      ∨ (changeAt answer (n + 1) .removeDestination = .made
        ∧ ∃ e, changeAt answer (n + 2) .renamePartial = .failed e 0))

/-- A renaming that is made, or fails with its effect, leaves the new content. -/
theorem destination_renamed (hcontent : s.partialFile = some content) :
    (FileChange.renamePartial.apply s).destination = some content := by
  unfold FileChange.apply
  rw [hcontent]

/-- A renaming that fails leaves a whole file, unless it has no effect and there is none. -/
theorem renamed_whole_iff (hcontent : s.partialFile = some content) (said : ChangeAnswer) :
    WholeOnError original content (said.settle .renamePartial s)
      ↔ ¬ ((∃ e, said = .failed e 0) ∧ ¬ Whole original content s) := by
  cases said with
  | made =>
      constructor
      · rintro - ⟨⟨e, hsaid⟩, -⟩
        cases hsaid
      · intro _ e herror
        cases herror
  | failed e extent =>
      by_cases hextent : extent = 0
      · subst hextent
        constructor
        · rintro hwhole ⟨-, hnot⟩
          exact hnot (hwhole e rfl)
        · intro h e' _
          exact not_not.mp fun hnot => h ⟨⟨e, rfl⟩, hnot⟩
      · constructor
        · rintro - ⟨⟨e', hsaid⟩, -⟩
          cases hsaid
          exact hextent rfl
        · intro _ e' _
          right
          show (FileChange.applyPart s extent .renamePartial).destination = some content
          simp only [FileChange.applyPart, if_neg hextent]
          exact destination_renamed hcontent

/-- **When a commit that fails leaves a whole file.** -/
theorem putInPlace_whole_iff (direction : TransferDirection)
    (horiginal : s.destination = some original) (hcontent : s.partialFile = some content) :
    WholeOnError original content (runOn answer n (putInPlace direction true).run s).2
      ↔ ¬ LosesAt answer n direction := by
  have hwhole : Whole original content s := .inl horiginal
  have hlookUp : runOn answer n (lookUp direction).run s
      = (n + 1, foundAt answer n direction, s) := runOn_lookUp direction
  cases hfound : foundAt answer n direction with
  | error e =>
      -- the look-up itself fails
      rw [hfound] at hlookUp
      have hrun : runOn answer n (putInPlace direction true).run s = (n + 1, .error e, s) :=
        runOn_error (runOn_error hlookUp)
      rw [hrun]
      constructor
      · rintro - ⟨hthere, -⟩
        rw [hfound] at hthere
        cases hthere
      · intro _ e' _
        exact hwhole
  | ok found =>
      rw [hfound] at hlookUp
      cases found with
      | false =>
          -- nothing is removed
          have hrun : runOn answer n (putInPlace direction true).run s
              = runOn answer (n + 1) (change .renamePartial).run s :=
            runOn_then (runOn_then hlookUp)
          rw [hrun, runOn_change, renamed_whole_iff hcontent]
          constructor
          · rintro - ⟨hthere, -⟩
            rw [hfound] at hthere
            cases hthere
          · rintro - ⟨-, hnot⟩
            exact hnot hwhole
      | true =>
          have hremove : runOn answer n (removeExisting direction true).run s
              = (n + 2, ((changeAt answer (n + 1) .removeDestination).settle .removeDestination s).1,
                  ((changeAt answer (n + 1) .removeDestination).settle .removeDestination s).2) :=
            runOn_then hlookUp
          cases hsaid : changeAt answer (n + 1) .removeDestination with
          | made =>
              rw [hsaid] at hremove
              have hrun : runOn answer n (putInPlace direction true).run s
                  = runOn answer (n + 2) (change .renamePartial).run { s with destination := none } :=
                runOn_then hremove
              have hgone : ¬ Whole original content { s with destination := none } := by
                rintro (h | h)
                · cases h
                · cases h
              rw [hrun, runOn_change, renamed_whole_iff (s := { s with destination := none }) hcontent]
              unfold LosesAt
              simp [hfound, hsaid, hgone]
          | failed e extent =>
              rw [hsaid] at hremove
              have hrun : runOn answer n (putInPlace direction true).run s
                  = (n + 2, .error e, FileChange.removeDestination.applyPart s extent) :=
                runOn_error hremove
              rw [hrun]
              by_cases hextent : extent = 0
              · subst hextent
                unfold LosesAt
                simp only [hsaid, ChangeAnswer.failed.injEq, reduceCtorEq, false_and, or_false]
                constructor
                · rintro - ⟨-, e', extent', ⟨-, hzero⟩, hsome⟩
                  exact hsome hzero.symm
                · intro _ e' _
                  exact hwhole
              · have hgone : ¬ Whole original content
                    (FileChange.removeDestination.applyPart s extent) := by
                  simp only [FileChange.applyPart, if_neg hextent]
                  rintro (h | h)
                  · cases h
                  · cases h
                constructor
                · intro h
                  exact absurd (h e rfl) hgone
                · intro h
                  exact absurd ⟨hfound, .inl ⟨e, extent, hsaid, hextent⟩⟩ h

/-- What the partial file contains. -/
def holding (content : Bytes) : Assertion Undisturbed (fun _ : FileState => True) :=
  .undisturbed (fun s => s.partialFile = some content) fun _ _ => trivial

/-- What the destination contains. -/
def placed (content : Bytes) : Assertion Undisturbed (fun _ : FileState => True) :=
  .undisturbed (fun s => s.destination = some content) fun _ _ => trivial

/-- Nothing is known. -/
def anything : Assertion Undisturbed (fun _ : FileState => True) :=
  .undisturbed (fun _ => True) fun _ _ => trivial

theorem removeExisting_spec (direction : TransferDirection) :
    Triple Anyhow (holding content) (removeExisting direction true).run
      (outcome (fun _ => holding content) anything) := by
  have hlookUp : Triple Anyhow (holding content) (lookUp direction).run
      (outcome (fun _ => holding content) anything) := by
    refine triple_of_silent (G := fun _ _ => False) ?_ (fun _ _ h => h.elim) fun _ _ => trivial
    cases direction with
    | upload => exact fun _ => trivial
    | download => exact guarantees_lift fun _ => trivial
  refine triple_andThen hlookUp fun found => ?_
  cases found with
  | false => exact triple_ok fun _ hs => hs
  | true => exact changed_spec (fun _ hs => hs) fun _ _ _ => trivial

theorem putInPlace_spec (direction : TransferDirection) :
    Triple Anyhow (holding content) (putInPlace direction true).run
      (outcome (fun _ => placed content) anything) :=
  triple_andThen (removeExisting_spec direction) fun _ =>
    changed_spec (fun _ hs => destination_renamed hs) fun _ _ _ => trivial

/-- **The same of the last step of either direction.** -/
theorem commit_whole_iff (direction : TransferDirection)
    (horiginal : s.destination = some original) (hcontent : s.partialFile = some content) :
    WholeOnError original content (runOn answer n (commit true direction).run s).2
      ↔ ¬ LosesAt answer n direction := by
  cases direction with
  | upload => exact putInPlace_whole_iff .upload horiginal hcontent
  | download =>
      rw [← putInPlace_whole_iff .download horiginal hcontent]
      have hplaced := (putInPlace_spec .download).runOn answer (fun _ _ => trivial) n
        hcontent
      rcases hrun : runOn answer n (putInPlace .download true).run s with ⟨n', r, s'⟩
      rw [hrun] at hplaced
      cases r with
      | error e =>
          have hcommit : runOn answer n (commit true .download).run s = (n', .error e, s') :=
            runOn_error hrun
          rw [hcommit]
      | ok _ =>
          -- the new file is in place whatever happens to its location
          have hcommit : runOn answer n (commit true .download).run s
              = (n' + 1, answer n' (.attempt .relativeLocation), s') := runOn_then hrun
          rw [hcommit]
          constructor
          · rintro - e herror
            cases herror
          · intro _ e _
            exact .inr hplaced

end Commit

/-! ## §5. The whole transfer. -/

section Runs

variable {answer : Nat → (question : FileQuestion) → FileAnswer question} {n : Nat}
  {original content : Bytes} {s : FileState}

/-- The clean-up does not touch the destination. -/
theorem removeLeftover_destination (direction : TransferDirection) :
    (runOn answer n (removeLeftover direction) s).2.2.destination = s.destination := by
  have hchange : ∀ n, (runOn answer n (change .removePartial).run s).2.2.destination
      = s.destination := by
    intro n
    rw [runOn_change]
    cases changeAt answer n .removePartial with
    | made => rfl
    | failed e extent => exact FileChange.destination_applyPart rfl s extent
  cases direction with
  | upload => exact hchange n
  | download =>
      have hfound : ∀ found : Bool, (runOn answer (n + 1)
          (if found then (do let _ ← (change .removePartial).run; pure ()) else pure ()) s).2.2.destination
            = s.destination := by
        intro found
        cases found with
        | false => rfl
        | true => exact hchange (n + 1)
      exact hfound (answer n .partialExists)

/-- A clean-up changes neither the result nor the destination. -/
theorem runOn_cleaning (direction : TransferDirection) (p : FileProcess Unit) :
    ∃ n' s', runOn answer n (cleaning direction p).run s = (n', (runOn answer n p.run s).2.1, s')
      ∧ s'.destination = (runOn answer n p.run s).2.2.destination := by
  rcases hrun : runOn answer n p.run s with ⟨m, r, t⟩
  have hcleaning : runOn answer n (cleaning direction p).run s
      = runOn answer m (match r with
          | .ok () => pure (.ok ())
          | .error e => do
              removeLeftover direction
              pure (.error e)) t := by
    show runOn answer n (p.run.bind _) s = _
    rw [runOn_bind, hrun]
  cases r with
  | ok _ => exact ⟨m, t, hcleaning, rfl⟩
  | error e =>
      refine ⟨(runOn answer m (removeLeftover direction) t).1,
        (runOn answer m (removeLeftover direction) t).2.2, hcleaning.trans ?_,
        removeLeftover_destination direction⟩
      show runOn answer m ((removeLeftover direction).bind fun _ => done (Except.error e)) t = _
      rw [runOn_bind]
      rfl

/-- Whether a file is whole depends on the result and on the destination. -/
theorem wholeOnError_congr {p q : AppResult Unit × FileState} (hresult : p.1 = q.1)
    (hdestination : p.2.destination = q.2.destination) :
    WholeOnError original content p ↔ WholeOnError original content q := by
  unfold WholeOnError Whole
  rw [hresult, hdestination]

theorem cleaning_whole_iff (direction : TransferDirection) (p : FileProcess Unit) :
    WholeOnError original content (runOn answer n (cleaning direction p).run s).2
      ↔ WholeOnError original content (runOn answer n p.run s).2 := by
  obtain ⟨n', s', hrun, hsame⟩ := @runOn_cleaning answer n s direction p
  rw [hrun]
  exact wholeOnError_congr rfl hsame

section Transfers

variable {digest : Bytes → Text} {blocks : List Bytes} {policy : VerificationPolicy}
  {direction : TransferDirection}

/-- The run comes to its last step, which loses the destination. -/
def LosesDestination (answer : Nat → (question : FileQuestion) → FileAnswer question)
    (digest : Bytes → Text) (blocks : List Bytes) (policy : VerificationPolicy)
    (direction : TransferDirection) (s : FileState) : Prop :=
  ∃ n s', runOn answer 0 (beforeCommit digest blocks true policy direction).run s = (n, .ok (), s')
    ∧ LosesAt answer n direction

/-- **When an overwriting transfer that fails leaves a whole file.** -/
theorem overwrite_whole_iff (horiginal : s.destination = some original) :
    WholeOnError original blocks.flatten
        (Process.run answer 0 (transfer digest blocks true policy direction).run s)
      ↔ ¬ LosesDestination answer digest blocks policy direction s := by
  rw [run_eq_runOn]
  unfold LosesDestination
  have hprepared := (prepare_spec true policy direction).runOn answer
    (fun _ _ => trivial) 0 horiginal
  rcases hprepare : runOn answer 0 (prepare true policy direction).run s with ⟨n, r, t⟩
  rw [hprepare] at hprepared
  cases r with
  | error e =>
      have htransfer : runOn answer 0 (transfer digest blocks true policy direction).run s
          = (n, .error e, t) := runOn_error hprepare
      have hbefore : runOn answer 0 (beforeCommit digest blocks true policy direction).run s
          = (n, .error e, t) := runOn_error hprepare
      rw [htransfer, hbefore]
      constructor
      · rintro - ⟨n', s', hrun, -⟩
        cases hrun
      · intro _ e' _
        exact .inl hprepared
  | ok plan =>
      have htransfer : runOn answer 0 (transfer digest blocks true policy direction).run s
          = runOn answer n (cleaning direction do
              fill digest blocks plan direction
              commit true direction).run t := runOn_then hprepare
      have hbefore : runOn answer 0 (beforeCommit digest blocks true policy direction).run s
          = runOn answer n (fill digest blocks plan direction).run t := runOn_then hprepare
      have hfilled := (fill_spec digest blocks plan direction).runOn answer
        (fun _ _ => trivial) n hprepared
      rw [htransfer, hbefore, cleaning_whole_iff]
      rcases hfill : runOn answer n (fill digest blocks plan direction).run t with ⟨m, r, t'⟩
      rw [hfill] at hfilled
      cases r with
      | error e =>
          rw [runOn_error hfill]
          constructor
          · rintro - ⟨n', s', hrun, -⟩
            cases hrun
          · intro _ e' _
            exact .inl hfilled
      | ok _ =>
          rw [runOn_then hfill, commit_whole_iff direction hfilled.1 hfilled.2]
          constructor
          · rintro h ⟨n', s', hrun, hloses⟩
            cases hrun
            exact h hloses
          · intro h hloses
            exact h ⟨m, t', rfl, hloses⟩

end Transfers

end Runs

/-! ## §6. Two hosts. -/

/-- A host on which there is a destination, all goes well, and every hash and size are as
they should be for one block of one byte. -/
def obligingHost : Nat → (question : FileQuestion) → FileAnswer question
  | _, .attempt _ => .ok ()
  | _, .change _ => ChangeAnswer.made
  | _, .hashAvailable => .ok false
  | _, .remoteSize => .ok (some 1)
  | _, .remoteHash => .ok []
  | _, .remoteExists => .ok true
  | _, .localExists => true
  | _, .partialExists => true

/-- The same host, but no file can be renamed. -/
def noRenaming : Nat → (question : FileQuestion) → FileAnswer question
  | _, .change .renamePartial => ChangeAnswer.failed (.transfer []) 0
  | n, question => obligingHost n question

/-- A destination of two bytes. -/
def twoBytes : FileState := { destination := some [1, 2], partialFile := none }

/-- A file can be overwritten. -/
theorem overwrite_whole_obliging :
    WholeOnError [1, 2] [3] (Process.run obligingHost 0
        (transfer (fun _ => []) [[3]] true .balanced .upload).run twoBytes) :=
  (overwrite_whole_iff rfl).mpr fun ⟨n, s', hrun, hloses⟩ => by
    obtain ⟨-, hremoved | ⟨-, e, hrenamed⟩⟩ := hloses
    · obtain ⟨e, extent, hsaid, -⟩ := hremoved
      cases hsaid
    · cases hrenamed

/-- The end of a transfer there. -/
def unrenamed (direction : TransferDirection) : AppResult Unit × FileState :=
  Process.run noRenaming 0 (transfer (fun _ => []) [[3]] true .balanced direction).run twoBytes

/-- The old file is removed before the new one is renamed: where that fails, neither is
left. -/
theorem failed_rename_loses_both :
    unrenamed .upload = (.error (.transfer []), { destination := none, partialFile := none })
      ∧ unrenamed .download = (.error (.transfer []), { destination := none, partialFile := none })
      ∧ ¬ WholeOnError [1, 2] [3] (unrenamed .upload)
      ∧ ¬ WholeOnError [1, 2] [3] (unrenamed .download) := by
  have hupload : unrenamed .upload
      = (.error (.transfer []), { destination := none, partialFile := none }) := by decide
  have hdownload : unrenamed .download
      = (.error (.transfer []), { destination := none, partialFile := none }) := by decide
  refine ⟨hupload, hdownload, fun h => ?_, fun h => ?_⟩
  · rw [hupload] at h
    obtain h | h := h _ rfl
    · cases h
    · cases h
  · rw [hdownload] at h
    obtain h | h := h _ rfl
    · cases h
    · cases h

end QingzhouSSH.Core.Sftp.Overwrite
