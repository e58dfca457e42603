/-
  QingzhouSSH.Services.ExecutionRecords — the life of an execution record.

  A call makes its record, enters it in the registry while a command runs, and ends it.  The
  surroundings answer everything that may fail on the way: the database, the connection, the
  streamed command, the files and the receiver of events.

  Main results:
    * `runConnectedCommand_leaves`, `failBeforeRun_leaves` — when a record is ended;
    * `execution_leaves_iff` — the same for every call.
-/
import QingzhouSSH.Core.Redaction
import QingzhouSSH.Lib.Exit
import QingzhouSSH.Services.ExecutionService

namespace QingzhouSSH.Services.ExecutionRecords

open QingzhouSSH.Lib
open QingzhouSSH.Core.Redaction (Redactor)
open QingzhouSSH.Core.Tasks
open QingzhouSSH.Repositories.ExecutionRepository
open QingzhouSSH.Services.ExecutionService (CommandOutcome statusOfError finishOfError
  finishOfOutcome acceptTask)

/-! ## §1. The record and its surroundings. -/

structure StoredLogResults where
  count : Nat
  jsonlRelativePath : Text
  textRelativePath : Text
  jsonlSha256 : Text
  textSha256 : Text
  deriving DecidableEq

/-- The events that end an execution. -/
inductive EndEvent where
  | finished (status : ExecutionStatus) (exitCode : Option Int) (result : Option StoredLogResults)
  | failed (category message : Text) (retryable : Bool)
  deriving DecidableEq

structure ExecutionState where
  record : ExecutionRecord
  registered : Bool
  files : List ExecutionFile
  events : List EndEvent

/-- A new record. -/
def opened (record : ExecutionRecord) : ExecutionState :=
  { record := record, registered := false, files := [], events := [] }

structure ConnectedServer where
  capabilities : SystemCapabilities
  redactor : Redactor

/-- What may fail around a call.  `markRunning`, `readRecord`, `insertFile` and `readDetails` are
the database; a streamed command also tells which texts of its output were sent. -/
structure Surroundings where
  executionId : Text
  markRunning : AppResult Unit
  readRecord : AppResult Unit
  readDetails : AppResult Unit
  insertFile : ExecutionFile → AppResult Unit
  isAbsolute : Text → Bool
  connect : AppResult ConnectedServer
  cancelledFirst : Bool
  executeStreaming : Text → List Text × AppResult CommandOutcome
  outputExists : Bool
  fileSize : Text → AppResult Nat
  sha256 : Text → AppResult Text
  send : EndEvent → AppResult Unit

abbrev ExecutionM := EStateM AppError ExecutionState

/-! ## §2. Steps. -/

section Steps

variable (around : Surroundings)

/-- An update of the record. -/
def update (f : ExecutionRecord → AppResult ExecutionRecord) : ExecutionM Unit := fun s =>
  match f s.record with
  | .ok record => .ok () { s with record := record }
  | .error e => .error e s

def markRunning : ExecutionM Unit := do
  answer around.markRunning
  update Repositories.ExecutionRepository.markRunning

/-- `register` and `register_child`. -/
def register : ExecutionM Unit := fun s =>
  if s.registered then .error (.validation "执行标识已经在运行".toList) s
  else .ok () { s with registered := true }

def remove : ExecutionM Unit := fun s => .ok () { s with registered := false }

def emit (event : EndEvent) : ExecutionM Unit := fun s =>
  match around.send event with
  | .ok _ => .ok () { s with events := s.events ++ [event] }
  | .error e => .error e s

def keepFile (file : ExecutionFile) : ExecutionM Unit := fun s =>
  .ok () { s with files := s.files ++ [fileRow file] }

def addFile (file : ExecutionFile) : ExecutionM Unit := do
  answer (checkFile around.isAbsolute file)
  answer (around.insertFile (fileRow file))
  keepFile file

/-- `get`, after the execution. -/
def readDetails : ExecutionM (ExecutionRecord × List ExecutionFile) := do
  answer around.readDetails
  let s ← get
  return (s.record, s.files)

/-- The log of an execution, in the data root. -/
def executionLogPath : Text := "logs/executions/".toList ++ around.executionId ++ ".log".toList

def executionLog (size : Nat) (sha256 : Text) : ExecutionFile where
  relativePath := executionLogPath around
  purpose := "execution_log".toList
  sizeBytes := size
  sha256 := sha256

def recordOutputFile : ExecutionM Unit := do
  let size ← answer (around.fileSize (executionLogPath around))
  let sha256 ← answer (around.sha256 (executionLogPath around))
  addFile around (executionLog around size sha256)

def finishError (error : AppError) : ExecutionM Unit := do
  update (finish (finishOfError error))
  emit around (.failed error.code error.message error.retryable)

end Steps

/-! ## §3. Calls of the execution service. -/

section Calls

variable (around : Surroundings)

def failBeforeRun (error : AppError) : ExecutionM (ExecutionRecord × List ExecutionFile) := do
  markRunning around
  finishError around error
  readDetails around

/-- What follows a streamed command. -/
def settle : AppResult CommandOutcome → ExecutionM Unit
  | .error e => finishError around e
  | .ok outcome =>
      if outcome.exitStatus = 0 then do
        if around.outputExists then recordOutputFile around
        update (finish (finishOfOutcome outcome))
        emit around (.finished .succeeded (some 0) none)
      else finishError around (.ofSshCommand outcome.exitStatus "远程命令返回非零退出码".toList)

def runConnectedCommand (command : Text) :
    ExecutionM (ExecutionRecord × List ExecutionFile) := do
  markRunning around
  register
  let outcome := (around.executeStreaming command).2
  remove
  settle around outcome
  readDetails around

/-- A call that makes a record and runs one command. -/
structure ExecutionCall where
  accept : AppResult ExecutionRecord
  queued : ∀ record, accept = .ok record → record.status = .queued
  readsRecord : Bool
  cancellable : Bool
  command : SystemCapabilities → AppResult Text

/-- The connection; a token that is cancelled may be seen first. -/
def connected (cancellable : Bool) : AppResult ConnectedServer :=
  if cancellable && around.cancelledFirst then .error .cancelled else around.connect

/-- `run_task`, `run_command_with_limit_and_cancel`, or the end of a call that does not read its
record back. -/
def ExecutionCall.afterAccept (call : ExecutionCall) :
    ExecutionM (ExecutionRecord × List ExecutionFile) := do
  if call.readsRecord then answer around.readRecord
  match connected around call.cancellable with
  | .error e => failBeforeRun around e
  | .ok server =>
      match call.command server.capabilities with
      | .error e => failBeforeRun around e
      | .ok command => runConnectedCommand around command

/-- Without a record there is only an error. -/
def ExecutionCall.run (call : ExecutionCall) :
    AppResult (EStateM.Result AppError ExecutionState (ExecutionRecord × List ExecutionFile)) :=
  match call.accept with
  | .error e => .error e
  | .ok record => .ok (call.afterAccept around (opened record))

end Calls

/-- `execute_task`. -/
def executeTask [UuidCrate] (catalog : List TaskDefinition) (serverId taskId : Text)
    (input : Value) : ExecutionCall where
  accept := do
    let (_, _, record) ← acceptTask catalog serverId taskId input
    .ok record
  queued record h := by
    obtain ⟨⟨definition, parameters, record'⟩, haccept, h⟩ := bind_eq_ok.mp h
    obtain rfl := Except.ok.inj h
    unfold acceptTask at haccept
    split at haccept
    · cases haccept
    · obtain ⟨_, -, haccept⟩ := bind_eq_ok.mp haccept
      obtain ⟨_, -, haccept⟩ := bind_eq_ok.mp haccept
      obtain ⟨_, hcreate, haccept⟩ := bind_eq_ok.mp haccept
      obtain rfl := (Prod.mk.inj (Prod.mk.inj (Except.ok.inj haccept)).2).2
      exact create_ok hcreate
  readsRecord := true
  cancellable := false
  command capabilities := do
    let (definition, parameters, _) ← acceptTask catalog serverId taskId input
    let implementation ← selectImplementation definition capabilities
    renderCommand implementation parameters

/-- `execute_custom`; `renderFor` is the rendering of the request. -/
def executeCustom (serverId : Text) (request : ExecutionService.CustomExecutionRequest)
    (renderFor : SystemCapabilities → AppResult Text) : ExecutionCall where
  accept := ExecutionService.acceptCustom serverId request
  queued _ h := by
    obtain ⟨_, -, h⟩ := bind_eq_ok.mp h
    exact create_ok h
  readsRecord := false
  cancellable := false
  command := renderFor

/-- `execute_fixed_maintenance`. -/
def executeFixedMaintenance (serverId packageManager : Text) (packages : List Text)
    (command : Text) : ExecutionCall where
  accept := ExecutionService.acceptFixedMaintenance serverId packageManager packages
  queued _ h := create_ok h
  readsRecord := true
  cancellable := false
  command _ := .ok command

/-- `execute_personal_script_with_cancel`; `launcher` is the rendering of the script. -/
def executePersonalScript (serverId : Text) (scriptVersion : Int)
    (parameters : List ExecutionParameter) (launcher : SystemCapabilities → AppResult Text) :
    ExecutionCall where
  accept := create
    { serverId := serverId, taskId := "script.personal".toList, taskVersion := scriptVersion,
      category := "advanced".toList, parameters := parameters }
  queued _ h := create_ok h
  readsRecord := false
  cancellable := true
  command := launcher

/-- `execute_planned_step_with_cancel`. -/
def executePlannedStep (serverId taskId : Text) (taskVersion : Int) (category command : Text)
    (parameters : List ExecutionParameter) : ExecutionCall where
  accept := create
    { serverId := serverId, taskId := taskId, taskVersion := taskVersion, category := category,
      parameters := parameters }
  queued _ h := create_ok h
  readsRecord := true
  cancellable := true
  command _ := .ok command

/-! ## §4. What the steps leave. -/

/-- The record has ended, and the registry has no entry for it. -/
def Ended (s : ExecutionState) : Prop :=
  s.record.status.isTerminal = true ∧ s.registered = false

/-- The part of the state that `Ended` is about. -/
def standing (s : ExecutionState) : ExecutionStatus × Bool := (s.record.status, s.registered)

theorem ended_iff_of_standing (s s' : ExecutionState) (h : standing s' = standing s) :
    Ended s' ↔ Ended s := by
  obtain ⟨hstatus, hregistered⟩ := Prod.mk.inj h
  unfold Ended
  rw [hstatus, hregistered]

section Leaves

variable {around : Surroundings} {s : ExecutionState}

theorem emit_keeps (event : EndEvent) : Keeps standing (emit around event) := by
  intro s
  unfold emit
  split <;> rfl

theorem readDetails_keeps : Keeps standing (readDetails around) :=
  (keeps_answer standing _).bind fun _ _ => rfl

/-- A record that is under way is ended by a terminal update, whatever becomes of the event. -/
theorem finish_leaves {change : FinishExecution} {event : EndEvent}
    (hterminal : change.status.isTerminal = true) (hopen : s.record.status = .running)
    (hfree : s.registered = false) :
    Leaves Ended (do update (finish change); emit around event) s := by
  rw [leaves_andThen ended_iff_of_standing fun _ => emit_keeps event]
  show Ended (exitState (update (finish change) s))
  unfold update finish
  rw [if_neg (not_not.mpr hterminal), if_pos (Or.inr hopen)]
  exact ⟨hterminal, hfree⟩

theorem statusOfError_terminal (e : AppError) : (statusOfError e).isTerminal = true := by
  cases e <;> rfl

theorem finishError_leaves (e : AppError) (hopen : s.record.status = .running)
    (hfree : s.registered = false) : Leaves Ended (finishError around e) s :=
  finish_leaves (statusOfError_terminal e) hopen hfree

/-- A file that can be recorded. -/
def Insertable (around : Surroundings) (file : ExecutionFile) : Prop :=
  checkFile around.isAbsolute file = .ok () ∧ around.insertFile (fileRow file) = .ok ()

/-- The log of the execution can be recorded. -/
def LogRecordable (around : Surroundings) : Prop :=
  ∃ size sha256, around.fileSize (executionLogPath around) = .ok size
    ∧ around.sha256 (executionLogPath around) = .ok sha256
    ∧ Insertable around (executionLog around size sha256)

/-- The state with a file that has been recorded. -/
def ExecutionState.withFile (file : ExecutionFile) (s : ExecutionState) : ExecutionState :=
  { s with files := s.files ++ [fileRow file] }

theorem unit_answer {r : AppResult Unit} {P : Unit → Prop} :
    (∃ a, r = .ok a ∧ P a) ↔ r = .ok () ∧ P () :=
  ⟨fun ⟨_, h⟩ => h, fun h => ⟨(), h⟩⟩

/-- A file is recorded on the way to the end. -/
theorem addFile_then {α : Type} {file : ExecutionFile} {f : Unit → ExecutionM α}
    (hs : ¬ Ended s) : Leaves Ended (addFile around file >>= f) s
      ↔ Insertable around file ∧ Leaves Ended (f ()) (s.withFile file) := by
  unfold addFile Insertable
  rw [bind_assoc, leaves_answer hs, unit_answer, bind_assoc, leaves_answer hs, unit_answer,
    and_assoc]
  exact Iff.rfl

theorem recordOutputFile_then {f : Unit → ExecutionM Unit} (hs : ¬ Ended s)
    (hf : ∀ file, Leaves Ended (f ()) (s.withFile file)) :
    Leaves Ended (recordOutputFile around >>= f) s ↔ LogRecordable around := by
  unfold recordOutputFile LogRecordable
  rw [bind_assoc, leaves_answer hs]
  refine exists_congr fun size => ?_
  rw [bind_assoc, leaves_answer hs, ← exists_and_left]
  refine exists_congr fun sha256 => ?_
  rw [addFile_then hs, iff_true_intro (hf _), and_true]

/-- **What follows a command ends the record**, unless the log of a success cannot be recorded. -/
theorem settle_leaves {result : AppResult CommandOutcome} (hopen : s.record.status = .running)
    (hfree : s.registered = false) :
    Leaves Ended (settle around result) s ↔ ∀ outcome, result = .ok outcome →
      outcome.exitStatus = 0 → around.outputExists = true → LogRecordable around := by
  have hs : ¬ Ended s := fun hended => by
    have hterminal := hended.1
    rw [hopen] at hterminal
    cases hterminal
  cases result with
  | error e => exact iff_of_true (finishError_leaves e hopen hfree) nofun
  | ok outcome =>
    unfold settle
    dsimp only
    split
    next hzero =>
      have hfinish : ∀ file, Leaves Ended (do
          update (finish (finishOfOutcome outcome))
          emit around (.finished .succeeded (some 0) none)) (s.withFile file) :=
        fun file => finish_leaves rfl hopen hfree
      cases hexists : around.outputExists with
      | false => exact iff_of_true (finish_leaves rfl hopen hfree) fun _ _ _ => nofun
      | true =>
        rw [if_pos rfl, recordOutputFile_then hs hfinish]
        exact ⟨fun h _ _ _ _ => h, fun h => h outcome rfl hzero rfl⟩
    next hzero =>
      refine iff_of_true (finishError_leaves _ hopen hfree) fun outcome' heq hzero' => ?_
      obtain rfl := Except.ok.inj heq
      exact absurd hzero' hzero

/-- The record leaves the queue. -/
theorem markRunning_then {α : Type} {f : Unit → ExecutionM α} (hqueued : s.record.status = .queued) :
    Leaves Ended (markRunning around >>= f) s ↔ around.markRunning = .ok ()
      ∧ Leaves Ended (f ()) { s with record := { s.record with status := .running } } := by
  have hs : ¬ Ended s := fun hended => by
    have hterminal := hended.1
    rw [hqueued] at hterminal
    cases hterminal
  have hupdate : update Repositories.ExecutionRepository.markRunning s
      = .ok () { s with record := { s.record with status := .running } } := by
    unfold update Repositories.ExecutionRepository.markRunning
    rw [if_pos hqueued]
  unfold markRunning
  rw [bind_assoc, leaves_answer hs, unit_answer, leaves_bind_ok hupdate]

theorem failBeforeRun_leaves (e : AppError) (hqueued : s.record.status = .queued)
    (hfree : s.registered = false) :
    Leaves Ended (failBeforeRun around e) s ↔ around.markRunning = .ok () := by
  unfold failBeforeRun
  rw [markRunning_then hqueued, leaves_andThen ended_iff_of_standing fun _ => readDetails_keeps]
  exact and_iff_left (finishError_leaves e rfl hfree)

/-- **A command that is run ends its record**, unless the record cannot enter its run or the log
of a success cannot be recorded. -/
theorem runConnectedCommand_leaves (command : Text) (hqueued : s.record.status = .queued)
    (hfree : s.registered = false) :
    Leaves Ended (runConnectedCommand around command) s ↔ around.markRunning = .ok ()
      ∧ ∀ outcome, (around.executeStreaming command).2 = .ok outcome → outcome.exitStatus = 0 →
        around.outputExists = true → LogRecordable around := by
  unfold runConnectedCommand
  rw [markRunning_then hqueued]
  refine and_congr_right fun _ => ?_
  have hregister : register { s with record := { s.record with status := .running } }
      = .ok () { s with record := { s.record with status := .running }, registered := true } := by
    unfold register
    rw [if_neg (by rw [hfree]; nofun)]
  dsimp only
  rw [leaves_bind_ok hregister, leaves_bind_ok (p := remove) rfl,
    leaves_andThen ended_iff_of_standing fun _ => readDetails_keeps]
  exact settle_leaves rfl rfl

theorem not_ended_of_queued (hqueued : s.record.status = .queued) : ¬ Ended s := fun hended => by
  have hterminal := hended.1
  rw [hqueued] at hterminal
  cases hterminal

end Leaves

/-! ## §5. Every call. -/

/-- What stands between a new record and its end: the reads and the update before the command,
and the log of a command that has succeeded. -/
structure ExecutionCall.Clear (call : ExecutionCall) (around : Surroundings) : Prop where
  read : call.readsRecord = true → around.readRecord = .ok ()
  marked : around.markRunning = .ok ()
  logged : ∀ server command outcome, connected around call.cancellable = .ok server →
    call.command server.capabilities = .ok command →
    (around.executeStreaming command).2 = .ok outcome → outcome.exitStatus = 0 →
    around.outputExists = true → LogRecordable around

theorem afterAccept_leaves (call : ExecutionCall) (around : Surroundings) {s : ExecutionState}
    (hqueued : s.record.status = .queued) (hfree : s.registered = false) :
    Leaves Ended (call.afterAccept around) s ↔ call.Clear around := by
  have hs := not_ended_of_queued hqueued
  -- after the record has been read back
  have hrest : Leaves Ended (match connected around call.cancellable with
      | .error e => failBeforeRun around e
      | .ok server =>
          match call.command server.capabilities with
          | .error e => failBeforeRun around e
          | .ok command => runConnectedCommand around command) s
      ↔ around.markRunning = .ok () ∧ ∀ server command outcome,
        connected around call.cancellable = .ok server →
        call.command server.capabilities = .ok command →
        (around.executeStreaming command).2 = .ok outcome → outcome.exitStatus = 0 →
        around.outputExists = true → LogRecordable around := by
    cases hconnected : connected around call.cancellable with
    | error e =>
      rw [failBeforeRun_leaves e hqueued hfree]
      exact (and_iff_left nofun).symm
    | ok server =>
      cases hcommand : call.command server.capabilities with
      | error e =>
        dsimp only
        rw [hcommand, failBeforeRun_leaves e hqueued hfree]
        refine (and_iff_left fun server' command outcome heq hok => ?_).symm
        obtain rfl := Except.ok.inj heq
        rw [hcommand] at hok
        cases hok
      | ok command =>
        dsimp only
        rw [hcommand, runConnectedCommand_leaves command hqueued hfree]
        refine and_congr_right fun _ => ⟨?_, fun h outcome => h server command outcome rfl hcommand⟩
        intro h server' command' outcome heq hok
        obtain rfl := Except.ok.inj heq
        obtain rfl := Except.ok.inj (hcommand.symm.trans hok)
        exact h outcome
  have hclear : call.Clear around ↔ (call.readsRecord = true → around.readRecord = .ok ())
      ∧ Leaves Ended (match connected around call.cancellable with
        | .error e => failBeforeRun around e
        | .ok server =>
            match call.command server.capabilities with
            | .error e => failBeforeRun around e
            | .ok command => runConnectedCommand around command) s := by
    rw [hrest]
    exact ⟨fun h => ⟨h.read, h.marked, h.logged⟩, fun h => ⟨h.1, h.2.1, h.2.2⟩⟩
  rw [hclear]
  unfold ExecutionCall.afterAccept
  cases hreads : call.readsRecord with
  | false => exact (and_iff_right nofun).symm
  | true =>
    rw [if_pos rfl, leaves_answer hs, unit_answer]
    exact and_congr_left fun _ => ⟨fun h _ => h, fun h => h rfl⟩

/-- **When a call of the execution service ends its record.** -/
theorem execution_leaves_iff (call : ExecutionCall) (around : Surroundings) :
    (∀ result, call.run around = .ok result → Ended (exitState result))
      ↔ ∀ record, call.accept = .ok record → call.Clear around := by
  unfold ExecutionCall.run
  cases haccept : call.accept with
  | error e => exact iff_of_true (fun _ h => by cases h) (fun _ h => by cases h)
  | ok record =>
    have hleaves := afterAccept_leaves call around (s := opened record)
      (call.queued record haccept) rfl
    constructor
    · exact fun h _ _ => hleaves.mp (h _ rfl)
    · rintro h result heq
      obtain rfl := Except.ok.inj heq
      exact hleaves.mpr (h record rfl)

/-! ## §6. The record alone. -/

section Agreement

variable {around : Surroundings} {s : ExecutionState}

/-- What `record_output_file` answers. -/
def recordOutputResult (around : Surroundings) : AppResult Unit := do
  let size ← around.fileSize (executionLogPath around)
  let sha256 ← around.sha256 (executionLogPath around)
  checkFile around.isAbsolute (executionLog around size sha256)
  around.insertFile (fileRow (executionLog around size sha256))

/-- The host that a direct run sees. -/
def hostOf (around : Surroundings) : ExecutionService.Host where
  connect := around.connect.map ConnectedServer.capabilities
  executeStreaming command := (around.executeStreaming command).2
  recordOutputFile := if around.outputExists then recordOutputResult around else .ok ()

theorem emit_record (event : EndEvent) : Keeps ExecutionState.record (emit around event) := by
  intro s
  unfold emit
  split <;> rfl

theorem readDetails_record : Keeps ExecutionState.record (readDetails around) :=
  (keeps_answer _ _).bind fun _ _ => rfl

theorem recordOutputFile_run : recordOutputFile around s = match recordOutputResult around with
    | .error e => .error e s
    | .ok _ => .ok () { s with
        files := (exitState (recordOutputFile around s)).files } := by
  unfold recordOutputFile recordOutputResult addFile
  cases hsize : around.fileSize (executionLogPath around) with
  | error e => rfl
  | ok size =>
    cases hsha : around.sha256 (executionLogPath around) with
    | error e => rfl
    | ok sha256 =>
      rw [bind_of_ok (p := answer (.ok size)) rfl, bind_of_ok (p := answer (.ok sha256)) rfl]
      show _ = match (do
          checkFile around.isAbsolute (executionLog around size sha256)
          around.insertFile (fileRow (executionLog around size sha256)) : AppResult Unit) with
        | .error e => _
        | .ok _ => _
      cases checkFile around.isAbsolute (executionLog around size sha256) with
      | error e => rfl
      | ok _ =>
        cases hinsert : around.insertFile (fileRow (executionLog around size sha256)) with
        | error e =>
          rw [bind_of_ok (p := answer (.ok _)) rfl]
          rfl
        | ok _ =>
          rw [bind_of_ok (p := answer (.ok _)) rfl, bind_of_ok (p := answer (.ok _)) rfl]
          rfl

/-- An update that ends the execution. -/
theorem update_agrees (submitted : List Text) (change : FinishExecution) (event : EndEvent) :
    (ExecutionService.endWith submitted s.record change).record
      = some (exitState ((do update (finish change); emit around event : ExecutionM Unit) s)).record := by
  rw [view_andThen _ s fun _ => emit_record event]
  unfold ExecutionService.endWith update
  cases finish change s.record <;> rfl

theorem markRunning_run (hmark : around.markRunning = .ok ()) : markRunning around s
    = match Repositories.ExecutionRepository.markRunning s.record with
      | .ok record => .ok () { s with record := record }
      | .error e => .error e s := by
  unfold markRunning
  rw [hmark, bind_of_ok (p := answer (.ok ())) rfl]
  rfl

theorem settle_agrees (submitted : List Text) (result : AppResult CommandOutcome) :
    (match result with
      | .error e => ExecutionService.endWith submitted s.record (finishOfError e)
      | .ok outcome =>
          if outcome.exitStatus = 0 then
            match (hostOf around).recordOutputFile with
            | .error e =>
                { submitted := submitted, record := some s.record, response := .error e }
            | .ok _ => ExecutionService.endWith submitted s.record (finishOfOutcome outcome)
          else
            ExecutionService.endWith submitted s.record (finishOfError
              (.ofSshCommand outcome.exitStatus "远程命令返回非零退出码".toList))).record
      = some (exitState (settle around result s)).record := by
  cases result with
  | error e => exact update_agrees submitted _ _
  | ok outcome =>
    unfold settle
    dsimp only
    split
    next =>
      unfold hostOf
      dsimp only
      cases around.outputExists with
      | false => exact update_agrees submitted _ _
      | true =>
        rw [if_pos rfl]
        have hrecorded := @recordOutputFile_run around s
        cases hresult : recordOutputResult around with
        | error e =>
          rw [hresult] at hrecorded
          rw [if_pos rfl, bind_of_error hrecorded]
          rfl
        | ok _ =>
          rw [hresult] at hrecorded
          rw [if_pos rfl, bind_of_ok hrecorded]
          exact @update_agrees around { s with files := (exitState (recordOutputFile around s)).files }
            submitted _ _
    next => exact update_agrees submitted _ _

/-- **A command that is run directly leaves the record that `ExecutionService` says.** -/
theorem runConnectedCommand_agrees (command : Text) (hmark : around.markRunning = .ok ())
    (hfree : s.registered = false) :
    (ExecutionService.runConnectedCommand (hostOf around) command s.record).record
      = some (exitState (runConnectedCommand around command s)).record := by
  have hrun := @markRunning_run around s hmark
  unfold ExecutionService.runConnectedCommand runConnectedCommand
  cases hmarked : Repositories.ExecutionRepository.markRunning s.record with
  | error e =>
    rw [hmarked] at hrun
    rw [bind_of_error hrun]
    rfl
  | ok running =>
    rw [hmarked] at hrun
    have hregister : register { s with record := running }
        = .ok () { s with record := running, registered := true } := by
      unfold register
      rw [if_neg (by rw [hfree]; nofun)]
    dsimp only
    rw [bind_of_ok hrun, bind_of_ok hregister, bind_of_ok (p := remove) rfl,
      view_andThen _ _ fun _ => readDetails_record]
    exact @settle_agrees around { s with record := running, registered := false } [command]
      (around.executeStreaming command).2

theorem failBeforeRun_agrees (e : AppError) (hmark : around.markRunning = .ok ()) :
    (ExecutionService.failBeforeRun s.record e).record
      = some (exitState (failBeforeRun around e s)).record := by
  have hrun := @markRunning_run around s hmark
  unfold ExecutionService.failBeforeRun failBeforeRun
  cases hmarked : Repositories.ExecutionRepository.markRunning s.record with
  | error e' =>
    rw [hmarked] at hrun
    rw [bind_of_error hrun]
    rfl
  | ok running =>
    rw [hmarked] at hrun
    rw [bind_of_ok hrun, view_andThen _ _ fun _ => readDetails_record]
    exact @update_agrees around { s with record := running } [] _ _

end Agreement

end QingzhouSSH.Services.ExecutionRecords
