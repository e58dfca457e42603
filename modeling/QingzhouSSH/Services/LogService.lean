/-
  QingzhouSSH.Services.LogService — searching remote logs.

  `search` captures the output of one command in a file, reads the records in it, and stores the
  results.  Between the entry in the registry and the end of the record it leaves early wherever
  a file or a record of the output makes trouble.

  Main results:
    * `search_leaves_iff` — when a search ends its record;
    * `records_end_iff` — the same for every call that makes an execution record;
    * `brokenRecord_left_running` — a search that does not.
-/
import QingzhouSSH.Core.Logs.Command
import QingzhouSSH.Core.Logs.Parser
import QingzhouSSH.Services.ExecutionRecords

namespace QingzhouSSH.Services.LogService

open QingzhouSSH.Lib
open QingzhouSSH.Core.Logs
open QingzhouSSH.Core.Redaction (Redactor)
open QingzhouSSH.Repositories.ExecutionRepository
open QingzhouSSH.Services.ExecutionService (CommandOutcome finishOfError)
open QingzhouSSH.Services.ExecutionRecords

/-! ## §1. A search. -/

/-- `search_parameters`. -/
def searchParameters (request : LogSearchRequest) : List ExecutionParameter :=
  [("target".toList, request.target.asStr), ("path".toList, request.path),
    ("keyword".toList, request.keyword),
    ("caseSensitive".toList, if request.caseSensitive then "true".toList else "false".toList),
    ("contextLines".toList, showNat request.contextLines),
    ("limit".toList, showNat request.limit)].map fun p =>
      { name := p.1, displayValue := p.2, sensitive := false }

/-- The new record of a search. -/
def acceptSearch (serverId : Text) (request : LogSearchRequest) : AppResult ExecutionRecord := do
  request.validate
  create { serverId := serverId, taskId := "logs.search".toList, taskVersion := 1,
           category := "logs".toList, parameters := searchParameters request }

/-- What may fail around a search; `captured` is the reading of the file with the output. -/
structure SearchSurroundings extends Surroundings where
  createDirectory : AppResult Unit
  createCapture : AppResult Unit
  flush : AppResult Unit
  captured : AppResult Unit
  writeResults : List SearchResultItem → AppResult StoredLogResults

section Search

variable (around : SearchSurroundings)

/-- `finish_error` of a search; the exit status is not kept. -/
def finishSearchError (error : AppError) : ExecutionM Unit := do
  update (finish { finishOfError error with exitCode := none })
  emit around.toSurroundings (.failed error.code error.message error.retryable)

def outputSummary (target : LogSearchTarget) (stored : StoredLogResults) : Text :=
  showNat stored.count ++ match target with
    | .content => " 条日志记录".toList
    | .filename => " 个文件".toList

/-- `finish_success`. -/
def finishSuccess (target : LogSearchTarget) (stored : StoredLogResults) : ExecutionM Unit := do
  update (finish
    { status := .succeeded, exitCode := some 0, errorCategory := none, errorMessage := none,
      retryable := false, outputSummary := some (outputSummary target stored) })
  emit around.toSurroundings (.finished .succeeded (some 0) (some stored))

def jsonlFile (stored : StoredLogResults) (size : Nat) : ExecutionFile where
  relativePath := stored.jsonlRelativePath
  purpose := "log_results_jsonl".toList
  sizeBytes := size
  sha256 := stored.jsonlSha256

def textFile (stored : StoredLogResults) (size : Nat) : ExecutionFile where
  relativePath := stored.textRelativePath
  purpose := "log_results_text".toList
  sizeBytes := size
  sha256 := stored.textSha256

/-- `record_files`. -/
def recordFiles (stored : StoredLogResults) : ExecutionM Unit := do
  let size ← answer (around.fileSize stored.jsonlRelativePath)
  addFile around.toSurroundings (jsonlFile stored size)
  let size ← answer (around.fileSize stored.textRelativePath)
  addFile around.toSurroundings (textFile stored size)
  if around.outputExists then recordOutputFile around.toSurroundings

/-- What follows the streamed command of a search. -/
def settleSearch (request : LogSearchRequest) (redactor : Redactor) (output : Text) :
    AppResult CommandOutcome → ExecutionM Unit
  | .error e => finishSearchError around e
  | .ok outcome =>
      if outcome.exitStatus = 0 then do
        answer around.captured
        let items ← answer (parseSearchOutput request output redactor)
        let stored ← answer (around.writeResults items)
        recordFiles around stored
        finishSuccess around request.target stored
      else
        finishSearchError around
          (.ofSshCommand outcome.exitStatus "远程日志检索返回非零退出码".toList)

/-- A search that ends before its command. -/
def refuseSearch (error : AppError) : ExecutionM (ExecutionRecord × List ExecutionFile) := do
  remove
  finishSearchError around error
  readDetails around.toSurroundings

/-- `search`, with its command. -/
def runSearch (request : LogSearchRequest) (redactor : Redactor) (command : Text) :
    ExecutionM (ExecutionRecord × List ExecutionFile) := do
  answer around.createDirectory
  answer around.createCapture
  let (texts, outcome) := around.executeStreaming command
  answer around.flush
  remove
  settleSearch around request redactor texts.flatten outcome
  readDetails around.toSurroundings

/-- `search`, after its record has been made. -/
def searchAfterAccept (request : LogSearchRequest) :
    ExecutionM (ExecutionRecord × List ExecutionFile) := do
  markRunning around.toSurroundings
  register
  match around.connect with
  | .error e => refuseSearch around e
  | .ok server =>
      match buildSearchCommand request server.capabilities with
      | .error e => refuseSearch around e
      | .ok command => runSearch around request server.redactor command

def search (serverId : Text) (request : LogSearchRequest) :
    AppResult (EStateM.Result AppError ExecutionState (ExecutionRecord × List ExecutionFile)) :=
  match acceptSearch serverId request with
  | .error e => .error e
  | .ok record => .ok (searchAfterAccept around request (opened record))

end Search

/-! ## §2. What a search leaves. -/

/-- The results of a search can be recorded. -/
structure ResultsRecordable (around : SearchSurroundings) (stored : StoredLogResults) : Prop where
  jsonl : ∃ size, around.fileSize stored.jsonlRelativePath = .ok size
    ∧ Insertable around.toSurroundings (jsonlFile stored size)
  text : ∃ size, around.fileSize stored.textRelativePath = .ok size
    ∧ Insertable around.toSurroundings (textFile stored size)
  log : around.outputExists = true → LogRecordable around.toSurroundings

/-- The output of a search that has succeeded can be read, stored and recorded. -/
def OutputUsable (around : SearchSurroundings) (request : LogSearchRequest) (redactor : Redactor)
    (output : Text) : Prop :=
  around.captured = .ok () ∧ ∃ items, parseSearchOutput request output redactor = .ok items
    ∧ ∃ stored, around.writeResults items = .ok stored ∧ ResultsRecordable around stored

section Leaves

variable {around : SearchSurroundings} {s : ExecutionState}

theorem not_ended_of_running (hopen : s.record.status = .running) : ¬ Ended s := fun hended => by
  have hterminal := hended.1
  rw [hopen] at hterminal
  cases hterminal

theorem not_ended_of_registered (hregistered : s.registered = true) : ¬ Ended s := fun hended => by
  rw [hended.2] at hregistered
  cases hregistered

theorem finishSearchError_leaves (e : AppError) (hopen : s.record.status = .running)
    (hfree : s.registered = false) : Leaves Ended (finishSearchError around e) s :=
  finish_leaves (statusOfError_terminal e) hopen hfree

/-- A stored file is measured and recorded. -/
theorem sizedFile_then {rest : ExecutionM Unit} {path : Text} {file : Nat → ExecutionFile}
    {P : Prop} (hopen : s.record.status = .running)
    (hrest : ∀ s', standing s' = standing s → (Leaves Ended rest s' ↔ P)) :
    Leaves Ended (do
        let size ← answer (around.fileSize path)
        addFile around.toSurroundings (file size)
        rest) s
      ↔ (∃ size, around.fileSize path = .ok size ∧ Insertable around.toSurroundings (file size))
        ∧ P := by
  have hs := not_ended_of_running hopen
  rw [leaves_answer hs, ← exists_and_right]
  refine exists_congr fun size => ?_
  rw [addFile_then hs, hrest (s.withFile (file size)) rfl, and_assoc]

theorem recordFiles_then {f : Unit → ExecutionM Unit} {stored : StoredLogResults}
    (hopen : s.record.status = .running)
    (hf : ∀ s', standing s' = standing s → Leaves Ended (f ()) s') :
    Leaves Ended (recordFiles around stored >>= f) s ↔ ResultsRecordable around stored := by
  have hrunning : ∀ s', standing s' = standing s → s'.record.status = .running :=
    fun s' hsame => (Prod.mk.inj hsame).1.trans hopen
  have hlog : ∀ s', standing s' = standing s → (Leaves Ended
      ((if around.outputExists then recordOutputFile around.toSurroundings else pure ()) >>= f) s'
        ↔ (around.outputExists = true → LogRecordable around.toSurroundings)) := by
    intro s' hsame
    have hs := not_ended_of_running (hrunning s' hsame)
    cases around.outputExists with
    | false => exact iff_of_true (hf s' hsame) nofun
    | true =>
      rw [if_pos rfl, recordOutputFile_then hs fun file => hf _ hsame]
      exact ⟨fun h _ => h, fun h => h rfl⟩
  unfold recordFiles
  simp only [bind_assoc]
  rw [sizedFile_then hopen fun s' hsame => sizedFile_then (hrunning s' hsame)
    fun s'' hsame' => hlog s'' (hsame'.trans hsame)]
  exact ⟨fun h => ⟨h.1, h.2.1, h.2.2⟩, fun h => ⟨h.jsonl, h.text, h.log⟩⟩

theorem settleSearch_leaves {request : LogSearchRequest} {redactor : Redactor} {output : Text}
    {result : AppResult CommandOutcome} (hopen : s.record.status = .running)
    (hfree : s.registered = false) :
    Leaves Ended (settleSearch around request redactor output result) s
      ↔ ∀ outcome, result = .ok outcome → outcome.exitStatus = 0 →
        OutputUsable around request redactor output := by
  have hs := not_ended_of_running hopen
  cases result with
  | error e => exact iff_of_true (finishSearchError_leaves e hopen hfree) nofun
  | ok outcome =>
    unfold settleSearch
    dsimp only
    split
    next hzero =>
      have husable : Leaves Ended (do
          answer around.captured
          let items ← answer (parseSearchOutput request output redactor)
          let stored ← answer (around.writeResults items)
          recordFiles around stored
          finishSuccess around request.target stored) s
          ↔ OutputUsable around request redactor output := by
        rw [leaves_answer hs, unit_answer, leaves_answer hs]
        refine and_congr_right fun _ => exists_congr fun items => and_congr_right fun _ => ?_
        rw [leaves_answer hs]
        refine exists_congr fun stored => and_congr_right fun _ => recordFiles_then hopen ?_
        intro s' hsame
        obtain ⟨hstatus, hregistered⟩ := Prod.mk.inj hsame
        exact finish_leaves rfl (hstatus.trans hopen) (hregistered.trans hfree)
      rw [husable]
      exact ⟨fun h _ _ _ => h, fun h => h outcome rfl hzero⟩
    next hzero =>
      refine iff_of_true (finishSearchError_leaves _ hopen hfree) fun outcome' heq hzero' => ?_
      obtain rfl := Except.ok.inj heq
      exact absurd hzero' hzero

theorem refuseSearch_leaves (e : AppError) (hopen : s.record.status = .running) :
    Leaves Ended (refuseSearch around e) s := by
  unfold refuseSearch
  rw [leaves_bind_ok (p := remove) rfl,
    leaves_andThen ended_iff_of_standing fun _ => readDetails_keeps]
  exact finishSearchError_leaves e hopen rfl

/-- The files of a search can be made and written. -/
structure FilesUsable (around : SearchSurroundings) : Prop where
  directory : around.createDirectory = .ok ()
  capture : around.createCapture = .ok ()
  flushed : around.flush = .ok ()

theorem runSearch_leaves {request : LogSearchRequest} {redactor : Redactor} {command : Text}
    (hopen : s.record.status = .running) (hregistered : s.registered = true) :
    Leaves Ended (runSearch around request redactor command) s ↔ FilesUsable around
      ∧ ∀ outcome, (around.executeStreaming command).2 = .ok outcome → outcome.exitStatus = 0 →
        OutputUsable around request redactor (around.executeStreaming command).1.flatten := by
  have hs := not_ended_of_registered hregistered
  have hsettle := @settleSearch_leaves around { s with registered := false } request redactor
    (around.executeStreaming command).1.flatten (around.executeStreaming command).2 hopen rfl
  unfold runSearch
  dsimp only
  rw [leaves_answer hs, unit_answer, leaves_answer hs, unit_answer, leaves_answer hs, unit_answer,
    leaves_bind_ok (p := remove) rfl,
    leaves_andThen ended_iff_of_standing fun _ => readDetails_keeps]
  constructor
  · rintro ⟨hdirectory, hcapture, hflush, hsettled⟩
    exact ⟨⟨hdirectory, hcapture, hflush⟩, hsettle.mp hsettled⟩
  · rintro ⟨hfiles, husable⟩
    exact ⟨hfiles.directory, hfiles.capture, hfiles.flushed, hsettle.mpr husable⟩

/-- What stands between the new record of a search and its end. -/
structure SearchClear (request : LogSearchRequest) (around : SearchSurroundings) : Prop where
  marked : around.markRunning = .ok ()
  usable : ∀ server command, around.connect = .ok server →
    buildSearchCommand request server.capabilities = .ok command → FilesUsable around
      ∧ ∀ outcome, (around.executeStreaming command).2 = .ok outcome → outcome.exitStatus = 0 →
        OutputUsable around request server.redactor (around.executeStreaming command).1.flatten

theorem searchAfterAccept_leaves {request : LogSearchRequest}
    (hqueued : s.record.status = .queued) (hfree : s.registered = false) :
    Leaves Ended (searchAfterAccept around request) s ↔ SearchClear request around := by
  have hregister : register { s with record := { s.record with status := .running } }
      = .ok () { s with record := { s.record with status := .running }, registered := true } := by
    unfold register
    rw [if_neg (by rw [hfree]; nofun)]
  have hclear : SearchClear request around ↔ around.markRunning = .ok ()
      ∧ ∀ server command, around.connect = .ok server →
        buildSearchCommand request server.capabilities = .ok command → FilesUsable around
          ∧ ∀ outcome, (around.executeStreaming command).2 = .ok outcome →
            outcome.exitStatus = 0 → OutputUsable around request server.redactor
              (around.executeStreaming command).1.flatten :=
    ⟨fun h => ⟨h.marked, h.usable⟩, fun h => ⟨h.1, h.2⟩⟩
  unfold searchAfterAccept
  rw [hclear, markRunning_then hqueued, leaves_bind_ok hregister]
  refine and_congr_right fun _ => ?_
  cases hconnect : around.connect with
  | error e => exact iff_of_true (refuseSearch_leaves e rfl) fun _ _ h => by cases h
  | ok server =>
    dsimp only
    cases hcommand : buildSearchCommand request server.capabilities with
    | error e =>
      refine iff_of_true (refuseSearch_leaves e rfl) fun server' command heq hok => ?_
      obtain rfl := Except.ok.inj heq
      rw [hcommand] at hok
      cases hok
    | ok command =>
      dsimp only
      rw [runSearch_leaves rfl rfl]
      refine ⟨?_, fun h => h server command rfl hcommand⟩
      intro h server' command' heq hok
      obtain rfl := Except.ok.inj heq
      obtain rfl := Except.ok.inj (hcommand.symm.trans hok)
      exact h

end Leaves

/-! ## §3. Every call. -/

/-- The calls that make an execution record. -/
inductive RecordedCall where
  | execution (call : ExecutionCall)
  | search (serverId : Text) (request : LogSearchRequest)

def RecordedCall.run (around : SearchSurroundings) : RecordedCall →
    AppResult (EStateM.Result AppError ExecutionState (ExecutionRecord × List ExecutionFile))
  | .execution call => call.run around.toSurroundings
  | .search serverId request => LogService.search around serverId request

/-- Nothing fails between the new record and its end. -/
def RecordedCall.Clear (around : SearchSurroundings) : RecordedCall → Prop
  | .execution call => ∀ record, call.accept = .ok record → call.Clear around.toSurroundings
  | .search serverId request =>
      ∀ record, acceptSearch serverId request = .ok record → SearchClear request around

theorem acceptSearch_queued {serverId : Text} {request : LogSearchRequest}
    {record : ExecutionRecord} (h : acceptSearch serverId request = .ok record) :
    record.status = .queued := by
  obtain ⟨_, -, hcreate⟩ := bind_eq_ok.mp h
  exact create_ok hcreate

/-- **When a call leaves its record ended and the registry without it.** -/
theorem records_end_iff (call : RecordedCall) (around : SearchSurroundings) :
    (∀ result, call.run around = .ok result → Ended (exitState result)) ↔ call.Clear around := by
  cases call with
  | execution call => exact execution_leaves_iff call around.toSurroundings
  | search serverId request =>
    show (∀ result, LogService.search around serverId request = .ok result → _)
      ↔ ∀ record, acceptSearch serverId request = .ok record → _
    unfold LogService.search
    cases haccept : acceptSearch serverId request with
    | error e => exact iff_of_true (fun _ h => by cases h) (fun _ h => by cases h)
    | ok record =>
      have hleaves := @searchAfterAccept_leaves around (opened record) request
        (acceptSearch_queued haccept) rfl
      constructor
      · exact fun h _ _ => hleaves.mp (h _ rfl)
      · rintro h result heq
        obtain rfl := Except.ok.inj heq
        exact hleaves.mpr (h record rfl)

/-! ## §4. A file name with a separator. -/

def oopsRequest : LogSearchRequest where
  target := .content
  path := []
  keyword := "oops".toList
  caseSensitive := false
  contextLines := 0
  limit := 100
  startTime := none
  endTime := none

/-- One match, in the file `a<U+001F>b.log`. -/
def brokenRecord : Text :=
  recordPrefix ++ "/var/log/a\x1fb.log\x1f7\x1fmatch\x1foops\n".toList

/-- A host that answers the search; nothing fails on this side. -/
def healthyHost (output : Text) : SearchSurroundings where
  executionId := "0190a1b2-c3d4-7e5f-8a6b-0c1d2e3f4a5b".toList
  markRunning := .ok ()
  readRecord := .ok ()
  readDetails := .ok ()
  insertFile _ := .ok ()
  isAbsolute path := path.head? == some '/'
  connect := .ok
    { capabilities := ExecutionService.linuxWith ["find".toList, "grep".toList, "awk".toList]
      redactor := Redactor.new [] }
  cancelledFirst := false
  executeStreaming _ := ([output], .ok { exitStatus := 0, stdoutBytes := 0, stderrBytes := 0 })
  outputExists := true
  fileSize _ := .ok 0
  sha256 _ := .ok (List.replicate 64 '0')
  send _ := .ok ()
  createDirectory := .ok ()
  createCapture := .ok ()
  flush := .ok ()
  captured := .ok ()
  writeResults items := .ok
    { count := items.length, jsonlRelativePath := "logs/results.jsonl".toList,
      textRelativePath := "logs/results.txt".toList, jsonlSha256 := List.replicate 64 '0',
      textSha256 := List.replicate 64 '0' }

/-- The same search ends where its record can be read. -/
example : ((RecordedCall.search "web-1".toList oopsRequest).run
    (healthyHost (recordPrefix ++ "/var/log/b.log\x1f7\x1fmatch\x1foops\n".toList))).map
      (fun result => ((exitState result).record.status, (exitState result).files.length))
    = .ok (.succeeded, 3) := by decide

/-- A record that cannot be read leaves the execution running. -/
theorem brokenRecord_left_running : ¬ ∀ result,
    (RecordedCall.search "web-1".toList oopsRequest).run (healthyHost brokenRecord) = .ok result →
      Ended (exitState result) := by
  intro hended
  have hstatus : ((RecordedCall.search "web-1".toList oopsRequest).run
      (healthyHost brokenRecord)).map (fun result => (exitState result).record.status)
      = .ok .running := by decide
  cases hrun : (RecordedCall.search "web-1".toList oopsRequest).run (healthyHost brokenRecord) with
  | error e =>
    rw [hrun] at hstatus
    cases hstatus
  | ok result =>
    rw [hrun] at hstatus
    have hrunning : (exitState result).record.status = .running := Except.ok.inj hstatus
    have hterminal := (hended result hrun).1
    rw [hrunning] at hterminal
    cases hterminal

end QingzhouSSH.Services.LogService
