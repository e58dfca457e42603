/-
  QingzhouSSH.Services.WorkflowRetry — a retry goes on where the run has stopped.

  A retry knows of the run only what the rows say.  They say all that the loop of the
  driver knew when it stopped: where it was, what the nodes before had left, and which
  nodes it had visited.

  Main results:
    * `turnsLogged_records` — the loop follows a course, and its rows mirror it;
    * `Lived.resumable` — a run that has paused can be resumed from its rows;
    * `retry_continues` — a retry and an uninterrupted run.
-/
import QingzhouSSH.Services.WorkflowCourse
import QingzhouSSH.Services.WorkflowRuns

namespace QingzhouSSH.Services.WorkflowService

open String (utf8Len)
open QingzhouSSH.Lib
open QingzhouSSH.Lib.Process
open QingzhouSSH.Domain
open QingzhouSSH.Core.Tasks
open QingzhouSSH.Core.Workflows
open QingzhouSSH.Repositories.WorkflowRepository

/-! ## §1. What the rows say. -/

/-- The nodes that have been skipped. -/
def skippedNodes (rows : List WorkflowNodeRun) : List Uuid :=
  (rows.filter fun row => row.status == .skipped).map WorkflowNodeRun.nodeId

theorem skippedNodes_append (rows : List WorkflowNodeRun) (row : WorkflowNodeRun) :
    skippedNodes (rows ++ [row])
      = skippedNodes rows ++ if row.status = .skipped then [row.nodeId] else [] := by
  unfold skippedNodes
  rw [List.filter_append, List.map_append]
  by_cases hskipped : row.status = .skipped
  · rw [if_pos hskipped, List.filter_cons, hskipped]
    rfl
  · rw [if_neg hskipped, List.filter_cons, beq_eq_false_iff_ne.mpr hskipped]
    rfl

theorem skippedNodes_map {f : WorkflowNodeRun → WorkflowNodeRun}
    (hid : ∀ row, (f row).nodeId = row.nodeId)
    (hstatus : ∀ row, (f row).status = .skipped ↔ row.status = .skipped)
    (rows : List WorkflowNodeRun) : skippedNodes (rows.map f) = skippedNodes rows := by
  induction rows using List.reverseRecOn with
  | nil => rfl
  | append_singleton rows row ih =>
      rw [List.map_append, List.map_singleton, skippedNodes_append, skippedNodes_append, ih, hid]
      by_cases hskipped : row.status = .skipped
      · rw [if_pos hskipped, if_pos ((hstatus row).mpr hskipped)]
      · rw [if_neg hskipped, if_neg fun h => hskipped ((hstatus row).mp h)]

/-- What a row leaves for conditions. -/
def rowContext (row : WorkflowNodeRun) : Option ConditionContext :=
  if row.status = .succeeded then
    some { exitCode := row.exitCode, result := row.result, outputSummary := row.outputSummary }
  else none

/-- The latest attempt of a node is what is recorded of it. -/
theorem recordedContexts_append {rows : List WorkflowNodeRun} {row : WorkflowNodeRun}
    (h : row.attempt = nextAttempt row.nodeId rows) (id : Uuid) :
    recordedContexts (rows ++ [row]) id
      = if id = row.nodeId then rowContext row else recordedContexts rows id := by
  unfold recordedContexts
  by_cases hid : id = row.nodeId
  · rw [if_pos hid, hid, latestNodeRun_next h]
    rfl
  · rw [if_neg hid, latestNodeRun_append, if_neg fun heq => hid heq.symm]

/-- Where no node has been skipped, a retry takes those for visited whose results it has. -/
theorem mem_recordedNodes {rows : List WorkflowNodeRun} (hskipped : skippedNodes rows = [])
    (id : Uuid) : id ∈ recordedNodes rows ↔ (recordedContexts rows id).isSome := by
  unfold recordedNodes recordedContexts
  rw [List.mem_filter]
  constructor
  · intro h
    obtain ⟨row, hlatest, hstatus⟩ := (Option.any_eq_true _ _).mp h.2
    obtain ⟨hmem, _⟩ := latestNodeRun_mem hlatest
    rw [Bool.or_eq_true, beq_iff_eq, beq_iff_eq] at hstatus
    rcases hstatus with hsucceeded | hrow
    · rw [hlatest, Option.bind_some, if_pos hsucceeded]
      rfl
    · have hnone : row.nodeId ∈ skippedNodes rows :=
        List.mem_map_of_mem (List.mem_filter.mpr ⟨hmem, beq_iff_eq.mpr hrow⟩)
      rw [hskipped] at hnone
      exact absurd hnone List.not_mem_nil
  · intro h
    cases hlatest : latestNodeRun rows id with
    | none =>
        rw [hlatest] at h
        cases h
    | some row =>
        rw [hlatest, Option.bind_some] at h
        obtain ⟨hmem, hid⟩ := latestNodeRun_mem hlatest
        by_cases hsucceeded : row.status = .succeeded
        · refine ⟨hid ▸ List.mem_map_of_mem hmem, ?_⟩
          show (row.status == .succeeded || row.status == .skipped) = true
          rw [hsucceeded]
          rfl
        · rw [if_neg hsucceeded] at h
          cases h

section Halting

variable (definition : WorkflowDefinition) (start : Uuid)

/-- The rows of a run that has paused say where it is, and what has been left there. -/
structure Halted (run : WorkflowRunRecord) (rows : List WorkflowNodeRun) : Prop where
  skipped : skippedNodes rows = []
  passed : ∃ current steps, run.currentNodeId = some current
    ∧ Passed definition (.initial start) steps
        { current := current, contexts := recordedContexts rows }

/-- A run that has paused can be resumed from its rows. -/
def Resumable (s : RunState) : Prop :=
  ∀ run, s.tables.run = some run → run.status = .paused → Halted definition start run s.tables.nodeRuns

/-- The run and its rows, at a point of a driver. -/
def records (P : WorkflowRunRecord → List WorkflowNodeRun → Prop) :
    Assertion Cancels (Resumable definition start) where
  holds s := Resumable definition start s ∧ ∃ run, s.tables.run = some run ∧ P run s.tables.nodeRuns
  stable s s' hcancel h := by
    dsimp only [Resumable]
    rw [hcancel.keeps.1]
    exact h
  safe _ h := h.1

/-- Wherever a driver gives up. -/
def wherever : Assertion Cancels (Resumable definition start) where
  holds := Resumable definition start
  stable s s' hcancel h := by
    unfold Resumable
    rw [hcancel.keeps.1]
    exact h
  safe _ h := h

end Halting

variable {definition : WorkflowDefinition} {start : Uuid}
variable {A : (question : RunQuestion) → RunAnswer question → Prop}
variable {P R : WorkflowRunRecord → List WorkflowNodeRun → Prop}

/-! ## §2. Steps and transactions. -/

/-- Steps that leave the rows alone. -/
theorem records_of_tables {s s' : RunState} (hrun : s'.tables.run = s.tables.run)
    (hrows : s'.tables.nodeRuns = s.tables.nodeRuns)
    (h : (records definition start P).holds s) : (records definition start P).holds s' := by
  obtain ⟨hresumable, hp⟩ := h
  refine ⟨?_, ?_⟩
  · unfold Resumable
    rw [hrun, hrows]
    exact hresumable
  · rw [hrun, hrows]
    exact hp

theorem aside_records {α : Type} {p : RunProcess α} (hp : Guarantees Aside p.run) :
    Triple A (records definition start P) p.run
      (outcome (fun _ => records definition start P) (wherever definition start)) :=
  triple_of_silent hp (fun _ _ haside => records_of_tables haside.run haside.nodeRuns)
    fun _ hs => hs.1

/-- A transaction: what it makes of the run and its rows. -/
theorem transact_records {f : RunTables → AppResult RunTables}
    (h : ∀ tables tables' run, tables.run = some run → P run tables.nodeRuns →
      f tables = .ok tables' → ∃ run', tables'.run = some run' ∧ R run' tables'.nodeRuns
        ∧ (run'.status = .paused → Halted definition start run' tables'.nodeRuns)) :
    Triple A (records definition start P) (transact f).run
      (outcome (fun _ => records definition start R) (wherever definition start)) := by
  refine triple_update ?_ fun s e hs _ => hs.1
  rintro s s' ⟨hresumable, run, hrun, hp⟩ hok
  cases hf : f s.tables with
  | error e =>
      rw [hf] at hok
      cases hok
  | ok tables =>
      rw [hf] at hok
      cases hok
      obtain ⟨run', hrun', hp', hpaused⟩ := h s.tables tables run hrun hp hf
      refine ⟨fun other hother => ?_, run', hrun', hp'⟩
      have hother : tables.run = some other := hother
      rw [hrun'] at hother
      cases hother
      exact hpaused

/-- An update of the run. -/
theorem updateRun_records {guard : WorkflowRunRecord → Bool}
    {f : WorkflowRunRecord → WorkflowRunRecord} {message : String}
    (h : ∀ run rows, P run rows → R (f run) rows)
    (hpaused : ∀ run rows, P run rows → (f run).status = .paused →
      Halted definition start (f run) rows) :
    Triple A (records definition start P) (transact (updateRun guard f message)).run
      (outcome (fun _ => records definition start R) (wherever definition start)) := by
  refine transact_records fun tables tables' run hrun hp hok => ?_
  obtain ⟨own, hown, _, rfl⟩ := updateRun_ok hok
  rw [hrun] at hown
  cases hown
  exact ⟨f run, rfl, h run _ hp, hpaused run _ hp⟩

/-- An attempt is inserted. -/
theorem insertAttempt_records {nodeId : Uuid} {status : WorkflowNodeStatus}
    {R : Attempt → WorkflowRunRecord → List WorkflowNodeRun → Prop}
    (hrunning : ∀ run rows, P run rows → run.status = .running)
    (h : ∀ run rows (attempt : Attempt), P run rows → attempt.val = nextAttempt nodeId rows →
      R attempt run (rows ++ [attemptRow nodeId attempt.val status])) :
    Triple A (records definition start P) (transactAttempt (insertAttempt nodeId status)).run
      (outcome (fun attempt => records definition start (R attempt))
        (wherever definition start)) := by
  refine triple_atomic fun s hs => ?_
  obtain ⟨hresumable, run, hrun, hp⟩ := hs
  -- a run that is running has not paused
  have hsafe : ∀ rows : List WorkflowNodeRun, ∀ other, s.tables.run = some other →
      other.status = .paused → Halted definition start other rows := by
    intro rows other hother hpaused
    rw [hrun] at hother
    cases hother
    rw [hrunning run _ hp] at hpaused
    cases hpaused
  unfold insertAttempt
  dsimp only
  by_cases hbound : nextAttempt nodeId s.tables.nodeRuns < 2 ^ 31
  · rw [dif_pos hbound]
    exact ⟨hsafe _, run, hrun, h run _ ⟨_, hbound⟩ hp rfl⟩
  · rw [dif_neg hbound]
    exact hsafe _

/-- A step of the registry. -/
theorem registry_records {f : RunState → AppResult RunState}
    (hsame : ∀ s s', f s = .ok s' → s'.tables = s.tables) :
    Triple A (records definition start P) (Process.update f : RunProcess Unit).run
      (outcome (fun _ => records definition start P) (wherever definition start)) := by
  refine triple_update (fun s s' hs hok => ?_) fun s e hs _ => hs.1
  have htables := hsame s s' hok
  exact records_of_tables (congrArg RunTables.run htables) (congrArg RunTables.nodeRuns htables) hs

theorem register_tables {s s' : RunState} (h : register s = .ok s') : s'.tables = s.tables := by
  unfold register at h
  split at h
  · cases h
  · cases h
    rfl

theorem removeRun_records :
    Triple A (records definition start P) removeRun.run
      (outcome (fun _ => records definition start P) (wherever definition start)) :=
  triple_atomic fun _ hs => hs

/-- The rows that a driver returns are those of the tables. -/
theorem requireRun_records :
    Triple A (records definition start P) requireRun.run
      (outcome (fun details => (wherever definition start).given (P details.run details.nodeRuns))
        (wherever definition start)) := by
  refine triple_read fun s hs => ?_
  obtain ⟨hresumable, run, hrun, hp⟩ := hs
  rw [hrun]
  exact ⟨hp, hresumable⟩

/-! ## §3. One turn. -/

/-- The run stands at a node, and the nodes before have left this. -/
structure AtHead (contexts : Contexts) (run : WorkflowRunRecord) (rows : List WorkflowNodeRun) :
    Prop where
  running : run.status = .running
  contexts : recordedContexts rows = contexts
  skipped : skippedNodes rows = []

/-- The node it stands at is set. -/
structure AtCurrent (contexts : Contexts) (current : Uuid) (run : WorkflowRunRecord)
    (rows : List WorkflowNodeRun) : Prop extends AtHead contexts run rows where
  current : run.currentNodeId = some current

/-- The last row is that of the attempt that is under way. -/
def Attempting (contexts : Contexts) (current : Uuid) (attempt : Attempt)
    (run : WorkflowRunRecord) (rows : List WorkflowNodeRun) : Prop :=
  ∃ earlier own, rows = earlier ++ [own] ∧ AtCurrent contexts current run earlier
    ∧ own.nodeId = current ∧ own.attempt = nextAttempt current earlier
    ∧ own.attempt = attempt.val ∧ own.status = .running

/-- What is recorded once a node has come to this. -/
def leftBy (contexts : Contexts) (current : Uuid) (outcome : StepOutcome) : Contexts :=
  if outcome.status = .succeeded then insertContext contexts current outcome else contexts

/-- How a run ends at a node: its status, and the nodes that are skipped. -/
def endOf (definition : WorkflowDefinition) (visited : List Uuid) (status : WorkflowNodeStatus) :
    WorkflowRunStatus × List Uuid :=
  if status = .succeeded then
    (.succeeded, (definition.nodes.map WorkflowNode.id).filter fun id => !visited.contains id)
  else (endStatus status, [])

section Turn

variable {context : RunContext} {release : RunProcess Unit}
variable {current : Uuid} {contexts : Contexts} {visited : List Uuid} {step : StepOutcome}
variable {attempt : Attempt} {node : WorkflowNode Uuid}

theorem setCurrentNode_records :
    Triple A (records definition start (AtHead contexts)) (transact (setCurrentNode current)).run
      (outcome (fun _ => records definition start (AtCurrent contexts current))
        (wherever definition start)) := by
  apply updateRun_records
  · exact fun run rows h => ⟨⟨h.running, h.contexts, h.skipped⟩, rfl⟩
  · intro run rows h hpaused
    have hrunning : run.status = .running := h.running
    rw [show run.status = .paused from hpaused] at hrunning
    cases hrunning

theorem startNodeAttempt_records :
    Triple A (records definition start (AtCurrent contexts current))
      (transactAttempt (startNodeAttempt current)).run
      (outcome (fun attempt => records definition start (Attempting contexts current attempt))
        (wherever definition start)) := by
  apply insertAttempt_records
  · exact fun run rows h => h.running
  · exact fun run rows attempt h hattempt =>
      ⟨rows, _, rfl, h, rfl, hattempt, rfl, rfl⟩

/-- An update of the attempt that is under way. -/
theorem updateNode_records {update : RunTables → AppResult RunTables}
    {f : WorkflowNodeRun → WorkflowNodeRun} {message : String}
    (hupdate : ∀ tables tables', update tables = .ok tables' →
      updateNode current attempt.val f message tables = .ok tables')
    (h : ∀ run earlier own, AtCurrent contexts current run earlier → own.nodeId = current →
      own.attempt = nextAttempt current earlier → own.attempt = attempt.val →
      own.status = .running → R run (earlier ++ [f own])) :
    Triple A (records definition start (Attempting contexts current attempt)) (transact update).run
      (outcome (fun _ => records definition start R) (wherever definition start)) := by
  refine transact_records fun tables tables' run hrun hattempting hok => ?_
  obtain ⟨earlier, own, hrows, hat, hid, hnext, hattempt, hrunning⟩ := hattempting
  have hupdated := updateNode_next hrows (hid ▸ hnext) hrunning f message
  rw [hid, hattempt, hupdate tables tables' hok] at hupdated
  cases Except.ok.inj hupdated
  refine ⟨run, hrun, h run earlier own hat hid hnext hattempt hrunning, fun hpaused => ?_⟩
  rw [hat.running] at hpaused
  cases hpaused

theorem linkExecution_records (executionId : Option Uuid) :
    Triple A (records definition start (Attempting contexts current attempt))
      (linkExecution current attempt executionId).run
      (outcome (fun _ => records definition start (Attempting contexts current attempt))
        (wherever definition start)) := by
  cases executionId with
  | none => exact triple_ok fun _ hs => hs
  | some executionId =>
      exact updateNode_records (fun _ _ hok => hok)
        fun run earlier own hat hid hnext hattempt hrunning =>
          ⟨earlier, _, rfl, hat, hid, hnext, hattempt, hrunning⟩

/-- What the row of a finished attempt leaves. -/
theorem rowContext_finished (hsummarised : Summarised step) (own : WorkflowNodeRun) :
    rowContext (finishedRow (finishOf current attempt step) own)
      = if step.status = .succeeded then some (contextOf step) else none := by
  have hsummary : capUtf8 step.outputSummary (8 * 1024) = step.outputSummary := hsummarised
  show (if step.status = .succeeded then
      some (ConditionContext.mk step.exitCode step.result
        (capUtf8 step.outputSummary (8 * 1024))) else none) = _
  rw [hsummary]
  rfl

/-- The attempt is finished: the rows say what the node has left. -/
theorem finishNode_records (hfresh : contexts current = none)
    (hstatus : step.status ∈ [.succeeded, .failed, .cancelled, .uncertain])
    (hsummarised : Summarised step) :
    Triple A (records definition start (Attempting contexts current attempt))
      (transact (finishNode (finishOf current attempt step))).run
      (outcome
        (fun _ => records definition start (AtCurrent (leftBy contexts current step) current))
        (wherever definition start)) := by
  apply updateNode_records (f := finishedRow (finishOf current attempt step))
  · intro tables tables' hok
    unfold finishNode at hok
    split at hok
    · cases hok
    · split at hok
      · cases hok
      · exact hok
  · intro run earlier own hat hid hnext _ _
    have hown : (finishedRow (finishOf current attempt step) own).attempt
        = nextAttempt (finishedRow (finishOf current attempt step) own).nodeId earlier := by
      show own.attempt = nextAttempt own.nodeId earlier
      rw [hid, hnext]
    refine ⟨⟨hat.running, funext fun id => ?_, ?_⟩, hat.current⟩
    · rw [recordedContexts_append hown, rowContext_finished hsummarised, hat.contexts]
      show (if id = own.nodeId then _ else _) = leftBy contexts current step id
      unfold leftBy insertContext
      rw [hid]
      by_cases hsucceeded : step.status = .succeeded
      · rw [if_pos hsucceeded, if_pos hsucceeded]
      · rw [if_neg hsucceeded, if_neg hsucceeded]
        by_cases hsame : id = current
        · rw [if_pos hsame, hsame, hfresh]
        · rw [if_neg hsame]
    · have hother : step.status ≠ .skipped := by
        intro heq
        rw [heq] at hstatus
        simp at hstatus
      rw [skippedNodes_append, hat.skipped]
      exact if_neg hother

/-- The body of a node, which leaves the rows alone. -/
theorem bodyOf_records (hcapped : ∀ question answer, A question answer → Capped question answer)
    (hstop : ∀ message, node.config = .stop message → utf8Len message ≤ 8 * 1024) :
    Triple A (records definition start P) (bodyOf context node attempt contexts)
      (fun step => (records definition start P).given (Came contexts node.config step)) := by
  have hexecute : Triple A (records definition start P)
      (executeNode context.runId node.id attempt contexts node.config)
      (fun step => (records definition start P).given (Came contexts node.config step)) :=
    triple_of_yieldsIn (executeNode_aside _ _ _ _ _) (executeNode_came hcapped hstop)
      fun _ _ haside => records_of_tables haside.run haside.nodeRuns
  have hbegan : Triple A (records definition start P)
      (Process.atomic fun s => ((), note (.began node.id) s))
      (fun _ => records definition start P) :=
    triple_atomic fun _ hs => hs
  unfold bodyOf
  refine triple_bind hbegan fun _ => ?_
  refine triple_bind hexecute fun step => triple_given fun hcame => ?_
  exact triple_atomic fun _ hs => ⟨hcame, hs⟩

/-- The nodes that were not visited are recorded as skipped. -/
theorem recordSkipped_records {done : List Uuid} {nodes : List (WorkflowNode Uuid)} :
    Triple A
      (records definition start fun run rows =>
        run.status = .running ∧ skippedNodes rows = done)
      (recordSkipped context visited nodes).run
      (outcome
        (fun _ => records definition start fun run rows =>
          run.status = .running ∧ skippedNodes rows
            = done ++ (nodes.map WorkflowNode.id).filter fun id => !visited.contains id)
        (wherever definition start)) := by
  induction nodes generalizing done with
  | nil =>
      refine triple_ok fun s hs => ?_
      rw [List.map_nil, List.filter_nil, List.append_nil]
      exact hs
  | cons node rest ih =>
      unfold recordSkipped
      rw [List.map_cons, List.filter_cons]
      by_cases hvisited : visited.contains node.id = true
      · rw [if_pos hvisited, hvisited]
        exact ih
      · rw [if_neg hvisited]
        rw [Bool.not_eq_true] at hvisited
        rw [hvisited]
        have hskip : Triple A
            (records definition start fun run rows =>
              run.status = .running ∧ skippedNodes rows = done)
            (transactAttempt (recordSkippedNode node.id)).run
            (outcome
              (fun _ => records definition start fun run rows =>
                run.status = .running ∧ skippedNodes rows = done ++ [node.id])
              (wherever definition start)) := by
          apply insertAttempt_records
          · exact fun run rows h => h.1
          · intro run rows attempt h _
            refine ⟨h.1, ?_⟩
            rw [skippedNodes_append, h.2]
            rfl
        refine triple_andThen hskip fun attempt => ?_
        refine triple_andThen (aside_records (emit_aside _)) fun _ => ?_
        refine Triple.weaken ih (fun _ hs => hs) fun r s hs => ?_
        rw [List.append_assoc] at hs
        exact hs

/-- The run is finished, and its end is made known. -/
theorem finishRunWith_records {finish : FinishWorkflowRun}
    (h : ∀ run rows, P run rows → R
      { run with status := finish.status, errorCategory := finish.errorCategory,
                 errorMessage := capUtf8 finish.errorMessage (8 * 1024),
                 retryable := finish.retryable } rows)
    (hpaused : ∀ run rows, P run rows → finish.status = .paused → Halted definition start run rows) :
    Triple A (records definition start P) (finishRunWith context finish).run
      (outcome (fun _ => records definition start R) (wherever definition start)) := by
  have hfinish : Triple A (records definition start P) (transact (finishRun finish)).run
      (outcome (fun _ => records definition start R) (wherever definition start)) := by
    refine transact_records fun tables tables' run hrun hp hok => ?_
    unfold finishRun at hok
    split at hok
    · obtain ⟨own, hown, _, rfl⟩ := updateRun_ok hok
      rw [hrun] at hown
      cases hown
      refine ⟨_, rfl, h run _ hp, fun hstatus => ?_⟩
      exact ⟨(hpaused run _ hp hstatus).skipped, (hpaused run _ hp hstatus).passed⟩
    · cases hok
  unfold finishRunWith
  refine triple_andThen hfinish fun _ => ?_
  refine triple_andThen (aside_records (emit_aside _)) fun _ => ?_
  refine triple_andThen (triple_lift (triple_query fun _ _ _ hs => hs)) fun durationMs => ?_
  exact aside_records (emit_aside _)

/-- The run has ended with this status, and these nodes are skipped. -/
def Concluded (definition : WorkflowDefinition) (visited : List Uuid) (status : WorkflowNodeStatus)
    (details : WorkflowRunDetails) : Prop :=
  (details.run.status, skippedNodes details.nodeRuns) = endOf definition visited status

/-- What the end of a turn says. -/
def concluded (definition : WorkflowDefinition) (start : Uuid) (visited : List Uuid)
    (current : Uuid) (contexts : Contexts) (step : StepOutcome) :
    Turn → Assertion Cancels (Resumable definition start)
  | .ended details =>
      (wherever definition start).given
        ((step.status = .succeeded →
            nextNode definition.edges current step.conditionResult = .ok none)
          ∧ Concluded definition visited step.status details)
  | .goOn next contexts' visited' =>
      (records definition start (AtHead contexts')).given
        (step.status = .succeeded
          ∧ nextNode definition.edges current step.conditionResult = .ok (some next)
          ∧ contexts' = insertContext contexts current step ∧ visited' = visited)

/-- The run has ended, and its rows are shown after it has been released. -/
theorem release_records {Q : Turn → Assertion Cancels (Resumable definition start)}
    (hrelease : ∀ P, Triple A (records definition start P) release.run
      (outcome (fun _ => records definition start P) (wherever definition start)))
    (h : ∀ details : WorkflowRunDetails, P details.run details.nodeRuns →
      ∀ s, Resumable definition start s → (Q (.ended details)).holds s) :
    Triple A (records definition start P)
      (do
        release
        let details ← requireRun
        pure (.ended details) : RunProcess Turn).run
      (outcome Q (wherever definition start)) := by
  refine triple_andThen (hrelease P) fun _ => ?_
  refine triple_andThen requireRun_records fun details => triple_given fun hp => ?_
  exact triple_ok (h details hp)

/-- **The end of a turn.** -/
theorem conclude_records
    (hrelease : ∀ P, Triple A (records context.definition start P) release.run
      (outcome (fun _ => records context.definition start P)
        (wherever context.definition start)))
    {steps : List Executed}
    (hpassed : Passed context.definition (.initial start) steps
      { current := current, contexts := contexts }) :
    Triple A
      (records context.definition start (AtCurrent (leftBy contexts current step) current))
      (conclude context release current contexts visited step).run
      (outcome (concluded context.definition start visited current contexts step)
        (wherever context.definition start)) := by
  unfold conclude
  by_cases hsucceeded : step.status = .succeeded
  · rw [if_neg (not_not.mpr hsucceeded)]
    have hleft : leftBy contexts current step = insertContext contexts current step :=
      if_pos hsucceeded
    rw [hleft]
    refine triple_andThen (aside_records (emitCondition_aside _ _ _)) fun _ => ?_
    cases hnext : nextNode context.definition.edges current step.conditionResult with
    | error e => exact triple_throw fun _ hs => hs.1
    | ok found =>
        apply triple_known
        cases found with
        | some next =>
            refine triple_ok fun s hs => ⟨⟨hsucceeded, hnext, rfl, rfl⟩, hs.1, ?_⟩
            obtain ⟨run, hrun, hat⟩ := hs.2
            exact ⟨run, hrun, hat.toAtHead⟩
        | none =>
            have hskipped : Triple A
                (records context.definition start
                  (AtCurrent (insertContext contexts current step) current))
                (recordSkipped context visited context.definition.nodes).run
                (outcome
                  (fun _ => records context.definition start fun run rows =>
                    run.status = .running ∧ skippedNodes rows
                      = [] ++ (context.definition.nodes.map WorkflowNode.id).filter
                        fun id => !visited.contains id)
                  (wherever context.definition start)) := by
              refine recordSkipped_records.weaken (fun s hs => ⟨hs.1, ?_⟩) fun _ _ h => h
              obtain ⟨run, hrun, hat⟩ := hs.2
              exact ⟨run, hrun, hat.running, hat.skipped⟩
            refine triple_andThen hskipped fun _ => ?_
            refine triple_andThen (finishRunWith_records
              (R := fun run rows => run.status = .succeeded
                ∧ skippedNodes rows = (context.definition.nodes.map WorkflowNode.id).filter
                  fun id => !visited.contains id)
              (fun run rows h => ⟨rfl, h.2⟩) fun _ _ _ h => by cases h) fun _ => ?_
            refine release_records hrelease fun details hp s hs => ⟨⟨fun _ => hnext, ?_⟩, hs⟩
            unfold Concluded endOf
            rw [if_pos hsucceeded, hp.1, hp.2]
  · rw [if_pos hsucceeded]
    have hleft : leftBy contexts current step = contexts := if_neg hsucceeded
    rw [hleft]
    refine triple_andThen (finishRunWith_records
      (R := fun run rows => run.status = endStatus step.status ∧ skippedNodes rows = [])
      (fun run rows h => ⟨rfl, h.skipped⟩) fun run rows h _ => ?_) fun _ => ?_
    · -- a retry goes on from here
      exact ⟨h.skipped, current, steps, h.current, h.contexts ▸ hpassed⟩
    · refine release_records hrelease fun details hp s hs =>
        ⟨⟨fun h => absurd h hsucceeded, ?_⟩, hs⟩
      unfold Concluded endOf
      rw [if_neg hsucceeded, hp.1, hp.2]

/-! ## §4. The loop. -/

/-- What is assumed of an accepted workflow: its graph, its first node and its messages. -/
structure Runnable (definition : WorkflowDefinition) (start : Uuid) : Prop where
  accepted : AcceptedGraph definition.draft
  start : start ∈ definition.nodes.map WorkflowNode.id
  stops : ∀ node ∈ definition.nodes, ∀ message, node.config = .stop message →
    utf8Len message ≤ 8 * 1024

/-- What a turn with a log says: the node is explained, and leads on or ends the run. -/
def turned (definition : WorkflowDefinition) (start : Uuid) (visited : List Uuid)
    (position : Position) : Executed × Turn → Assertion Cancels (Resumable definition start)
  | (step, .ended details) =>
      (wherever definition start).given
        (step.position = position ∧ Explained definition step
          ∧ (step.outcome.status = .succeeded →
            nextNode definition.edges step.nodeId step.outcome.conditionResult = .ok none)
          ∧ Concluded definition (position.current :: visited) step.outcome.status details)
  | (step, .goOn next contexts visited') =>
      (records definition start (AtHead contexts)).given
        (step.position = position ∧ Leads definition step next
          ∧ contexts = (step.onward next).contexts ∧ visited' = position.current :: visited)

variable {steps : List Executed}

/-- **One turn.** -/
theorem turnLogged_records (hrunnable : Runnable context.definition start)
    (hcapped : ∀ question answer, A question answer → Capped question answer)
    (hrelease : ∀ P, Triple A (records context.definition start P) release.run
      (outcome (fun _ => records context.definition start P)
        (wherever context.definition start)))
    (hpassed : Passed context.definition (.initial start) steps
      { current := current, contexts := contexts }) :
    Triple A (records context.definition start (AtHead contexts))
      (turnLogged context release current contexts visited).run
      (outcome
        (turned context.definition start visited { current := current, contexts := contexts })
        (wherever context.definition start)) := by
  -- nothing has been left yet by the node that the run has come to
  have hfresh : contexts current = none := by
    have hnew := (hpassed.nodup hrunnable.accepted hrunnable.start).2.1
    have hsome := (hpassed.contexts current).not.mpr (by simpa [Position.initial] using hnew)
    exact Option.not_isSome_iff_eq_none.mp hsome
  unfold turnLogged
  refine triple_andThen setCurrentNode_records fun _ => ?_
  cases hfind : context.definition.nodes.find? fun node => node.id == current with
  | none => exact triple_throw fun _ hs => hs.1
  | some node =>
      have hnode := List.mem_of_find?_eq_some hfind
      have hid : node.id = current := by
        have hfound := List.find?_some hfind
        exact beq_iff_eq.mp hfound
      dsimp only
      refine triple_andThen startNodeAttempt_records fun attempt => ?_
      refine triple_andThen (aside_records (emit_aside _)) fun _ => ?_
      have hpoll : Triple A
          (records context.definition start (Attempting contexts current attempt))
          (poll current).run
          (outcome
            (fun _ => records context.definition start (Attempting contexts current attempt))
            (wherever context.definition start)) :=
        triple_atomic fun _ hs => hs
      refine triple_andThen hpoll fun cancelled => ?_
      have hrecorded : ∀ step : StepOutcome,
          step.status ∈ [.succeeded, .failed, .cancelled, .uncertain] → Summarised step →
          Explained context.definition
            { nodeId := current, contexts := contexts, cancelled := cancelled, outcome := step } →
          Triple A
            (records context.definition start (Attempting contexts current attempt))
            (do
              linkExecution current attempt step.executionId
              transact (finishNode (finishOf current attempt step))
              emit (.nodeStatusChanged context.runId current attempt step.status
                step.executionId step.errorMessage)
              let turn ← conclude context release current contexts (current :: visited) step
              pure
                ({ nodeId := current, contexts := contexts, cancelled := cancelled,
                   outcome := step : Executed }, turn)).run
            (outcome
              (turned context.definition start visited
                { current := current, contexts := contexts })
              (wherever context.definition start)) := by
        intro step hstatus hsummarised hexplained
        refine triple_andThen (linkExecution_records step.executionId) fun _ => ?_
        refine triple_andThen (finishNode_records hfresh hstatus hsummarised) fun _ => ?_
        refine triple_andThen (aside_records (emit_aside _)) fun _ => ?_
        refine triple_andThen (conclude_records hrelease hpassed) fun turn => ?_
        cases turn with
        | ended details =>
            exact triple_given fun hended =>
              triple_ok fun s hs => ⟨⟨rfl, hexplained, hended.1, hended.2⟩, hs⟩
        | goOn next contexts' visited' =>
            refine triple_given fun hgoes => triple_ok fun s hs => ?_
            obtain ⟨hsucceeded, hnext, hcontexts, hvisited⟩ := hgoes
            exact ⟨⟨rfl, ⟨hexplained, hsucceeded, hnext⟩, hcontexts, hvisited⟩, hs⟩
      cases cancelled with
      | true =>
          refine triple_known (hrecorded cancelledOutcome (by simp [cancelledOutcome]) rfl ?_)
          exact ⟨⟨node, hnode, hid, fun h => by cases h⟩, fun _ => rfl⟩
      | false =>
          refine triple_andThen (triple_lift (bodyOf_records hcapped
            (hrunnable.stops node hnode))) fun step => triple_given fun hcame => ?_
          refine hrecorded step hcame.status hcame.summarised ?_
          exact ⟨⟨node, hnode, hid, fun _ => hcame⟩, fun h => by cases h⟩

/-- What the loop with a log says: it has followed the course to its end. -/
def Followed (definition : WorkflowDefinition) (visited : List Uuid) (position : Position)
    (r : Option WorkflowRunDetails × List Executed) : Prop :=
  ∃ details last, r.1 = some details ∧ r.2.getLast? = some last
    ∧ Course definition position r.2
    ∧ Concluded definition ((r.2.map Executed.nodeId).reverse ++ visited) last.outcome.status
      details

/-- **The loop follows the course from where it starts, and the rows mirror it.** -/
theorem turnsLogged_records (hrunnable : Runnable context.definition start)
    (hcapped : ∀ question answer, A question answer → Capped question answer)
    (hrelease : ∀ P, Triple A (records context.definition start P) release.run
      (outcome (fun _ => records context.definition start P)
        (wherever context.definition start)))
    (hpassed : Passed context.definition (.initial start) steps
      { current := current, contexts := contexts })
    {fuel : Nat} (hfuel : context.definition.nodes.length ≤ fuel + steps.length) :
    Triple A (records context.definition start (AtHead contexts))
      (turnsLogged context release fuel current contexts visited).run
      (outcome
        (fun r => (wherever context.definition start).given
          (Followed context.definition visited { current := current, contexts := contexts } r))
        (wherever context.definition start)) := by
  induction fuel generalizing steps current contexts visited with
  | zero =>
      -- fewer nodes have been passed than there are
      have hlength := (hpassed.nodup hrunnable.accepted hrunnable.start).2.2.2
      omega
  | succ fuel ih =>
      unfold turnsLogged
      refine triple_andThen (turnLogged_records hrunnable hcapped hrelease hpassed) fun r => ?_
      obtain ⟨step, turn⟩ := r
      cases turn with
      | ended details =>
          refine triple_given fun hended => triple_ok fun s hs => ⟨?_, hs⟩
          obtain ⟨hposition, hexplained, hlast, hconcluded⟩ := hended
          refine ⟨details, step, rfl, rfl, hposition ▸ .last hexplained hlast, ?_⟩
          have hid : step.nodeId = current := congrArg Position.current hposition
          show Concluded _ ([step.nodeId] ++ visited) _ _
          rw [hid]
          exact hconcluded
      | goOn next contexts' visited' =>
          refine triple_given fun hgoes => ?_
          obtain ⟨hposition, hleads, rfl, rfl⟩ := hgoes
          have hsteps : Passed context.definition (.initial start) (steps ++ [step])
              (step.onward next) :=
            Passed.snoc (hposition ▸ hpassed) hleads
          have hfuel' : context.definition.nodes.length ≤ fuel + (steps ++ [step]).length := by
            rw [List.length_append, List.length_singleton]
            omega
          refine triple_andThen (ih hsteps hfuel') fun r => triple_given fun hfollowed => ?_
          obtain ⟨details, last, hdetails, hlast, hcourse, hconcluded⟩ := hfollowed
          refine triple_ok fun s hs => ⟨?_, hs⟩
          have hid : step.nodeId = current := congrArg Position.current hposition
          refine ⟨details, last, hdetails, ?_, hposition ▸ .step hleads hcourse, ?_⟩
          · show (step :: r.2).getLast? = some last
            rw [List.getLast?_cons, hlast]
            rfl
          · show Concluded _ (((step :: r.2).map Executed.nodeId).reverse ++ visited) _ _
            rw [List.map_cons, List.reverse_cons, List.append_assoc, hid]
            exact hconcluded

end Turn

/-! ## §5. The drivers. -/

section Drivers

variable [UuidCrate] {catalog : List TaskDefinition} {pathIsAbsolute : Text → Bool}

theorem runnable_of_valid
    (hvalid : (validateWorkflow catalog pathIsAbsolute definition.draft).valid = true)
    (hstart : startNodeId definition.draft = some start) : Runnable definition start where
  accepted := acceptedGraph_of_valid hvalid
  start := (start_mem hstart).1
  stops node hnode message hconfig := by
    have hnodeValid := validateNode_of_valid hvalid hnode
    unfold validateNode at hnodeValid
    split at hnodeValid
    · cases hnodeValid
    · rw [hconfig, validateConfig] at hnodeValid
      split at hnodeValid
      · cases hnodeValid
      next hmessage =>
        simp only [Bool.or_eq_true, decide_eq_true_eq, not_or] at hmessage
        omega

/-- The run has not been created. -/
def fresh (definition : WorkflowDefinition) (start : Uuid) :
    Assertion Cancels (Resumable definition start) where
  holds s := s.tables.run = none ∧ s.tables.nodeRuns = []
  stable s s' hcancel h := by
    dsimp only
    rw [hcancel.keeps.1]
    exact h
  safe s h run hrun := by
    rw [h.1] at hrun
    cases hrun

/-- **An uninterrupted run follows the course from the first node.** -/
theorem runLogged_records (hrunnable : Runnable definition start)
    (hstart : startNodeId definition.draft = some start)
    (hcapped : ∀ question answer, A question answer → Capped question answer)
    (request : StartWorkflowRunRequest) :
    Triple A (fresh definition start)
      (runLogged catalog pathIsAbsolute (some definition) request).run
      (outcome
        (fun r => (wherever definition start).given
          (Followed definition [] (.initial start) r))
        (wherever definition start)) := by
  obtain ⟨_, node, hfind, hid⟩ := start_mem hstart
  have hleave : ∀ s, (fresh definition start).holds s → (wherever definition start).holds s :=
    (fresh definition start).safe
  unfold runLogged runWith
  refine triple_andThen ((preflight_spec (False.elim : False → _)).leave fun _ => hleave _)
    fun found => triple_given fun hfound => ?_
  obtain ⟨rfl, _⟩ := hfound
  rw [hfind]
  dsimp only
  have hdraw : Triple A (fresh found start) drawId.run
      (outcome (fun _ => fresh found start) (wherever found start)) :=
    triple_lift (triple_query fun _ _ _ hs => hs)
  refine triple_andThen hdraw fun runId => ?_
  have hcreate : Triple A (fresh found start)
      (transact (createRun runId found.id found.version request.serverId)).run
      (outcome
        (fun _ => records found start fun run rows => run.status = .queued ∧ rows = [])
        (wherever found start)) := by
    refine triple_update (fun s s' hs hok => ?_) fun s e hs _ => hleave s hs
    unfold createRun at hok
    split at hok
    · cases hok
    · cases hok
      refine ⟨fun run hrun hpaused => ?_, _, rfl, rfl, hs.2⟩
      cases Option.some.inj hrun
      cases hpaused
  refine triple_andThen hcreate fun _ => ?_
  refine triple_andThen (registry_records fun s s' => register_tables) fun _ => ?_
  have hrunning : Triple A
      (records found start fun run rows => run.status = .queued ∧ rows = [])
      (transact (markRunRunning node.id)).run
      (outcome (fun _ => records found start (AtHead fun _ => none)) (wherever found start)) := by
    apply updateRun_records
    · intro run rows h
      rw [h.2]
      exact ⟨rfl, rfl, rfl⟩
    · intro run rows h hpaused
      cases hpaused
  refine triple_andThen hrunning fun _ => ?_
  refine triple_andThen (aside_records (emit_aside _)) fun _ => ?_
  rw [hid]
  have hcontext : Runnable (RunContext.mk found runId).definition start := hrunnable
  exact turnsLogged_records hcontext hcapped (fun P => removeRun_records) (.here _) (Nat.le_refl _)

omit [UuidCrate] in
theorem retryableNode_ok {details : WorkflowRunDetails} {current : Uuid}
    (h : retryableNode details = .ok current) :
    details.run.status = .paused ∧ details.run.currentNodeId = some current := by
  unfold retryableNode at h
  split at h
  · cases h
  next hpaused =>
    rw [Bool.not_eq_true, Bool.or_eq_false_iff, bne_eq_false_iff_eq] at hpaused
    refine ⟨hpaused.1, ?_⟩
    cases hcurrent : details.run.currentNodeId with
    | none =>
        rw [hcurrent] at h
        cases h
    | some failing =>
        rw [hcurrent] at h
        dsimp only at h
        split at h
        · cases h
        · split at h
          · cases h
          · exact congrArg some (Except.ok.inj h)

/-- What a retry that goes on has found: the run had halted, and it is followed from there. -/
def Resumed (definition : WorkflowDefinition) (start : Uuid) (run : WorkflowRunRecord)
    (rows : List WorkflowNodeRun) (r : Option WorkflowRunDetails × List Executed) : Prop :=
  skippedNodes rows = [] ∧ ∃ current steps, run.currentNodeId = some current
    ∧ Passed definition (.initial start) steps
        { current := current, contexts := recordedContexts rows }
    ∧ Followed definition (recordedNodes rows)
        { current := current, contexts := recordedContexts rows } r

/-- **A retry follows the course from the node at which the run has stopped.** -/
theorem retryLogged_records (hrunnable : Runnable definition start)
    (hcapped : ∀ question answer, A question answer → Capped question answer)
    (dangerousConfirmed : Bool) (run₀ : WorkflowRunRecord) (rows₀ : List WorkflowNodeRun) :
    Triple A (records definition start fun run rows => run = run₀ ∧ rows = rows₀)
      (retryLogged catalog pathIsAbsolute (some definition) dangerousConfirmed).run
      (outcome
        (fun r => (wherever definition start).given (Resumed definition start run₀ rows₀ r))
        (wherever definition start)) := by
  unfold retryLogged retryWith
  have hread : Triple A (records definition start fun run rows => run = run₀ ∧ rows = rows₀)
      requireRun.run
      (outcome
        (fun details => (records definition start fun run rows =>
          run = run₀ ∧ rows = rows₀).given (details.run = run₀ ∧ details.nodeRuns = rows₀))
        (wherever definition start)) := by
    refine triple_read fun s hs => ?_
    obtain ⟨hresumable, run, hrun, hsame, hrows⟩ := hs
    rw [hrun]
    exact ⟨⟨hsame, hrows⟩, hresumable, run, hrun, hsame, hrows⟩
  refine triple_andThen hread fun details => triple_given fun hshown => ?_
  obtain ⟨rfl, rfl⟩ := hshown
  cases hretryable : retryableNode details with
  | error e => exact triple_throw fun _ hs => hs.1
  | ok current =>
      apply triple_known
      obtain ⟨hpaused, hcurrent⟩ := retryableNode_ok hretryable
      have hhalted : ∀ s : RunState, (records definition start fun run rows =>
          run = details.run ∧ rows = details.nodeRuns).holds s →
          Halted definition start details.run details.nodeRuns := by
        rintro s ⟨hresumable, run, hrun, rfl, hrows⟩
        rw [← hrows]
        exact hresumable details.run hrun hpaused
      refine triple_of_fact hhalted fun hhalted => ?_
      obtain ⟨found', steps, hcurrent', hpassed⟩ := hhalted.passed
      rw [hcurrent] at hcurrent'
      cases hcurrent'
      refine triple_andThen ((preflight_spec (False.elim : False → _)).leave fun _ hs => hs.1)
        fun found => triple_given fun hfound => ?_
      obtain ⟨rfl, _⟩ := hfound
      have hresume : Triple A
          (records found start fun run rows => run = details.run ∧ rows = details.nodeRuns)
          (transact resumePausedRun).run
          (outcome
            (fun _ => records found start (AtHead (recordedContexts details.nodeRuns)))
            (wherever found start)) := by
        apply updateRun_records
        · intro run rows h
          rw [h.2]
          exact ⟨rfl, rfl, hhalted.skipped⟩
        · intro run rows h hstatus
          cases hstatus
      refine triple_andThen hresume fun _ => ?_
      refine triple_andThen (registry_records fun s s' => register_tables) fun _ => ?_
      refine triple_andThen (aside_records (emit_aside _)) fun _ => ?_
      have hremove : Triple A (wherever found start) removeRun.run
          (outcome (fun _ => wherever found start) (wherever found start)) :=
        triple_atomic fun _ hs => hs
      -- the loop of a retry releases nothing itself
      have hcontext : Runnable (RunContext.mk found details.run.id).definition start := hrunnable
      refine triple_andThen (triple_lift (turnsLogged_records hcontext hcapped
        (fun P => triple_ok fun _ hs => hs) hpassed (Nat.le_add_right found.nodes.length _)))
        fun r => ?_
      cases r with
      | ok r =>
          refine triple_given fun hfollowed => ?_
          refine triple_andThen hremove fun _ => triple_known (triple_ok fun s hs => ?_)
          exact ⟨⟨hhalted.skipped, current, steps, hcurrent, hpassed, hfollowed⟩, hs⟩
      | error e => exact triple_andThen hremove fun _ => triple_throw fun _ hs => hs

omit [UuidCrate] in
/-- A driver without its log. -/
theorem unlogged_spec {C : RunState → Prop} {U E : Assertion Cancels C}
    {Q : Option WorkflowRunDetails × List Executed → Assertion Cancels C}
    {p : RunProcess (Option WorkflowRunDetails)}
    {q : RunProcess (Option WorkflowRunDetails × List Executed)} (hsame : p = Prod.fst <$> q)
    (h : Triple A U q.run (outcome Q E)) (hleave : ∀ r s, (Q r).holds s → E.holds s) :
    Triple A U p.run (outcome (fun _ => E) E) := by
  rw [hsame, map_eq_pure_bind]
  exact triple_andThen h fun r => triple_ok fun s hs => hleave r s hs

/-! ## §6. The life of a run. -/

/-- The application starts again. -/
def restarted (s : RunState) : RunState :=
  { s with tables := recoverInterrupted s.tables, active := none }

/-- The states of a run: a new run, retries and restarts, each of them at any point. -/
inductive Lived (definition : WorkflowDefinition) (catalog : List TaskDefinition)
    (pathIsAbsolute : Text → Bool) (A : (question : RunQuestion) → RunAnswer question → Prop) :
    RunState → Prop where
  | run (request : StartWorkflowRunRequest) {p} {s : RunState} :
      ReachesIn Cancels A
        ((run catalog pathIsAbsolute (some definition) request).run, initialState) (p, s) →
      Lived definition catalog pathIsAbsolute A s
  | retry (dangerousConfirmed : Bool) {p} {s s' : RunState} :
      Lived definition catalog pathIsAbsolute A s →
      ReachesIn Cancels A
        ((retryFailedNode catalog pathIsAbsolute (some definition) dangerousConfirmed).run, s)
        (p, s') → Lived definition catalog pathIsAbsolute A s'
  | restart {s : RunState} : Lived definition catalog pathIsAbsolute A s →
      Lived definition catalog pathIsAbsolute A (restarted s)

omit [UuidCrate] in
/-- A change of rows that keeps the attempts of nodes keeps which is the latest. -/
theorem latestNodeRun_map {f : WorkflowNodeRun → WorkflowNodeRun}
    (hid : ∀ row, (f row).nodeId = row.nodeId) (hattempt : ∀ row, (f row).attempt = row.attempt)
    (rows : List WorkflowNodeRun) (id : Uuid) :
    latestNodeRun (rows.map f) id = (latestNodeRun rows id).map f := by
  induction rows using List.reverseRecOn with
  | nil => rfl
  | append_singleton rows row ih =>
      rw [List.map_append, List.map_singleton, latestNodeRun_append, latestNodeRun_append, ih, hid]
      by_cases hsame : row.nodeId = id
      · rw [if_pos hsame, if_pos hsame]
        cases latestNodeRun rows id with
        | none => rfl
        | some latest =>
            dsimp only [Option.map_some]
            rw [hattempt, hattempt]
            split <;> rfl
      · rw [if_neg hsame, if_neg hsame]

omit [UuidCrate] in
/-- A restart leaves a run that has paused as it is. -/
theorem restarted_resumable {s : RunState} (h : Resumable definition start s) :
    Resumable definition start (restarted s) := by
  intro run' hrun' hpaused
  obtain ⟨run, hrun, rfl⟩ := Option.map_eq_some_iff.mp hrun'
  by_cases hrunning : run.status = .running
  · rw [if_pos hrunning] at hpaused
    cases hpaused
  · rw [if_neg hrunning] at hpaused ⊢
    obtain ⟨hskipped, current, steps, hcurrent, hpassed⟩ := h run hrun hpaused
    have hcontexts : recordedContexts (recoverInterrupted s.tables).nodeRuns
        = recordedContexts s.tables.nodeRuns := by
      funext id
      unfold recordedContexts recoverInterrupted
      rw [latestNodeRun_map (fun row => by split <;> rfl) (fun row => by split <;> rfl)]
      cases latestNodeRun s.tables.nodeRuns id with
      | none => rfl
      | some row =>
          rw [Option.map_some, Option.bind_some, Option.bind_some]
          by_cases hrow : row.status = .running
          · simp [hrow]
          · rw [if_neg hrow]
    refine ⟨?_, current, steps, hcurrent, ?_⟩
    · show skippedNodes (recoverInterrupted s.tables).nodeRuns = []
      rw [← hskipped]
      refine skippedNodes_map (fun row => by split <;> rfl) (fun row => ?_) s.tables.nodeRuns
      by_cases hrow : row.status = .running
      · simp [hrow]
      · rw [if_neg hrow]
    · show Passed definition _ steps ⟨current, recordedContexts (recoverInterrupted s.tables).nodeRuns⟩
      rw [hcontexts]
      exact hpassed

/-- A run that has not been created cannot be retried. -/
def uncreated (definition : WorkflowDefinition) (start : Uuid) :
    Assertion Cancels (Resumable definition start) where
  holds s := s.tables.run = none
  stable s s' hcancel h := by
    dsimp only
    rw [hcancel.keeps.1]
    exact h
  safe s h run hrun := by
    rw [show s.tables.run = none from h] at hrun
    cases hrun

/-- Such a retry returns an error. -/
theorem retryWith_absent {α : Type} {loop : DriverLoop α} (dangerousConfirmed : Bool) :
    Triple A (uncreated definition start)
      (retryWith catalog pathIsAbsolute loop (some definition) dangerousConfirmed).run
      (outcome (fun _ => (uncreated definition start).given False)
        (uncreated definition start)) := by
  unfold retryWith
  exact triple_andThen (requireRun_absent fun _ hs => hs) fun details =>
    triple_given fun h => h.elim

/-- **Whatever has happened, a run that has paused can be resumed from its rows.** -/
theorem Lived.resumable (hrunnable : Runnable definition start)
    (hstart : startNodeId definition.draft = some start)
    (hcapped : ∀ question answer, A question answer → Capped question answer) {s : RunState}
    (h : Lived definition catalog pathIsAbsolute A s) : Resumable definition start s := by
  induction h with
  | run request hreach =>
      have hlogged : WorkflowService.run catalog pathIsAbsolute (some definition) request = _ :=
        run_logged (some definition) request
      have hspec := unlogged_spec hlogged
        (runLogged_records hrunnable hstart hcapped request) fun _ _ hs => hs.2
      exact (triple_iff.mp hspec _ ⟨rfl, rfl⟩ _ _ hreach).1
  | @retry dangerousConfirmed p s s' _ hreach ih =>
      cases hrun : s.tables.run with
      | none =>
          have hspec : Triple A (uncreated definition start)
              (retryWith catalog pathIsAbsolute turns (some definition) dangerousConfirmed).run _ :=
            retryWith_absent dangerousConfirmed
          exact (triple_iff.mp hspec s hrun _ _ hreach).1
      | some run =>
          have hlogged :
              retryFailedNode catalog pathIsAbsolute (some definition) dangerousConfirmed = _ :=
            retryFailedNode_logged (some definition) dangerousConfirmed
          have hspec := unlogged_spec hlogged
            (retryLogged_records hrunnable hcapped dangerousConfirmed run s.tables.nodeRuns)
            fun _ _ hs => hs.2
          exact (triple_iff.mp hspec s ⟨ih, run, hrun, rfl, rfl⟩ _ _ hreach).1
  | restart _ ih => exact restarted_resumable ih

/-! ## §7. A retry and an uninterrupted run. -/

/-- What is recorded of the nodes that have succeeded is what the assignment gives them. -/
def Records (definition : WorkflowDefinition) (assignment : Assignment)
    (rows : List WorkflowNodeRun) : Prop :=
  ∀ id context, recordedContexts rows id = some context →
    assignment.cancelled id = false
      ∧ ∀ node ∈ definition.nodes, node.id = id →
        ownOutcome (fun _ => none) node.config = none →
          (assignment.outcome id).status = .succeeded
            ∧ contextOf (assignment.outcome id) = context

omit [UuidCrate] in
theorem Passed.leads {p q : Position} {steps : List Executed} (h : Passed definition p steps q) :
    ∀ step ∈ steps, ∃ next, Leads definition step next := by
  induction h with
  | here => simp
  | @step step next rest q hleads _ ih =>
      intro other hother
      rcases List.mem_cons.mp hother with rfl | hother
      · exact ⟨next, hleads⟩
      · exact ih other hother

omit [UuidCrate] in
/-- The nodes that a run has passed agree with an assignment that agrees with its rows. -/
theorem Passed.agrees {assignment : Assignment} {rows : List WorkflowNodeRun}
    {p : Position} {steps : List Executed} {current : Uuid}
    (h : Passed definition p steps { current := current, contexts := recordedContexts rows })
    (hnodup : (steps.map Executed.nodeId).Nodup) (hrecorded : Records definition assignment rows) :
    ∀ step ∈ steps, Agrees definition assignment step := by
  intro step hstep
  obtain ⟨next, hleads⟩ := h.leads step hstep
  obtain ⟨hcancelled, hgiven⟩ := hrecorded _ _ (h.left hnodup hstep)
  have hunset : step.cancelled = false := by
    by_contra hset
    rw [Bool.not_eq_false] at hset
    have hsucceeded := hleads.succeeded
    rw [hleads.explained.cancelled hset] at hsucceeded
    cases hsucceeded
  refine ⟨hunset.trans hcancelled.symm, fun _ node hnode hid hown => ?_⟩
  obtain ⟨hstatus, hleft⟩ := hgiven node hnode hid (ownOutcome_none_iff.mp hown)
  exact ⟨hleads.succeeded.trans hstatus.symm, hleft.symm⟩

omit [UuidCrate] in
/-- Only which nodes have been visited counts at the end, not in which order. -/
theorem endOf_congr {visited visited' : List Uuid} (h : ∀ id, id ∈ visited ↔ id ∈ visited')
    (status : WorkflowNodeStatus) :
    endOf definition visited status = endOf definition visited' status := by
  have hfilter : (definition.nodes.map WorkflowNode.id).filter (fun id => !visited.contains id)
      = (definition.nodes.map WorkflowNode.id).filter fun id => !visited'.contains id := by
    refine List.filter_congr fun id _ => congrArg Bool.not ?_
    rw [Bool.eq_iff_iff, List.contains_iff_mem, List.contains_iff_mem]
    exact h id
  unfold endOf
  rw [hfilter]

omit [UuidCrate] in
theorem nodeIds_of_views {steps steps' : List Executed}
    (h : steps.map Executed.view = steps'.map Executed.view) :
    steps.map Executed.nodeId = steps'.map Executed.nodeId := by
  have hfst := congrArg (List.map Prod.fst) h
  rw [List.map_map, List.map_map] at hfst
  exact hfst

/-- **A retry goes on as an uninterrupted run would have gone.**  Whatever the life of the
run was, if its rows, what the retry executes and what the uninterrupted run executes agree
with one assignment of outcomes, then the uninterrupted run executes the nodes that have
succeeded and then, with the same contexts, those that the retry executes; the status and
the skipped nodes are the same at the end. -/
theorem retry_continues
    (hvalid : (validateWorkflow catalog pathIsAbsolute definition.draft).valid = true)
    (hstart : startNodeId definition.draft = some start)
    (hcapped : ∀ question answer, A question answer → Capped question answer)
    {s s' u : RunState} (hlived : Lived definition catalog pathIsAbsolute A s)
    {dangerousConfirmed : Bool} {retried : Option WorkflowRunDetails} {remaining : List Executed}
    (hretry : ReachesIn Cancels A
      ((retryLogged catalog pathIsAbsolute (some definition) dangerousConfirmed).run, s)
      (done (.ok (retried, remaining)), s'))
    {request : StartWorkflowRunRequest} {uninterrupted : Option WorkflowRunDetails}
    {all : List Executed}
    (hrun : ReachesIn Cancels A
      ((runLogged catalog pathIsAbsolute (some definition) request).run, initialState)
      (done (.ok (uninterrupted, all)), u))
    {assignment : Assignment} (hrecorded : Records definition assignment s.tables.nodeRuns)
    (hremaining : ∀ step ∈ remaining, Agrees definition assignment step)
    (hall : ∀ step ∈ all, Agrees definition assignment step) :
    ∃ earlier later details details', all = earlier ++ later
      ∧ (∀ id, id ∈ earlier.map Executed.nodeId
          ↔ (recordedContexts s.tables.nodeRuns id).isSome)
      ∧ later.map Executed.view = remaining.map Executed.view
      ∧ s.tables.run.bind WorkflowRunRecord.currentNodeId = remaining.head?.map Executed.nodeId
      ∧ retried = some details ∧ uninterrupted = some details'
      ∧ details.run.status = details'.run.status
      ∧ skippedNodes details.nodeRuns = skippedNodes details'.nodeRuns := by
  have hrunnable := runnable_of_valid hvalid hstart
  -- the uninterrupted run follows the course from the first node
  obtain ⟨details', last', hdetails', hlast', hcourse', hconcluded'⟩ :=
    ((triple_iff.mp (runLogged_records hrunnable hstart hcapped request) _ ⟨rfl, rfl⟩ _ _
      hrun).2 _ rfl).1
  -- the retry follows the course from where the rows say that the run has stopped
  have habsent : Triple A (uncreated definition start)
      (retryLogged catalog pathIsAbsolute (some definition) dangerousConfirmed).run _ :=
    retryWith_absent dangerousConfirmed
  have hcreated : s.tables.run ≠ none := fun hnone =>
    ((triple_iff.mp habsent s hnone _ _ hretry).2 _ rfl).1
  obtain ⟨run₀, hrun₀⟩ := Option.ne_none_iff_exists'.mp hcreated
  have hresumed : Resumed definition start run₀ s.tables.nodeRuns (retried, remaining) :=
    ((triple_iff.mp (retryLogged_records hrunnable hcapped dangerousConfirmed run₀ _) s
      ⟨hlived.resumable hrunnable hstart hcapped, run₀, hrun₀, rfl, rfl⟩ _ _ hretry).2 _ rfl).1
  obtain ⟨hskipped, current, steps, hcurrent, hpassed, hfollowed⟩ := hresumed
  obtain ⟨details, last, hdetails, hlast, hcourse, hconcluded⟩ := hfollowed
  obtain ⟨hnodup, _, _⟩ := hpassed.nodup hrunnable.accepted hrunnable.start
  -- both are the course of the assignment
  have hwhole := hpassed.course hcourse
  have hsame : (steps ++ remaining).map Executed.view = all.map Executed.view := by
    refine Course.unique hrunnable.accepted.nodup hwhole hcourse' rfl (fun step hstep => ?_) hall
    rcases List.mem_append.mp hstep with hstep | hstep
    · exact hpassed.agrees hnodup hrecorded step hstep
    · exact hremaining step hstep
  have hids := nodeIds_of_views hsame
  rw [List.map_append] at hids hsame
  refine ⟨all.take steps.length, all.drop steps.length, details, details',
    (List.take_append_drop _ _).symm, fun id => ?_, ?_, ?_, hdetails, hdetails', ?_⟩
  · -- the rows know of the nodes that have been passed
    have hearlier : (all.take steps.length).map Executed.nodeId = steps.map Executed.nodeId := by
      rw [List.map_take, ← hids, List.take_left' (by rw [List.length_map])]
    rw [hearlier, hpassed.contexts]
    simp [Position.initial]
  · rw [List.map_drop, ← hsame, List.drop_left' (by rw [List.length_map])]
  · rw [hrun₀, Option.bind_some, hcurrent]
    exact hcourse.head.symm
  · -- the last node and the visited nodes are the same
    have hstatus : last.outcome.status = last'.outcome.status := by
      have hview : some last.view = some last'.view :=
        calc some last.view = (steps.map Executed.view ++ remaining.map Executed.view).getLast? := by
              rw [List.getLast?_append, List.getLast?_map, hlast]
              rfl
          _ = (all.map Executed.view).getLast? := by rw [hsame]
          _ = some last'.view := by
              rw [List.getLast?_map, hlast']
              rfl
      have hparts := Option.some.inj hview
      simp only [Executed.view, Prod.mk.injEq] at hparts
      exact hparts.2.2.2.1
    have hvisited : ∀ id,
        id ∈ (remaining.map Executed.nodeId).reverse ++ recordedNodes s.tables.nodeRuns
          ↔ id ∈ (all.map Executed.nodeId).reverse ++ [] := by
      intro id
      rw [List.append_nil, List.mem_reverse, ← hids, List.mem_append, List.mem_append,
        List.mem_reverse, mem_recordedNodes hskipped, hpassed.contexts]
      simp [Position.initial, or_comm]
    have hend := hconcluded.trans ((endOf_congr hvisited _).trans
      ((congrArg _ hstatus).trans hconcluded'.symm))
    exact Prod.mk.inj hend

end Drivers

/-- A command that fails at first, and then succeeds. -/
def sampleCommand (status : FinalStatus) (exitCode : Int) : NodeOutcome :=
  { executionId := sampleId 7, status := status, exitCode := some exitCode, result := none,
    outputSummary := none, errorCategory := none, errorMessage := none, retryable := true }

theorem sampleCommand_capped (status : FinalStatus) (exitCode : Int) (question : RunQuestion) :
    Capped question (sampleAnswer (.ok (sampleCommand status exitCode)) question) := by
  cases question with
  | execute runId nodeId attempt config =>
      intro outcome houtcome summary hsummary
      cases Except.ok.inj houtcome
      cases hsummary
  | requireTrustedServer _ => trivial
  | connect _ => trivial
  | drawId => trivial
  | deliver _ _ => trivial
  | childEvents _ _ _ => trivial
  | capture _ _ _ _ => trivial
  | duration => trivial
  | cancelExecution _ => trivial

/-- Where a procedure comes to with these answers. -/
theorem sampleCommand_reaches {α : Type} {status : FinalStatus} {exitCode : Int}
    {p : PlainProcess α} {s : RunState} {reached : α × RunState}
    (h : reached
      = Process.run (fun _ => sampleAnswer (.ok (sampleCommand status exitCode))) 0 p s) :
    ReachesIn Cancels Capped (p, s) (done reached.1, reached.2) := by
  rw [h]
  exact run_reachesIn (fun _ => sampleCommand_capped status exitCode) 0 p s

/-- The command fails. -/
def sampleFailed : Except AppError (Option WorkflowRunDetails) × RunState :=
  sampleRun straight (.ok (sampleCommand .failed 1))

/-- It succeeds when it is retried. -/
def sampleRetried : Except AppError (Option WorkflowRunDetails × List Executed) × RunState :=
  Process.run (fun _ => sampleAnswer (.ok (sampleCommand .succeeded 0))) 0
    (@retryLogged hyphenatedUuid [] unixAbsolute (some straight) true).run sampleFailed.2

/-- It succeeds at once. -/
def sampleWhole : Except AppError (Option WorkflowRunDetails × List Executed) × RunState :=
  Process.run (fun _ => sampleAnswer (.ok (sampleCommand .succeeded 0))) 0
    (@runLogged hyphenatedUuid [] unixAbsolute (some straight)
      { serverId := "web-1".toList, dangerousConfirmed := true }).run initialState

def sampleAssignment : Assignment :=
  { cancelled := fun _ => false, outcome := fun _ => .ofNode (sampleCommand .succeeded 0) }

/-- The only node of the workflow that an adapter executes. -/
theorem straight_adapter {contexts : Contexts} {node : WorkflowNode Uuid}
    (hnode : node ∈ straight.nodes) (h : ownOutcome contexts node.config = none) :
    node.id = sampleId 1 := by
  simp only [straight, List.mem_cons, List.not_mem_nil, or_false] at hnode
  rcases hnode with rfl | rfl | rfl | rfl | rfl
  · cases h
  · rfl
  · cases h
  · cases h
  · cases h

/-- Whether the nodes of a log agree with the assignment. -/
def agreeing (log : List Executed) : Bool :=
  log.all fun step =>
    !step.cancelled && (step.nodeId != sampleId 1
      || step.outcome.status == .succeeded && step.outcome.exitCode == some 0
        && step.outcome.result.isNone && step.outcome.outputSummary.isNone)

theorem agrees_of_agreeing {log : List Executed} (h : agreeing log = true) :
    ∀ step ∈ log, Agrees straight sampleAssignment step := by
  intro step hstep
  have hchecked := List.all_eq_true.mp h step hstep
  rw [Bool.and_eq_true, Bool.not_eq_true'] at hchecked
  refine ⟨hchecked.1, fun _ node hnode hid hown => ?_⟩
  have hcommand := hchecked.2
  rw [← hid, straight_adapter hnode hown] at hcommand
  simp only [bne_self_eq_false, Bool.false_or, Bool.and_eq_true, beq_iff_eq,
    Option.isNone_iff_eq_none] at hcommand
  obtain ⟨⟨⟨hstatus, hexit⟩, hresult⟩, hsummary⟩ := hcommand
  refine ⟨hstatus, ?_⟩
  unfold contextOf
  rw [hexit, hresult, hsummary]
  rfl

theorem sample_agrees :
    (∃ retried remaining, sampleRetried.1 = .ok (retried, remaining)
        ∧ agreeing remaining = true)
      ∧ (∃ uninterrupted all, sampleWhole.1 = .ok (uninterrupted, all) ∧ agreeing all = true)
      ∧ recordedContexts sampleFailed.2.tables.nodeRuns (sampleId 1) = none := by
  have hlog : ∀ r : Except AppError (Option WorkflowRunDetails × List Executed),
      (r.toOption.any fun found => agreeing found.2) = true →
      ∃ details log, r = .ok (details, log) ∧ agreeing log = true := by
    intro r h
    cases r with
    | error e => cases h
    | ok found => exact ⟨found.1, found.2, rfl, h⟩
  refine ⟨hlog _ (by decide +kernel), hlog _ (by decide +kernel), ?_⟩
  exact Option.isNone_iff_eq_none.mp (by decide +kernel)

/-- The command fails, is retried and succeeds. -/
theorem straight_retried :
    ∃ retried uninterrupted remaining all, sampleRetried.1 = .ok (retried, remaining)
      ∧ sampleWhole.1 = .ok (uninterrupted, all)
      ∧ ∃ earlier later details details', all = earlier ++ later
      ∧ (∀ id, id ∈ earlier.map Executed.nodeId
          ↔ (recordedContexts sampleFailed.2.tables.nodeRuns id).isSome)
      ∧ later.map Executed.view = remaining.map Executed.view
      ∧ sampleFailed.2.tables.run.bind WorkflowRunRecord.currentNodeId
          = remaining.head?.map Executed.nodeId
      ∧ retried = some details ∧ uninterrupted = some details'
      ∧ details.run.status = details'.run.status
      ∧ skippedNodes details.nodeRuns = skippedNodes details'.nodeRuns := by
  obtain ⟨⟨retried, remaining, hretried, hremaining⟩, ⟨uninterrupted, all, hwhole, hall⟩,
    hcommand⟩ := sample_agrees
  have hfailed : ReachesIn Cancels Capped
      ((@WorkflowService.run hyphenatedUuid [] unixAbsolute (some straight)
        { serverId := "web-1".toList, dangerousConfirmed := true }).run, initialState)
      (done sampleFailed.1, sampleFailed.2) :=
    @sampleCommand_reaches _ .failed 1 _ _ sampleFailed rfl
  have hlived : @Lived hyphenatedUuid straight [] unixAbsolute Capped sampleFailed.2 :=
    @Lived.run hyphenatedUuid _ _ _ _ { serverId := "web-1".toList, dangerousConfirmed := true } _ _
      hfailed
  refine ⟨retried, uninterrupted, remaining, all, hretried, hwhole,
    @retry_continues straight (sampleId 0) Capped hyphenatedUuid [] unixAbsolute
      straight_valid.1 straight_valid.2 (fun _ _ h => h) sampleFailed.2 sampleRetried.2
      sampleWhole.2 hlived true retried remaining ?_
      { serverId := "web-1".toList, dangerousConfirmed := true } uninterrupted all ?_
      sampleAssignment ?_ (agrees_of_agreeing hremaining) (agrees_of_agreeing hall)⟩
  · rw [← hretried]
    exact @sampleCommand_reaches _ .succeeded 0 _ _ sampleRetried rfl
  · rw [← hwhole]
    exact @sampleCommand_reaches _ .succeeded 0 _ _ sampleWhole rfl
  · intro id context hcontext
    refine ⟨rfl, fun node hnode hid hown => ?_⟩
    rw [← hid, straight_adapter hnode hown, hcommand] at hcontext
    cases hcontext

end QingzhouSSH.Services.WorkflowService
