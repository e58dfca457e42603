/-
  QingzhouSSH.Services.WorkflowTurn — one turn of the driver, and its loop.

  A turn goes one step along the walk or ends the run.  It fails only where a record is
  refused or an event is not delivered.

  Main results:
    * `turn_spec` — one turn;
    * `turns_spec` — the loop ends before its fuel does.
-/
import QingzhouSSH.Services.WorkflowRun

namespace QingzhouSSH.Services.WorkflowService

open String (utf8Len)
open QingzhouSSH.Lib
open QingzhouSSH.Lib.Digraph (Walk)
open QingzhouSSH.Lib.Process
open QingzhouSSH.Domain
open QingzhouSSH.Core.Workflows
open QingzhouSSH.Repositories.WorkflowRepository

variable {definition : WorkflowDefinition} {start : Uuid} {before : List WorkflowNodeRun}
variable {clean : Prop}
variable {A : (question : RunQuestion) → RunAnswer question → Prop}
variable {registered : Bool} {P P' : WorkflowRunRecord → List WorkflowNodeRun → Prop}
variable {runId nodeId : Uuid} {attempt : Attempt}
variable {contexts : Contexts} {config : WorkflowNodeConfig Uuid}

/-! ## §1. Rows of a drive. -/

/-- A row that starts or skips a node leaves the run on its walk. -/
theorem OnWalk.append {left : List Uuid} {current : Uuid} {rows : List WorkflowNodeRun}
    (h : OnWalk definition start left current rows) {row : WorkflowNodeRun}
    (hvisited : row.status ≠ .skipped → row.nodeId ∈ current :: left)
    (hfresh : row.nodeId ∉ left) : OnWalk definition start left current (rows ++ [row]) where
  walk := h.walk
  visited other hother hstatus := by
    rcases List.mem_append.mp hother with hother | hother
    · exact h.visited other hother hstatus
    · rw [List.mem_singleton.mp hother] at hstatus ⊢
      exact hvisited hstatus
  succeeded id hid := by
    have hne : row.nodeId ≠ id := fun heq => hfresh (heq ▸ hid)
    rw [latestNodeRun_append, if_neg hne]
    exact h.succeeded id hid

/-- The walk goes on when the node it is at has succeeded. -/
theorem OnWalk.step {left : List Uuid} {current next : Uuid} {rows : List WorkflowNodeRun}
    {row : WorkflowNodeRun} (h : OnWalk definition start left current rows)
    (hlatest : latestNodeRun rows current = some row) (hstatus : row.status = .succeeded)
    (hedge : Edge definition.edges current next) :
    OnWalk definition start (current :: left) next rows where
  walk := h.walk.step hedge
  visited other hother hskipped := List.mem_cons_of_mem _ (h.visited other hother hskipped)
  succeeded id hid := by
    rcases List.mem_cons.mp hid with rfl | hid
    · exact ⟨row, hlatest, hstatus⟩
    · exact h.succeeded id hid

theorem executed_append {rows : List WorkflowNodeRun} {row : WorkflowNodeRun} :
    executed (rows ++ [row])
      = executed rows ++ if row.status = .skipped then [] else [row.nodeId] := by
  unfold executed
  rw [List.filter_append, List.map_append]
  by_cases hskipped : row.status = .skipped
  · rw [if_pos hskipped, List.filter_cons, hskipped]
    rfl
  · rw [if_neg hskipped, List.filter_cons, bne_iff_ne.mpr hskipped]
    rfl

theorem Sound.append {rows : List WorkflowNodeRun} {row : WorkflowNodeRun}
    (h : Sound definition start before rows)
    (hwalk : ∃ left current, OnWalk definition start left current (rows ++ [row]))
    (hmessage : Dominated definition start → NoMissing definition [row])
    (hfresh : row.status ≠ .skipped → ∀ new, rows = before ++ new → row.nodeId ∉ executed new) :
    Sound definition start before (rows ++ [row]) where
  onWalk := hwalk
  once := by
    obtain ⟨new, hnew, hnodup⟩ := h.once
    refine ⟨new ++ [row], by rw [hnew, List.append_assoc], ?_⟩
    rw [executed_append]
    by_cases hskipped : row.status = .skipped
    · rw [if_pos hskipped, List.append_nil]
      exact hnodup
    · rw [if_neg hskipped, List.nodup_append]
      refine ⟨hnodup, List.nodup_singleton _, fun id hid other hother heq => ?_⟩
      rw [List.mem_singleton.mp hother] at heq
      exact hfresh hskipped new hnew (heq ▸ hid)
  noMissing hdominated other hother := by
    rcases List.mem_append.mp hother with hother | hother
    · exact h.noMissing hdominated other hother
    · exact hmessage hdominated other hother

/-- A row without a message. -/
theorem noMissing_silent {row : WorkflowNodeRun} (h : row.errorMessage = none) :
    NoMissing definition [row] := by
  intro other hother node hnode hid source predicate hconfig heq
  rw [List.mem_singleton.mp hother, h] at heq
  cases heq

/-- The rows since `before`: every node of `here` has succeeded, the latest first. -/
def Driven (before : List WorkflowNodeRun) (here : List Uuid) (rows : List WorkflowNodeRun) : Prop :=
  ∃ executed, rows = before ++ executed ∧ executed.map WorkflowNodeRun.nodeId = here.reverse
    ∧ ∀ row ∈ executed, row.status = .succeeded

/-- A node that the drive has not left has no row of it. -/
theorem Driven.fresh {here : List Uuid} {rows : List WorkflowNodeRun}
    (h : Driven before here rows) {id : Uuid} (hid : id ∉ here) :
    ∀ new, rows = before ++ new → id ∉ executed new := by
  intro new hnew hmem
  obtain ⟨own, hrows, hids, _⟩ := h
  rw [hrows] at hnew
  rw [← List.append_cancel_left hnew] at hmem
  obtain ⟨row, hrow, heq⟩ := List.mem_map.mp hmem
  have hleft : row.nodeId ∈ here.reverse := hids ▸ List.mem_map_of_mem (List.mem_filter.mp hrow).1
  rw [heq] at hleft
  exact hid (List.mem_reverse.mp hleft)

/-- The run is at a node that has not been started. -/
structure AtNode (definition : WorkflowDefinition) (start : Uuid) (before : List WorkflowNodeRun)
    (here left : List Uuid) (current : Uuid) (run : WorkflowRunRecord)
    (rows : List WorkflowNodeRun) : Prop where
  running : run.status = .running
  sound : Sound definition start before rows
  onWalk : OnWalk definition start (here ++ left) current rows
  driven : Driven before here rows

/-- The run is at a node whose latest row is as `row` says. -/
def InNode (definition : WorkflowDefinition) (start : Uuid) (before : List WorkflowNodeRun)
    (here left : List Uuid) (current : Uuid) (row : WorkflowNodeRun → Prop)
    (run : WorkflowRunRecord) (rows : List WorkflowNodeRun) : Prop :=
  ∃ earlier own, rows = earlier ++ [own]
    ∧ AtNode definition start before here left current run earlier
    ∧ own.nodeId = current ∧ own.attempt = nextAttempt current earlier ∧ row own

/-- How a drive ends: at the end of the graph, or at a node that has not succeeded. -/
structure Ended (definition : WorkflowDefinition) (start : Uuid) (before : List WorkflowNodeRun)
    (here left : List Uuid) (current : Uuid) (details : WorkflowRunDetails)
    (run : WorkflowRunRecord) (rows : List WorkflowNodeRun) : Prop where
  shown : details.run = run ∧ details.nodeRuns = rows
  walk : Walk (Edge definition.edges) start (here ++ left) current
  rows : ∃ earlier own skipped, rows = earlier ++ own :: skipped
    ∧ Driven before here earlier ∧ own.nodeId = current ∧ (∀ row ∈ skipped, row.status = .skipped)
    ∧ (own.status = .succeeded ∧ run.status = .succeeded
          ∧ outgoing definition.edges current = []
        ∨ own.status ∈ [.failed, .cancelled, .uncertain] ∧ run.status = endStatus own.status
          ∧ skipped = [])

/-! ## §2. Transactions of a turn. -/

section Turn

variable {context : RunContext}
variable {here left : List Uuid} {current : Uuid}

/-- Transactions of the run leave its rows as they are. -/
theorem updateRun_spec {guard : WorkflowRunRecord → Bool}
    {f : WorkflowRunRecord → WorkflowRunRecord} {message : String}
    (hguard : ∀ run rows, P run rows → guard run = true)
    (hf : ∀ run rows, P run rows → P' (f run) rows) :
    Triple A (stands definition start before registered P)
      (transact (updateRun guard f message)).run
      (outcome (fun _ => stands definition start before registered P')
        (escaped definition start before clean)) := by
  refine transact_spec fun tables run hrun hsound hp => ?_
  unfold updateRun
  rw [hrun]
  dsimp only
  rw [if_pos (hguard run _ hp)]
  exact ⟨_, rfl, hsound, f run, rfl, hf run _ hp⟩

theorem setCurrentNode_spec :
    Triple A (stands definition start before registered (AtNode definition start before here left current))
      (transact (setCurrentNode current)).run
      (outcome
        (fun _ => stands definition start before registered
          (AtNode definition start before here left current))
        (escaped definition start before clean)) := by
  apply updateRun_spec
  · intro run rows h
    exact beq_iff_eq.mpr h.running
  · intro run rows h
    exact ⟨h.running, h.sound, h.onWalk, h.driven⟩

/-- A transaction that is refused. -/
theorem transact_refused {f : RunTables → AppResult RunTables} (hf : ∀ tables, ∃ e, f tables = .error e)
    (hclean : ¬ clean) :
    Triple A (stands definition start before registered P) (transact f).run
      (outcome (fun _ => stands definition start before registered P')
        (escaped definition start before clean)) := by
  refine triple_update ?_ ?_
  · intro s s' _ hok
    obtain ⟨e, he⟩ := hf s.tables
    rw [he] at hok
    cases hok
  · intro s e hs _
    exact ⟨hs.2.1, hclean⟩

/-- The first attempts of a drive fit if those before do. -/
theorem nextAttempt_lt (hbefore : ∀ row ∈ before, row.attempt + 1 < 2 ^ 31)
    {rows : List WorkflowNodeRun} (hdriven : Driven before here rows) {id : Uuid}
    (hid : id ∉ here) : nextAttempt id rows < 2 ^ 31 := by
  obtain ⟨executed, rfl, hids, _⟩ := hdriven
  have hle : nextAttempt id (before ++ executed) ≤ 2 ^ 31 - 2 + 1 := by
    apply nextAttempt_le
    intro row hrow heq
    rcases List.mem_append.mp hrow with hrow | hrow
    · have := hbefore row hrow
      omega
    · have hmem : row.nodeId ∈ here.reverse := hids ▸ List.mem_map_of_mem hrow
      rw [heq] at hmem
      exact absurd (List.mem_reverse.mp hmem) hid
  omega

/-- The row of an attempt that has just been inserted. -/
def attemptRow (nodeId : Uuid) (attempt : Nat) (status : WorkflowNodeStatus) : WorkflowNodeRun :=
  { nodeId := nodeId, attempt := attempt, status := status, executionId := none,
    exitCode := none, result := none, outputSummary := none, errorMessage := none,
    retryable := false }

/-- An attempt is inserted: its row is the last one. -/
theorem insertAttempt_spec {nodeId : Uuid} {status : WorkflowNodeStatus}
    {P' : Attempt → WorkflowRunRecord → List WorkflowNodeRun → Prop}
    (hsound : ∀ run rows, Sound definition start before rows → P run rows →
      Sound definition start before (rows ++ [attemptRow nodeId (nextAttempt nodeId rows) status]))
    (hp : ∀ run rows (attempt : Attempt), P run rows → attempt.val = nextAttempt nodeId rows →
      P' attempt run (rows ++ [attemptRow nodeId attempt.val status]))
    (hlt : clean → ∀ run rows, P run rows → nextAttempt nodeId rows < 2 ^ 31) :
    Triple A (stands definition start before registered P)
      (transactAttempt (insertAttempt nodeId status)).run
      (outcome (fun attempt => stands definition start before registered (P' attempt))
        (escaped definition start before clean)) := by
  refine triple_atomic fun s hs => ?_
  obtain ⟨hactive, hrows, run, hrun, hp'⟩ := hs
  have hnew := hsound run _ hrows hp'
  unfold insertAttempt
  dsimp only
  by_cases hbound : nextAttempt nodeId s.tables.nodeRuns < 2 ^ 31
  · rw [dif_pos hbound]
    exact ⟨hactive, hnew, run, hrun, hp run _ ⟨_, hbound⟩ hp' rfl⟩
  · rw [dif_neg hbound]
    exact ⟨hnew, fun hclean => hbound (hlt hclean run _ hp')⟩

theorem startNodeAttempt_spec (hbefore : clean → ∀ row ∈ before, row.attempt + 1 < 2 ^ 31)
    (hfresh : current ∉ here ++ left) :
    Triple A (stands definition start before registered (AtNode definition start before here left current))
      (transactAttempt (startNodeAttempt current)).run
      (outcome
        (fun attempt => stands definition start before registered
          (InNode definition start before here left current fun own =>
            own.attempt = attempt.val ∧ own.status = .running ∧ own.errorMessage = none))
        (escaped definition start before clean)) := by
  apply insertAttempt_spec
  · intro run rows hsound hat
    exact hsound.append ⟨_, _, hat.onWalk.append (fun _ => List.mem_cons_self) hfresh⟩
      (fun _ => noMissing_silent rfl)
      fun _ => hat.driven.fresh fun hmem => hfresh (List.mem_append_left _ hmem)
  · intro run rows attempt hat hattempt
    exact ⟨rows, _, rfl, hat, rfl, hattempt, rfl, rfl, rfl⟩
  · intro hclean run rows hat
    exact nextAttempt_lt (hbefore hclean) hat.driven
      fun hmem => hfresh (List.mem_append_left _ hmem)

/-- An update of the attempt that is running. -/
theorem updateNode_spec {row row' : WorkflowNodeRun → Prop} {attempt : Nat}
    {f : WorkflowNodeRun → WorkflowNodeRun} {message : String} (hfresh : current ∉ here ++ left)
    (hrow : ∀ own, row own → own.attempt = attempt ∧ own.status = .running)
    (hf : ∀ own, row own → (f own).nodeId = own.nodeId ∧ (f own).attempt = own.attempt
      ∧ row' (f own))
    (hmessage : Dominated definition start →
      Walk (Edge definition.edges) start (here ++ left) current →
      ∀ own, own.nodeId = current → row own → NoMissing definition [f own]) :
    Triple A (stands definition start before registered
        (InNode definition start before here left current row))
      (transact (updateNode current attempt f message)).run
      (outcome
        (fun _ => stands definition start before registered
          (InNode definition start before here left current row'))
        (escaped definition start before clean)) := by
  refine transact_spec fun tables run hrun hsound hin => ?_
  obtain ⟨earlier, own, hrows, hat, hid, hattempt, hown⟩ := hin
  obtain ⟨hnumber, hrunning⟩ := hrow own hown
  obtain ⟨hid', hattempt', hown'⟩ := hf own hown
  have hupdate := updateNode_next hrows (hid ▸ hattempt) hrunning f message
  rw [hid, hnumber] at hupdate
  refine ⟨_, hupdate, ?_, run, hrun, earlier, f own, rfl, hat, hid'.trans hid,
    hattempt'.trans hattempt, hown'⟩
  refine hat.sound.append ⟨_, _, hat.onWalk.append (fun _ => ?_) ?_⟩
    (fun hdominated => hmessage hdominated hat.onWalk.walk own hid hown)
    fun _ => hat.driven.fresh ?_
  · rw [hid', hid]
    exact List.mem_cons_self
  · rw [hid', hid]
    exact hfresh
  · rw [hid', hid]
    exact fun hmem => hfresh (List.mem_append_left _ hmem)

/-! ## §3. The end of a drive. -/

/-- The last node has succeeded, and others may have been skipped since. -/
structure Closing (definition : WorkflowDefinition) (start : Uuid) (before : List WorkflowNodeRun)
    (here left : List Uuid) (current : Uuid) (run : WorkflowRunRecord)
    (rows : List WorkflowNodeRun) : Prop where
  running : run.status = .running
  onWalk : OnWalk definition start (here ++ left) current rows
  rows : ∃ earlier own skipped, rows = earlier ++ own :: skipped
    ∧ Driven before here earlier ∧ own.nodeId = current ∧ own.status = .succeeded
    ∧ ∀ row ∈ skipped, row.status = .skipped

theorem Closing.skip {run : WorkflowRunRecord} {rows : List WorkflowNodeRun}
    (h : Closing definition start before here left current run rows) {id : Uuid} {attempt : Nat}
    (hfresh : id ∉ here ++ left) :
    Closing definition start before here left current run
      (rows ++ [attemptRow id attempt .skipped]) where
  running := h.running
  onWalk := h.onWalk.append (fun hstatus => absurd rfl hstatus) hfresh
  rows := by
    obtain ⟨earlier, own, skipped, hrows, hdriven, hid, hstatus, hskipped⟩ := h.rows
    refine ⟨earlier, own, skipped ++ [attemptRow id attempt .skipped], ?_, hdriven, hid, hstatus,
      ?_⟩
    · rw [hrows, List.append_assoc, List.cons_append]
    · intro row hrow
      rcases List.mem_append.mp hrow with hrow | hrow
      · exact hskipped row hrow
      · rw [List.mem_singleton.mp hrow]
        rfl

/-- The attempts of the nodes that are still to be skipped fit. -/
def Fitting (clean : Prop) (visited : List Uuid) (nodes : List (WorkflowNode Uuid))
    (rows : List WorkflowNodeRun) : Prop :=
  clean → ∀ row ∈ rows, row.nodeId ∈ nodes.map WorkflowNode.id → row.nodeId ∉ visited →
    row.attempt + 1 < 2 ^ 31

theorem nodeSkipped_fits {runId nodeId : Uuid} {attempt : Attempt} :
    (WorkflowEventPayload.nodeStatusChanged runId nodeId attempt .skipped none
      (some "未选择该分支".toList)).Fits := by
  have hshort : utf8Len (((some "未选择该分支".toList).map defaultRedactor.redact).getD []) ≤ 500 := by
    decide
  exact WorkflowEventPayload.fits_of_short hshort

/-- The nodes that were not visited are recorded as skipped. -/
theorem recordSkipped_spec
    (hanswered : clean → ∀ question answer, A question answer → Answered question answer)
    {visited : List Uuid} (hvisited : ∀ id ∈ here ++ left, id ∈ visited)
    {nodes : List (WorkflowNode Uuid)} (hnodup : (nodes.map WorkflowNode.id).Nodup) :
    Triple A
      (stands definition start before registered fun run rows =>
        Closing definition start before here left current run rows
          ∧ Fitting clean visited nodes rows)
      (recordSkipped context visited nodes).run
      (outcome
        (fun _ => stands definition start before registered
          (Closing definition start before here left current))
        (escaped definition start before clean)) := by
  induction nodes with
  | nil => exact triple_ok fun s hs => ⟨hs.1, hs.2.1, hs.2.2.imp fun _ h => ⟨h.1, h.2.1⟩⟩
  | cons node rest ih =>
      obtain ⟨hnew, hnodup⟩ := List.nodup_cons.mp hnodup
      unfold recordSkipped
      by_cases hmem : visited.contains node.id = true
      · rw [if_pos hmem]
        refine Triple.weaken (ih hnodup) (fun s hs => ?_) fun _ _ h => h
        obtain ⟨hactive, hsound, run, hrun, hclosing, hfitting⟩ := hs
        exact ⟨hactive, hsound, run, hrun, hclosing, fun hclean row hrow hid =>
          hfitting hclean row hrow (List.mem_cons_of_mem _ hid)⟩
      · rw [if_neg hmem]
        rw [List.contains_iff_mem] at hmem
        have hfresh : node.id ∉ here ++ left := fun hleft => hmem (hvisited _ hleft)
        have hskip : Triple A
            (stands definition start before registered fun run rows =>
              Closing definition start before here left current run rows
                ∧ Fitting clean visited (node :: rest) rows)
            (transactAttempt (recordSkippedNode node.id)).run
            (outcome
              (fun _ => stands definition start before registered fun run rows =>
                Closing definition start before here left current run rows
                  ∧ Fitting clean visited rest rows)
              (escaped definition start before clean)) := by
          apply insertAttempt_spec
          · intro run rows hsound hp
            exact hsound.append ⟨_, _, (hp.1.skip hfresh).onWalk⟩ (fun _ => noMissing_silent rfl)
              fun hskipped => absurd rfl hskipped
          · intro run rows attempt hp _
            refine ⟨hp.1.skip hfresh, fun hclean row hrow hid hunvisited => ?_⟩
            rcases List.mem_append.mp hrow with hrow | hrow
            · exact hp.2 hclean row hrow (List.mem_cons_of_mem _ hid) hunvisited
            · -- a node is not skipped twice
              rw [List.mem_singleton.mp hrow] at hid
              exact absurd hid hnew
          · intro hclean run rows hp
            have hle : nextAttempt node.id rows ≤ 2 ^ 31 - 2 + 1 := by
              apply nextAttempt_le
              intro row hrow hid
              have := hp.2 hclean row hrow (by rw [hid]; exact List.mem_cons_self)
                (by rw [hid]; exact hmem)
              omega
            omega
        refine triple_andThen hskip fun attempt => ?_
        exact triple_andThen (emit_spec hanswered fun _ => nodeSkipped_fits) fun _ => ih hnodup

/-- The run is finished, and its end is made known. -/
theorem finishRunWith_spec
    (hanswered : clean → ∀ question answer, A question answer → Answered question answer)
    {finish : FinishWorkflowRun}
    (hstatus : finish.status ∈ [.paused, .succeeded, .cancelled, .uncertain])
    (hfits : clean → (WorkflowEventPayload.runStatusChanged context.runId finish.status
      finish.errorMessage).Fits)
    (hrunning : ∀ run rows, P run rows → run.status = .running)
    (hp : ∀ run rows, P run rows → P'
      { run with status := finish.status, errorCategory := finish.errorCategory,
                 errorMessage := capUtf8 finish.errorMessage (8 * 1024),
                 retryable := finish.retryable } rows) :
    Triple A (stands definition start before registered P) (finishRunWith context finish).run
      (outcome (fun _ => stands definition start before registered P')
        (escaped definition start before clean)) := by
  have hfinish : Triple A (stands definition start before registered P) (transact (finishRun finish)).run
      (outcome (fun _ => stands definition start before registered P')
        (escaped definition start before clean)) := by
    have hupdate : ∀ tables, finishRun finish tables = _ := fun tables =>
      if_pos (List.contains_iff_mem.mpr hstatus)
    rw [funext hupdate]
    exact updateRun_spec (fun run rows h => beq_iff_eq.mpr (hrunning run rows h)) hp
  unfold finishRunWith
  refine triple_andThen hfinish fun _ => ?_
  refine triple_andThen (emit_spec hanswered hfits) fun _ => ?_
  refine triple_andThen (triple_lift (triple_query fun _ _ _ hs => hs)) fun durationMs => ?_
  refine emit_spec hanswered fun _ => WorkflowEventPayload.fits_of_short ?_
  exact Nat.zero_le _

/-- The rows that the driver returns are those of the tables. -/
theorem requireRun_spec :
    Triple A (stands definition start before registered P) requireRun.run
      (outcome (fun details => stands definition start before registered fun run rows =>
          P run rows ∧ details.run = run ∧ details.nodeRuns = rows)
        (escaped definition start before clean)) := by
  refine triple_read fun s hs => ?_
  obtain ⟨hactive, hsound, run, hrun, hp⟩ := hs
  rw [hrun]
  exact ⟨hactive, hsound, run, hrun, hp, rfl, rfl⟩

/-- What the variables of the loop keep. -/
structure Loop (here left : List Uuid) (contexts : Contexts) (visited : List Uuid) : Prop where
  known : ∀ id ∈ here ++ left, (contexts id).isSome
  visited : ∀ id ∈ here ++ left, id ∈ visited

/-- What is true at the end of a turn. -/
def turnOutcome (definition : WorkflowDefinition) (start : Uuid) (registered released : Bool)
    (before : List WorkflowNodeRun) (here left : List Uuid) (current : Uuid) :
    Turn → Assertion Cancels fun s => Sound definition start before s.tables.nodeRuns
  | .ended details =>
      stands definition start before released (Ended definition start before here left current details)
  | .goOn next contexts visited =>
      (stands definition start before registered
        (AtNode definition start before (current :: here) left next)).given
        (Loop (current :: here) left contexts visited)

/-- The run has ended, and its rows are shown after it has been released. -/
theorem release_spec {released : Bool} {release : RunProcess Unit}
    (hrelease : ∀ P, Triple A (stands definition start before registered P) release.run
      (outcome (fun _ => stands definition start before released P) (escaped definition start before clean))) :
    Triple A
      (stands definition start before registered fun run rows => ∀ details : WorkflowRunDetails,
        details.run = run ∧ details.nodeRuns = rows →
          Ended definition start before here left current details run rows)
      (do
        release
        let details ← requireRun
        pure (.ended details) : RunProcess Turn).run
      (outcome (turnOutcome definition start registered released before here left current)
        (escaped definition start before clean)) := by
  refine triple_andThen (hrelease _) fun _ => ?_
  refine triple_andThen requireRun_spec fun details => triple_ok fun s hs => ?_
  obtain ⟨hactive, hsound, run, hrun, hended, hshown⟩ := hs
  exact ⟨hactive, hsound, run, hrun, hended details hshown⟩

theorem emitCondition_spec
    (hanswered : clean → ∀ question answer, A question answer → Answered question answer)
    (result : Option Bool) :
    Triple A (stands definition start before registered P) (emitCondition context current result).run
      (outcome (fun _ => stands definition start before registered P)
        (escaped definition start before clean)) := by
  cases result with
  | none => exact triple_ok fun _ hs => hs
  | some result =>
      refine emit_spec hanswered fun _ => WorkflowEventPayload.fits_of_short ?_
      exact Nat.zero_le _

theorem endStatus_final {status : WorkflowNodeStatus}
    (h : status ∈ [.succeeded, .failed, .cancelled, .uncertain]) :
    endStatus status ∈ [.paused, .succeeded, .cancelled, .uncertain] := by
  cases status <;> simp_all [endStatus]

variable {released : Bool} {release : RunProcess Unit} {node : WorkflowNode Uuid}
variable {visited : List Uuid} {step : StepOutcome}

/-- The end of a turn at a node that has not succeeded. -/
theorem conclude_failed_spec
    (hanswered : clean → ∀ question answer, A question answer → Answered question answer)
    (hrelease : ∀ P, Triple A (stands context.definition start before registered P) release.run
      (outcome (fun _ => stands context.definition start before released P)
        (escaped context.definition start before clean)))
    (hstep : Plausible clean contexts context.runId current attempt config step)
    (hfailed : step.status ≠ .succeeded) :
    Triple A
      (stands context.definition start before registered
        (InNode context.definition start before here left current fun own =>
          own.status = step.status))
      (conclude context release current contexts visited step).run
      (outcome (turnOutcome context.definition start registered released before here left current)
        (escaped context.definition start before clean)) := by
  have hfinal : step.status ∈ [.failed, .cancelled, .uncertain] :=
    (List.mem_cons.mp hstep.status).resolve_left hfailed
  unfold conclude
  rw [if_pos hfailed]
  refine triple_andThen (finishRunWith_spec hanswered (endStatus_final hstep.status)
    (fun hclean => (hstep.recordable hclean).run hfailed) ?_ ?_)
    fun _ => release_spec hrelease
  · rintro run rows ⟨earlier, own, _, hat, _⟩
    exact hat.running
  · rintro run rows ⟨earlier, own, hrows, hat, hid, _, hstatus⟩ details hshown
    refine ⟨hshown, hat.onWalk.walk, earlier, own, [], hrows, hat.driven, hid, by simp,
      Or.inr ⟨?_, ?_, rfl⟩⟩
    · rw [hstatus]
      exact hfinal
    · show endStatus step.status = endStatus own.status
      rw [hstatus]

/-- A node that has succeeded is the latest row of its walk. -/
theorem InNode.latest {run : WorkflowRunRecord} {rows : List WorkflowNodeRun}
    {row : WorkflowNodeRun → Prop}
    (h : InNode definition start before here left current row run rows) :
    ∃ own, latestNodeRun rows current = some own ∧ row own := by
  obtain ⟨earlier, own, hrows, _, hid, hattempt, hown⟩ := h
  refine ⟨own, ?_, hown⟩
  rw [hrows, ← hid]
  exact latestNodeRun_next (hid ▸ hattempt)

theorem InNode.onWalk {run : WorkflowRunRecord} {rows : List WorkflowNodeRun}
    {row : WorkflowNodeRun → Prop}
    (h : InNode definition start before here left current row run rows)
    (hfresh : current ∉ here ++ left) :
    OnWalk definition start (here ++ left) current rows := by
  obtain ⟨earlier, own, hrows, hat, hid, _⟩ := h
  rw [hrows]
  refine hat.onWalk.append (fun _ => ?_) (hid ▸ hfresh)
  rw [hid]
  exact List.mem_cons_self

/-- The run goes on at the next node. -/
theorem InNode.next {run : WorkflowRunRecord} {rows : List WorkflowNodeRun} {next : Uuid}
    (h : InNode definition start before here left current
      (fun own => own.status = .succeeded) run rows)
    (hsound : Sound definition start before rows) (hfresh : current ∉ here ++ left)
    (hedge : Edge definition.edges current next) :
    AtNode definition start before (current :: here) left next run rows := by
  obtain ⟨latest, hlatest, hstatus⟩ := h.latest
  have hwalk := (h.onWalk hfresh).step hlatest hstatus hedge
  obtain ⟨earlier, own, hrows, hat, hid, _, hown⟩ := h
  obtain ⟨executed, hearlier, hids, hsucceeded⟩ := hat.driven
  refine ⟨hat.running, hsound, hwalk, executed ++ [own], ?_, ?_, ?_⟩
  · rw [hrows, hearlier, List.append_assoc]
  · rw [List.map_append, hids, List.reverse_cons, ← hid]
    rfl
  · intro row hrow
    rcases List.mem_append.mp hrow with hrow | hrow
    · exact hsucceeded row hrow
    · rw [List.mem_singleton.mp hrow]
      exact hown

/-- The run comes to its end. -/
theorem InNode.closing {run : WorkflowRunRecord} {rows : List WorkflowNodeRun}
    (h : InNode definition start before here left current
      (fun own => own.status = .succeeded) run rows)
    (hfresh : current ∉ here ++ left) :
    Closing definition start before here left current run rows where
  running := by
    obtain ⟨_, _, _, hat, _⟩ := h
    exact hat.running
  onWalk := h.onWalk hfresh
  rows := by
    obtain ⟨earlier, own, hrows, hat, hid, _, hown⟩ := h
    exact ⟨earlier, own, [], hrows, hat.driven, hid, hown, by simp⟩

theorem InNode.fitting {run : WorkflowRunRecord} {rows : List WorkflowNodeRun}
    {row : WorkflowNodeRun → Prop} {nodes : List (WorkflowNode Uuid)}
    (h : InNode definition start before here left current row run rows)
    (hbefore : clean → ∀ row ∈ before, row.attempt + 1 < 2 ^ 31)
    (hvisited : ∀ id ∈ current :: here, id ∈ visited) : Fitting clean visited nodes rows := by
  intro hclean other hother _ hunvisited
  obtain ⟨earlier, own, hrows, hat, hid, _⟩ := h
  obtain ⟨executed, hearlier, hids, _⟩ := hat.driven
  rw [hrows, hearlier] at hother
  rcases List.mem_append.mp hother with hother | hother
  · rcases List.mem_append.mp hother with hother | hother
    · exact hbefore hclean other hother
    · have hmem : other.nodeId ∈ here.reverse := hids ▸ List.mem_map_of_mem hother
      exact absurd (hvisited _ (List.mem_cons_of_mem _ (List.mem_reverse.mp hmem))) hunvisited
  · rw [List.mem_singleton.mp hother, hid] at hunvisited
    exact absurd (hvisited current List.mem_cons_self) hunvisited

theorem Loop.next {contexts : Contexts} (h : Loop here left contexts visited) :
    Loop (current :: here) left (insertContext contexts current step) (current :: visited) where
  known id hid := by
    unfold insertContext
    by_cases heq : id = current
    · rw [if_pos heq]
      rfl
    · rw [if_neg heq]
      exact h.known id ((List.mem_cons.mp hid).resolve_left heq)
  visited id hid := by
    rcases List.mem_cons.mp hid with rfl | hid
    · exact List.mem_cons_self
    · exact List.mem_cons_of_mem _ (h.visited id hid)

/-- The end of a turn at a node that has succeeded. -/
theorem conclude_succeeded_spec
    (haccepted : AcceptedGraph context.definition.draft)
    (hanswered : clean → ∀ question answer, A question answer → Answered question answer)
    (hrelease : ∀ P, Triple A (stands context.definition start before registered P) release.run
      (outcome (fun _ => stands context.definition start before released P)
        (escaped context.definition start before clean)))
    (hbefore : clean → ∀ row ∈ before, row.attempt + 1 < 2 ^ 31)
    (hnode : node ∈ context.definition.nodes) (hid : node.id = current)
    (hfresh : current ∉ here ++ left)
    (hstep : Plausible clean contexts context.runId current attempt node.config step)
    (hloop : Loop here left contexts visited) (hsucceeded : step.status = .succeeded) :
    Triple A
      (stands context.definition start before registered
        (InNode context.definition start before here left current fun own =>
          own.status = step.status))
      (conclude context release current contexts (current :: visited) step).run
      (outcome (turnOutcome context.definition start registered released before here left current)
        (escaped context.definition start before clean)) := by
  unfold conclude
  rw [if_neg (not_not.mpr hsucceeded), hsucceeded]
  refine triple_andThen (emitCondition_spec hanswered step.conditionResult) fun _ => ?_
  have hvisited : ∀ id ∈ here ++ left, id ∈ current :: visited := fun id hmem =>
    List.mem_cons_of_mem _ (hloop.visited id hmem)
  have hnext := nextNode_spec haccepted hnode (hstep.branches hsucceeded)
  rw [hid] at hnext
  rcases hnext with ⟨next, hnext, hedge⟩ | ⟨hnext, hout⟩
  · rw [show nextNode context.definition.edges current step.conditionResult = _ from hnext]
    refine triple_known (triple_ok fun s hs => ?_)
    obtain ⟨hactive, hsound, run, hrun, hin⟩ := hs
    exact ⟨hloop.next, hactive, hsound, run, hrun, hin.next hsound hfresh hedge⟩
  · rw [show nextNode context.definition.edges current step.conditionResult = _ from hnext]
    apply triple_known
    have hclosing : Triple A
        (stands context.definition start before registered
          (InNode context.definition start before here left current fun own =>
            own.status = .succeeded))
        (recordSkipped context (current :: visited) context.definition.nodes).run
        (outcome
          (fun _ => stands context.definition start before registered
            (Closing context.definition start before here left current))
          (escaped context.definition start before clean)) := by
      refine (recordSkipped_spec hanswered hvisited haccepted.nodup).weaken (fun s hs => ?_)
        fun _ _ h => h
      obtain ⟨hactive, hsound, run, hrun, hin⟩ := hs
      refine ⟨hactive, hsound, run, hrun, hin.closing hfresh, hin.fitting hbefore fun id hmem => ?_⟩
      rcases List.mem_cons.mp hmem with rfl | hmem
      · exact List.mem_cons_self
      · exact hvisited id (List.mem_append_left _ hmem)
    refine triple_andThen hclosing fun _ => ?_
    refine triple_andThen (finishRunWith_spec hanswered (by simp)
      (fun _ => WorkflowEventPayload.fits_of_short (Nat.zero_le _)) (fun _ _ h => h.running) ?_)
      fun _ => release_spec hrelease
    intro run rows hclosing details hshown
    obtain ⟨earlier, own, skipped, hrows, hdriven, hown, hstatus, hskipped⟩ := hclosing.rows
    exact ⟨hshown, hclosing.onWalk.walk, earlier, own, skipped, hrows, hdriven, hown, hskipped,
      Or.inl ⟨hstatus, rfl, hout⟩⟩

/-- A running attempt that has not been finished. -/
def Started (attempt : Attempt) (own : WorkflowNodeRun) : Prop :=
  own.attempt = attempt.val ∧ own.status = .running ∧ own.errorMessage = none

theorem linkExecution_spec (hfresh : current ∉ here ++ left) (executionId : Option Uuid) :
    Triple A
      (stands definition start before registered
        (InNode definition start before here left current (Started attempt)))
      (linkExecution current attempt executionId).run
      (outcome
        (fun _ => stands definition start before registered
          (InNode definition start before here left current (Started attempt)))
        (escaped definition start before clean)) := by
  cases executionId with
  | none => exact triple_ok fun _ hs => hs
  | some executionId =>
      apply updateNode_spec hfresh
      · exact fun own hown => ⟨hown.1, hown.2.1⟩
      · exact fun own hown => ⟨rfl, rfl, hown⟩
      · exact fun _ _ own _ hown => noMissing_silent hown.2.2

theorem isTerminal_of_final {status : WorkflowNodeStatus}
    (h : status ∈ [.succeeded, .failed, .cancelled, .uncertain]) : status.isTerminal = true := by
  cases status <;> simp_all [WorkflowNodeStatus.isTerminal]

/-- The attempt is finished, if its result is not too long. -/
theorem finishNode_spec (hnodup : (definition.nodes.map WorkflowNode.id).Nodup)
    (hnode : node ∈ definition.nodes) (hid : node.id = current) (hfresh : current ∉ here ++ left)
    (hstep : Plausible clean contexts runId current attempt node.config step)
    (hloop : Loop here left contexts visited) :
    Triple A
      (stands definition start before registered
        (InNode definition start before here left current (Started attempt)))
      (transact (finishNode (finishOf current attempt step))).run
      (outcome
        (fun _ => stands definition start before registered
          (InNode definition start before here left current fun own => own.status = step.status))
        (escaped definition start before clean)) := by
  have hterminal : (!(finishOf current attempt step).status.isTerminal) = false := by
    rw [show (finishOf current attempt step).status.isTerminal = true from
      isTerminal_of_final hstep.status]
    rfl
  by_cases hlong : ((finishOf current attempt step).result.any fun result =>
      decide (32 * 1024 < utf8Len result.toJson)) = true
  · refine transact_refused (fun tables => ?_) fun hclean => ?_
    · unfold finishNode
      rw [hterminal, if_neg Bool.false_ne_true, if_pos hlong]
      exact ⟨_, rfl⟩
    · obtain ⟨result, hresult, hlength⟩ := (Option.any_eq_true _ _).mp hlong
      have := (hstep.recordable hclean).result result hresult
      rw [decide_eq_true_iff] at hlength
      omega
  · have hupdate : ∀ tables, finishNode (finishOf current attempt step) tables
        = updateNode current attempt.val (finishedRow (finishOf current attempt step))
            "工作流节点无法进入终态" tables := by
      intro tables
      unfold finishNode
      rw [hterminal, if_neg Bool.false_ne_true, if_neg hlong]
      rfl
    rw [funext hupdate]
    apply updateNode_spec hfresh
    · exact fun own hown => ⟨hown.1, hown.2.1⟩
    · exact fun own hown => ⟨rfl, rfl, rfl⟩
    · intro hdominated hwalk own hown _ row hrow other hother hsame source predicate hconfig
      rw [List.mem_singleton.mp hrow] at hsame ⊢
      have hother' : other = node := List.inj_on_of_nodup_map hnodup hother hnode
        ((hsame.trans hown).trans hid.symm)
      rw [hother'] at hconfig
      have hsource := hdominated node hnode source predicate hconfig _ (hid ▸ hwalk)
      exact hstep.sourced source predicate hconfig (hloop.known source hsource)

theorem plausible_cancelled {contexts : Contexts} :
    Plausible clean contexts runId nodeId attempt config cancelledOutcome where
  status := by simp [cancelledOutcome]
  branches h := by cases h
  sourced _ _ _ _ := by decide
  recordable _ := by
    have hmessage : cancelledOutcome.errorMessage = some AppError.cancelled.message := rfl
    apply recordable_short
    · rfl
    · rw [hmessage, Option.map_some, Option.getD_some]
      exact fixedErrors_short _ (by simp [fixedErrors])

/-- The deeds say nothing of the rows. -/
theorem deed_spec {α : Type} {f : RunState → α} {g : RunState → List Deed} :
    Triple A (stands definition start before registered P)
      (Process.atomic fun s => (f s, { s with deeds := g s }))
      (fun _ => stands definition start before registered P) :=
  triple_atomic fun _ hs => hs

/-- **One turn.**  It ends the drive or goes to the next node; it fails only if it is not
clean. -/
theorem turn_spec (haccepted : AcceptedGraph context.definition.draft)
    (hstart : start ∈ context.definition.nodes.map WorkflowNode.id)
    (hanswered : clean → ∀ question answer, A question answer → Answered question answer)
    (hrelease : ∀ P, Triple A (stands context.definition start before registered P) release.run
      (outcome (fun _ => stands context.definition start before released P)
        (escaped context.definition start before clean)))
    (hbefore : clean → ∀ row ∈ before, row.attempt + 1 < 2 ^ 31)
    (hloop : Loop here left contexts visited) :
    Triple A
      (stands context.definition start before registered
        (AtNode context.definition start before here left current))
      (turn context release current contexts visited).run
      (outcome (turnOutcome context.definition start registered released before here left current)
        (escaped context.definition start before clean)) := by
  have hwalk : ∀ s, (stands context.definition start before registered
      (AtNode context.definition start before here left current)).holds s →
      Walk (Edge context.definition.edges) start (here ++ left) current := by
    intro s hs
    obtain ⟨_, _, run, _, hat⟩ := hs
    exact hat.onWalk.walk
  refine triple_of_fact hwalk fun hwalk => ?_
  -- the node exists and has not been left
  obtain ⟨order, hsorted, horder, hmem⟩ := haccepted.order
  have htargets : ∀ a b, Edge context.definition.edges a b → b ∈ order := by
    rintro a b ⟨edge, hedge, _, rfl⟩
    exact (hmem _).mpr (haccepted.known edge hedge).2
  have hfresh : current ∉ here ++ left :=
    (List.nodup_cons.mp (hsorted.nodup_walk horder htargets hwalk)).1
  have hcurrent := (hwalk.closed (· ∈ order) htargets ((hmem start).mpr hstart)).1
  obtain ⟨found, hfound, hfoundId⟩ := List.mem_map.mp ((hmem current).mp hcurrent)
  unfold turn
  refine triple_andThen setCurrentNode_spec fun _ => ?_
  cases hfind : context.definition.nodes.find? fun node => node.id == current with
  | none =>
      have hnone := List.find?_eq_none.mp hfind found hfound
      exact absurd (beq_iff_eq.mpr hfoundId) hnone
  | some node =>
      have hnode := List.mem_of_find?_eq_some hfind
      have hid : node.id = current := by
          have hfound := List.find?_some hfind
          exact beq_iff_eq.mp hfound
      dsimp only
      refine triple_andThen (startNodeAttempt_spec hbefore hfresh) fun attempt => ?_
      refine triple_andThen (emit_spec hanswered fun _ =>
        WorkflowEventPayload.fits_of_short (Nat.zero_le _)) fun _ => ?_
      have hrecorded : ∀ step : StepOutcome,
          Plausible clean contexts context.runId current attempt node.config step →
          Triple A
            (stands context.definition start before registered
              (InNode context.definition start before here left current (Started attempt)))
            (do
              linkExecution current attempt step.executionId
              transact (finishNode (finishOf current attempt step))
              emit (.nodeStatusChanged context.runId current attempt step.status
                step.executionId step.errorMessage)
              conclude context release current contexts (current :: visited) step).run
            (outcome
              (turnOutcome context.definition start registered released before here left current)
              (escaped context.definition start before clean)) := by
        intro step hstep
        refine triple_andThen (linkExecution_spec hfresh step.executionId) fun _ => ?_
        refine triple_andThen (finishNode_spec haccepted.nodup hnode hid hfresh hstep hloop)
          fun _ => ?_
        refine triple_andThen (emit_spec hanswered fun hclean =>
          (hstep.recordable hclean).node) fun _ => ?_
        by_cases hsucceeded : step.status = .succeeded
        · exact conclude_succeeded_spec haccepted hanswered hrelease hbefore hnode hid hfresh
            hstep hloop hsucceeded
        · exact conclude_failed_spec hanswered hrelease hstep hsucceeded
      have hpoll : Triple A
          (stands context.definition start before registered
            (InNode context.definition start before here left current (Started attempt)))
          (poll current).run
          (outcome
            (fun _ => stands context.definition start before registered
              (InNode context.definition start before here left current (Started attempt)))
            (escaped context.definition start before clean)) :=
        triple_atomic fun _ hs => hs
      refine triple_andThen hpoll fun cancelled => ?_
      cases cancelled with
      | true => exact triple_known (hrecorded cancelledOutcome plausible_cancelled)
      | false =>
          have hexecuted : Triple A
              (stands context.definition start before registered
                (InNode context.definition start before here left current (Started attempt)))
              (bodyOf context node attempt contexts)
              (fun step => (stands context.definition start before registered
                (InNode context.definition start before here left current
                  (Started attempt))).given
                (Plausible clean contexts context.runId node.id attempt node.config step)) :=
            triple_bind deed_spec fun _ => triple_bind (executeNode_spec hanswered) fun step =>
              triple_given fun hexpected => triple_atomic fun _ hs => ⟨hexpected, hs⟩
          rw [hid] at hexecuted
          exact triple_andThen (triple_lift hexecuted) fun step => triple_given (hrecorded step)

/-- How a drive ends, with its result. -/
def Completed (definition : WorkflowDefinition) (start : Uuid) (before : List WorkflowNodeRun)
    (left : List Uuid) (result : Option WorkflowRunDetails) (run : WorkflowRunRecord)
    (rows : List WorkflowNodeRun) : Prop :=
  ∃ details here current, result = some details
    ∧ Ended definition start before here left current details run rows

/-- **The loop.**  Every turn leaves another node, so the fuel is enough. -/
theorem turns_spec (context : RunContext)
    (haccepted : AcceptedGraph context.definition.draft)
    (hstart : start ∈ context.definition.nodes.map WorkflowNode.id)
    (hanswered : clean → ∀ question answer, A question answer → Answered question answer)
    (hrelease : ∀ P, Triple A (stands context.definition start before registered P) release.run
      (outcome (fun _ => stands context.definition start before released P)
        (escaped context.definition start before clean)))
    (hbefore : clean → ∀ row ∈ before, row.attempt + 1 < 2 ^ 31)
    (hloop : Loop here left contexts visited) {fuel : Nat}
    (hfuel : context.definition.nodes.length ≤ fuel + (here ++ left).length) :
    Triple A
      (stands context.definition start before registered
        (AtNode context.definition start before here left current))
      (turns context release fuel current contexts visited).run
      (outcome
        (fun result => stands context.definition start before released
          (Completed context.definition start before left result))
        (escaped context.definition start before clean)) := by
  induction fuel generalizing here current contexts visited with
  | zero =>
      -- a walk has left fewer nodes than there are
      refine triple_of_fact (fun s hs => ?_) fun hshort => absurd hfuel hshort
      obtain ⟨_, _, run, _, hat⟩ := hs
      obtain ⟨order, hsorted, horder, hmem⟩ := haccepted.order
      have htargets : ∀ a b, Edge context.definition.edges a b → b ∈ order := by
        rintro a b ⟨edge, hedge, _, rfl⟩
        exact (hmem _).mpr (haccepted.known edge hedge).2
      have hlength := hsorted.length_walk horder htargets ((hmem start).mpr hstart) hat.onWalk.walk
      have hle := horder.length_le_of_subset fun x hx => (hmem x).mp hx
      rw [List.length_map] at hle
      have hdraft : context.definition.draft.nodes.length = context.definition.nodes.length := rfl
      omega
  | succ fuel ih =>
      unfold turns
      refine triple_andThen (turn_spec haccepted hstart hanswered hrelease hbefore hloop)
        fun result => ?_
      cases result with
      | ended details =>
          refine triple_ok fun s hs => ?_
          obtain ⟨hactive, hsound, run, hrun, hended⟩ := hs
          exact ⟨hactive, hsound, run, hrun, details, here, current, rfl, hended⟩
      | goOn next contexts visited =>
          refine triple_given fun hnext => ih hnext ?_
          rw [List.cons_append, List.length_cons]
          omega

end Turn

end QingzhouSSH.Services.WorkflowService
