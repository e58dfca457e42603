/-
  QingzhouSSH.Services.WorkflowDrivers — whole drives of a workflow run.

  A drive by `run` starts with empty tables, one by `retryFailedNode` with what earlier
  drives have left.  Both keep the rows of the run on one walk.

  Main results:
    * `run_spec`, `retryFailedNode_spec` — how a drive ends;
    * `condition_sourced_iff` — when no condition is reached without its source;
    * `run_ends`, `drives_settle` — when every run comes to an end and is settled.
-/
import QingzhouSSH.Services.WorkflowTurn

namespace QingzhouSSH.Services.WorkflowService

open String (utf8Len)
open QingzhouSSH.Lib
open QingzhouSSH.Lib.Digraph (Walk)
open QingzhouSSH.Lib.Process
open QingzhouSSH.Domain
open QingzhouSSH.Core.Tasks
open QingzhouSSH.Core.Workflows
open QingzhouSSH.Repositories.WorkflowRepository

/-! ## §1. A new run. -/

/-- Nothing is known of the run. -/
def initialState : RunState :=
  { tables := { run := none, nodeRuns := [], events := [] }, active := none, deeds := [] }

variable {definition : WorkflowDefinition} {start : Uuid} {before : List WorkflowNodeRun}
variable {clean : Prop}
variable {A : (question : RunQuestion) → RunAnswer question → Prop}

theorem onWalk_nil : OnWalk definition start [] start [] where
  walk := .here
  visited := by simp
  succeeded := by simp

theorem sound_nil : Sound definition start [] [] where
  onWalk := ⟨[], start, onWalk_nil⟩
  noMissing _ _ hrow := absurd hrow List.not_mem_nil
  once := ⟨[], rfl, List.nodup_nil⟩

/-- Before a run has been created. -/
def unstarted (definition : WorkflowDefinition) (start : Uuid) :
    Assertion Cancels fun s => Sound definition start [] s.tables.nodeRuns where
  holds s := s.active = none ∧ s.tables.run = none ∧ s.tables.nodeRuns = []
  stable s s' hcancel h := by
    have hactive : s'.active.isSome = false := by
      rw [hcancel.keeps.2, h.1]
      rfl
    dsimp only
    rw [hcancel.keeps.1]
    exact ⟨Option.isNone_iff_eq_none.mp (Option.isSome_eq_false_iff.mp hactive), h.2⟩
  safe s h := by
    rw [h.2.2]
    exact sound_nil

section Drivers

variable [UuidCrate] {catalog : List TaskDefinition} {pathIsAbsolute : Text → Bool}

/-- A preflight that passes has named a server that is known. -/
theorem preflight_spec (hanswered : clean → ∀ question answer, A question answer →
      Answered question answer)
    {request : StartWorkflowRunRequest}
    {C : RunState → Prop} {U : Assertion Cancels C} :
    Triple A U (preflight catalog pathIsAbsolute (some definition) request).run
      (outcome
        (fun found => U.given (found = definition ∧ isBlankText request.serverId = false
          ∧ (clean → ∀ runId workflowId,
            (WorkflowEventPayload.runStarted runId workflowId request.serverId).Fits)))
        U) := by
  unfold preflight
  by_cases hblank : isBlankText request.serverId = true
  · rw [if_pos hblank]
    exact triple_throw fun _ hs => hs
  · rw [if_neg hblank]
    rw [Bool.not_eq_true] at hblank
    refine triple_andThen (triple_result (fun _ _ _ hs => hs) fun _ _ _ hs => hs) fun _ => ?_
    have htrusted : Triple A U (requireTrustedServer request.serverId).run
        (outcome (fun _ => U.given (clean → ∀ runId workflowId,
          (WorkflowEventPayload.runStarted runId workflowId request.serverId).Fits)) U) := by
      refine triple_query fun answer hadmitted s hs => ?_
      cases answer with
      | ok _ => exact ⟨fun hclean => hanswered hclean _ _ hadmitted rfl, hs⟩
      | error e => exact hs
    refine triple_andThen htrusted fun _ => triple_given fun hfits => ?_
    have hdone : Triple A U (pure definition : RunProcess WorkflowDefinition).run
        (outcome
          (fun found => U.given (found = definition ∧ isBlankText request.serverId = false
            ∧ (clean → ∀ runId workflowId,
              (WorkflowEventPayload.runStarted runId workflowId request.serverId).Fits)))
          U) :=
      triple_ok fun _ hs => ⟨⟨rfl, hblank, hfits⟩, hs⟩
    by_cases hdangerous :
        (requiresDangerousConfirmation catalog definition && !request.dangerousConfirmed) = true
    · rw [if_pos hdangerous]
      exact triple_throw fun _ hs => hs
    · rw [if_neg hdangerous]
      by_cases hremote : hasRemoteNodes definition = true
      · rw [if_pos hremote]
        refine triple_andThen ?_ fun _ => hdone
        refine triple_query fun answer _ s hs => ?_
        cases answer with
        | ok _ => exact hs
        | error e => exact hs
      · rw [if_neg hremote]
        exact hdone

variable {P : WorkflowRunRecord → List WorkflowNodeRun → Prop}

omit [UuidCrate] in
theorem register_spec {E : Assertion Cancels fun s => Sound definition start before s.tables.nodeRuns} :
    Triple A (stands definition start before false P) (Process.update register : RunProcess Unit).run
      (outcome (fun _ => stands definition start before true P) E) := by
  refine triple_update ?_ ?_
  · intro s s' hs hok
    obtain ⟨hactive, hrest⟩ := hs
    unfold register at hok
    rw [Option.isSome_eq_false_iff, Option.isNone_iff_eq_none] at hactive
    rw [hactive] at hok
    cases hok
    exact ⟨rfl, hrest⟩
  · intro s e hs herror
    obtain ⟨hactive, _⟩ := hs
    unfold register at herror
    rw [Option.isSome_eq_false_iff, Option.isNone_iff_eq_none] at hactive
    rw [hactive] at herror
    cases herror

omit [UuidCrate] in
/-- A run that may be registered already is registered once only. -/
theorem register_free {registered : Bool} (hregistered : clean → registered = false) :
    Triple A (stands definition start before registered P) (Process.update register : RunProcess Unit).run
      (outcome (fun _ => stands definition start before true P) (escaped definition start before clean)) := by
  cases registered with
  | false => exact register_spec
  | true =>
      refine triple_update ?_ ?_
      · intro s s' hs hok
        obtain ⟨entry, hentry⟩ := Option.isSome_iff_exists.mp hs.1
        unfold register at hok
        rw [hentry] at hok
        cases hok
      · intro s e hs _
        exact ⟨hs.2.1, fun hclean => Bool.noConfusion (hregistered hclean)⟩

omit [UuidCrate] in
theorem removeRun_spec {registered : Bool}
    {E : Assertion Cancels fun s => Sound definition start before s.tables.nodeRuns} :
    Triple A (stands definition start before registered P) removeRun.run
      (outcome (fun _ => stands definition start before false P) E) :=
  triple_atomic fun _ hs => ⟨rfl, hs.2⟩

omit [UuidCrate] in
theorem start_mem (hstart : startNodeId definition.draft = some start) :
    start ∈ definition.nodes.map WorkflowNode.id
      ∧ ∃ node, definition.nodes.find? isStart = some node ∧ node.id = start := by
  unfold startNodeId at hstart
  split at hstart
  next node hfilter =>
    have hfind : definition.nodes.find? isStart = some node := by
      rw [← List.head?_filter]
      exact congrArg List.head? hfilter
    have hid : node.id = start := Option.some.inj hstart
    exact ⟨hid ▸ List.mem_map_of_mem (List.mem_of_find?_eq_some hfind), node, hfind, hid⟩
  next => cases hstart

/-- **A drive by `run`.** -/
theorem run_spec (haccepted : AcceptedGraph definition.draft)
    (hstart : startNodeId definition.draft = some start)
    (hanswered : clean → ∀ question answer, A question answer → Answered question answer)
    (request : StartWorkflowRunRequest) :
    Triple A (unstarted definition start)
      (run catalog pathIsAbsolute (some definition) request).run
      (outcome
        (fun result => stands definition start [] false (Completed definition start [] [] result))
        ((unstarted definition start).or (escaped definition start [] clean))) := by
  obtain ⟨hmem, node, hfind, hid⟩ := start_mem hstart
  unfold run
  refine triple_andThen ((preflight_spec hanswered).leave fun _ => Or.inl) fun found => ?_
  refine triple_given fun hfound => ?_
  obtain ⟨rfl, hserver, hfits⟩ := hfound
  rw [hfind]
  dsimp only
  have hdraw : Triple A (unstarted found start) drawId.run
      (outcome (fun _ => unstarted found start)
        ((unstarted found start).or (escaped found start [] clean))) :=
    triple_lift (triple_query fun _ _ _ hs => hs)
  refine triple_andThen hdraw fun runId => ?_
  have hcreate : Triple A (unstarted found start)
      (transact (createRun runId found.id found.version request.serverId)).run
      (outcome (fun _ => stands found start [] false fun run rows => run.status = .queued ∧ rows = [])
        ((unstarted found start).or (escaped found start [] clean))) := by
    refine triple_update ?_ ?_
    · intro s s' hs hok
      obtain ⟨hactive, hrun, hrows⟩ := hs
      unfold createRun at hok
      split at hok
      · cases hok
      · cases hok
        refine ⟨?_, ?_, _, rfl, rfl, hrows⟩
        · show s.active.isSome = false
          rw [hactive]
          rfl
        · show Sound found start [] s.tables.nodeRuns
          rw [hrows]
          exact sound_nil
    · intro s e hs _
      exact Or.inl hs
  refine triple_andThen hcreate fun _ => ?_
  -- from here on an error is a record that is refused or an event that is not delivered
  refine Triple.leave ?_ fun _ hs => Or.inr hs
  refine triple_andThen register_spec fun _ => ?_
  have hrunning : Triple A
      (stands found start [] true fun run rows => run.status = .queued ∧ rows = [])
      (transact (markRunRunning node.id)).run
      (outcome (fun _ => stands found start [] true (AtNode found start [] [] [] node.id))
        (escaped found start [] clean)) := by
    apply updateRun_spec
    · intro run rows h
      exact beq_iff_eq.mpr h.1
    · intro run rows h
      rw [h.2, hid]
      exact ⟨rfl, sound_nil, onWalk_nil, [], rfl, rfl, by simp⟩
  refine triple_andThen hrunning fun _ => ?_
  refine triple_andThen (emit_spec hanswered fun hclean => hfits hclean runId found.id) fun _ => ?_
  refine turns_spec { definition := found, runId := runId } haccepted (hid ▸ hmem) hanswered
    (fun P => removeRun_spec) (fun _ row hrow => absurd hrow List.not_mem_nil) ?_ ?_
  · exact ⟨by simp, by simp⟩
  · exact Nat.le_add_right _ _

/-! ## §2. A retry. -/

omit [UuidCrate] in
/-- A node that can be retried is where the walk has come to. -/
theorem retryable_current {left : List Uuid} {current at' : Uuid} {details : WorkflowRunDetails}
    (hretryable : retryableNode details = .ok current)
    (hwalk : OnWalk definition start left at' details.nodeRuns) :
    details.run.status = .paused ∧ details.run.retryable = true ∧ current = at' := by
  unfold retryableNode at hretryable
  split at hretryable
  · cases hretryable
  next hpaused =>
    rw [Bool.not_eq_true, Bool.or_eq_false_iff, bne_eq_false_iff_eq, Bool.not_eq_false'] at hpaused
    refine ⟨hpaused.1, hpaused.2, ?_⟩
    cases hcurrent : details.run.currentNodeId with
    | none =>
        rw [hcurrent] at hretryable
        cases hretryable
    | some failing =>
        rw [hcurrent] at hretryable
        dsimp only at hretryable
        cases hlatest : latestNodeRun details.nodeRuns failing with
        | none =>
            rw [hlatest] at hretryable
            cases hretryable
        | some failed =>
            rw [hlatest] at hretryable
            dsimp only at hretryable
            split at hretryable
            · cases hretryable
            next hfailed =>
              rw [Bool.not_eq_true, Bool.or_eq_false_iff, bne_eq_false_iff_eq] at hfailed
              cases hretryable
              -- the nodes that the walk has left have not failed
              obtain ⟨hmem, hid⟩ := latestNodeRun_mem hlatest
              have hplace := hwalk.visited failed hmem (by rw [hfailed.1]; decide)
              rw [hid] at hplace
              rcases List.mem_cons.mp hplace with heq | hleft
              · exact heq
              · obtain ⟨row, hrow, hsucceeded⟩ := hwalk.succeeded current hleft
                rw [hlatest] at hrow
                rw [← Option.some.inj hrow, hfailed.1] at hsucceeded
                cases hsucceeded

omit [UuidCrate] in
/-- What a retry starts its loop with. -/
theorem recorded_loop {left : List Uuid} {current : Uuid} {rows : List WorkflowNodeRun}
    (hwalk : OnWalk definition start left current rows) :
    Loop [] left (recordedContexts rows) (recordedNodes rows) where
  known id hid := by
    obtain ⟨row, hlatest, hstatus⟩ := hwalk.succeeded id hid
    unfold recordedContexts
    rw [hlatest, Option.bind_some, if_pos hstatus]
    rfl
  visited id hid := by
    obtain ⟨row, hlatest, hstatus⟩ := hwalk.succeeded id hid
    obtain ⟨hmem, heq⟩ := latestNodeRun_mem hlatest
    unfold recordedNodes
    rw [List.mem_filter, hlatest]
    refine ⟨heq ▸ List.mem_map_of_mem hmem, ?_⟩
    show (row.status == .succeeded || row.status == .skipped) = true
    rw [hstatus]
    rfl

omit [UuidCrate] in
theorem retrying_fits {runId : Uuid} :
    (WorkflowEventPayload.runStatusChanged runId .running (some "正在重试失败节点".toList)).Fits := by
  have hshort :
      utf8Len (((some "正在重试失败节点".toList).map defaultRedactor.redact).getD []) ≤ 500 := by
    decide
  exact WorkflowEventPayload.fits_of_short hshort

omit [UuidCrate] in
/-- A drive of a retry, once the run is registered. -/
theorem continueRetry_spec (context : RunContext) (details : WorkflowRunDetails)
    (haccepted : AcceptedGraph context.definition.draft)
    (hstart : startNodeId context.definition.draft = some start)
    (hanswered : clean → ∀ question answer, A question answer → Answered question answer)
    {left : List Uuid} {current : Uuid}
    (hwalk : OnWalk context.definition start left current details.nodeRuns)
    (hbefore : clean → ∀ row ∈ details.nodeRuns, row.attempt + 1 < 2 ^ 31) :
    Triple A
      (stands context.definition start details.nodeRuns true fun run rows =>
        run.status = .running ∧ rows = details.nodeRuns)
      (continueRetry context details current).run
      (outcome
        (fun result => stands context.definition start details.nodeRuns true
          (Completed context.definition start details.nodeRuns left result))
        (escaped context.definition start details.nodeRuns clean)) := by
  have hhead : ∀ s : RunState,
      (stands context.definition start details.nodeRuns true fun run rows =>
        run.status = .running ∧ rows = details.nodeRuns).holds s →
      (stands context.definition start details.nodeRuns true
        (AtNode context.definition start details.nodeRuns [] left current)).holds s := by
    intro s hs
    obtain ⟨hactive, hsound, run, hrun, hrunning, hrows⟩ := hs
    refine ⟨hactive, hsound, run, hrun, hrunning, hsound, ?_, [], ?_, rfl, by simp⟩
    · rw [hrows]
      exact hwalk
    · rw [hrows, List.append_nil]
  unfold continueRetry
  exact Triple.weaken (turns_spec context haccepted (start_mem hstart).1 hanswered
    (fun P => triple_ok fun _ hs => hs) hbefore (recorded_loop hwalk)
    (Nat.le_add_right _ _)) hhead fun _ _ h => h

/-- **A drive by `retryFailedNode`**, from where earlier drives have left the run. -/
theorem retryFailedNode_spec (haccepted : AcceptedGraph definition.draft)
    (hstart : startNodeId definition.draft = some start)
    (hanswered : clean → ∀ question answer, A question answer → Answered question answer)
    (dangerousConfirmed : Bool) {registered : Bool} (hregistered : clean → registered = false)
    {run₀ : WorkflowRunRecord} (hsound : Sound definition start before before)
    (hbefore : clean → ∀ row ∈ before, row.attempt + 1 < 2 ^ 31) :
    Triple A
      (stands definition start before registered fun run rows => run = run₀ ∧ rows = before)
      (retryFailedNode catalog pathIsAbsolute (some definition) dangerousConfirmed).run
      (outcome
        (fun result => stands definition start before false fun run rows =>
          ∃ left, Completed definition start before left result run rows)
        ((stands definition start before registered fun run rows => run = run₀ ∧ rows = before).or
          (escaped definition start before clean))) := by
  obtain ⟨left, at', hwalk⟩ := hsound.onWalk
  unfold retryFailedNode
  have hread : Triple A
      (stands definition start before registered fun run rows => run = run₀ ∧ rows = before)
      requireRun.run
      (outcome
        (fun details => (stands definition start before registered fun run rows =>
          run = run₀ ∧ rows = before).given (details.run = run₀ ∧ details.nodeRuns = before))
        ((stands definition start before registered fun run rows => run = run₀ ∧ rows = before).or
          (escaped definition start before clean))) := by
    refine triple_read fun s hs => ?_
    obtain ⟨hactive, hkept, run, hrun, hsame, hrows⟩ := hs
    rw [hrun]
    exact ⟨⟨hsame, hrows⟩, hactive, hkept, run, hrun, hsame, hrows⟩
  refine triple_andThen hread fun details => triple_given fun hshown => ?_
  obtain ⟨rfl, rfl⟩ := hshown
  cases hretryable : retryableNode details with
  | error e => exact triple_throw fun _ hs => Or.inl hs
  | ok current =>
      apply triple_known
      obtain ⟨hpaused, hmay, rfl⟩ := retryable_current hretryable hwalk
      refine triple_andThen ((preflight_spec hanswered).leave fun _ => Or.inl) fun found => ?_
      refine triple_given fun hfound => ?_
      obtain ⟨rfl, _⟩ := hfound
      refine Triple.leave ?_ fun _ hs => Or.inr hs
      have hresume : Triple A
          (stands found start details.nodeRuns registered fun run rows =>
            run = details.run ∧ rows = details.nodeRuns)
          (transact resumePausedRun).run
          (outcome
            (fun _ => stands found start details.nodeRuns registered fun run rows =>
              run.status = .running ∧ rows = details.nodeRuns)
            (escaped found start details.nodeRuns clean)) := by
        apply updateRun_spec
        · intro run rows h
          rw [h.1, hpaused, hmay]
          rfl
        · exact fun run rows h => ⟨rfl, h.2⟩
      refine triple_andThen hresume fun _ => ?_
      refine triple_andThen (register_free hregistered) fun _ => ?_
      refine triple_andThen (emit_spec hanswered fun _ => retrying_fits) fun _ => ?_
      refine triple_andThen (triple_lift (continueRetry_spec
        { definition := found, runId := details.run.id } details haccepted hstart hanswered hwalk
        hbefore)) fun result => ?_
      cases result with
      | ok result =>
          refine triple_andThen removeRun_spec fun _ => triple_known
            (triple_ok fun s hs => ?_)
          obtain ⟨hactive, hkept, run, hrun, hcompleted⟩ := hs
          exact ⟨hactive, hkept, run, hrun, left, hcompleted⟩
      | error e =>
          have hremove : Triple A (escaped found start details.nodeRuns clean) removeRun.run
              (outcome (fun _ => escaped found start details.nodeRuns clean)
                (escaped found start details.nodeRuns clean)) :=
            triple_atomic fun _ hs => hs
          exact triple_andThen hremove fun _ => triple_throw fun _ hs => hs

omit [UuidCrate] in
/-- A run that has not been created is not found. -/
theorem requireRun_absent {C : RunState → Prop} {U : Assertion Cancels C}
    (hrun : ∀ s, U.holds s → s.tables.run = none) :
    Triple A U requireRun.run (outcome (fun _ => U.given False) U) := by
  refine triple_read fun s hs => ?_
  rw [hrun s hs]
  exact hs

/-- A retry of a run that was never created fails at once. -/
theorem retryFailedNode_absent (stored : Option WorkflowDefinition) (dangerousConfirmed : Bool)
    {U : Assertion Cancels fun s => Sound definition start before s.tables.nodeRuns}
    (hrun : ∀ s, U.holds s → s.tables.run = none) :
    Triple A U (retryFailedNode catalog pathIsAbsolute stored dangerousConfirmed).run
      (outcome (fun _ => U) U) := by
  unfold retryFailedNode
  exact triple_andThen (requireRun_absent hrun) fun details => triple_given fun h => h.elim

/-! ## §3. The states of a run. -/

variable (catalog pathIsAbsolute definition)
variable (A : (question : RunQuestion) → RunAnswer question → Prop) (G : RunState → Prop)

/-- Where a drive of the run returns.  A retry starts in a state of `G` that another drive
has left. -/
inductive Returned : Except AppError (Option WorkflowRunDetails) → RunState → Prop where
  | run (request : StartWorkflowRunRequest) {result} {s : RunState} :
      ReachesIn Cancels A
        ((run catalog pathIsAbsolute (some definition) request).run, initialState)
        (done result, s) → Returned result s
  | retry (dangerousConfirmed : Bool) {result result'} {s s' : RunState} :
      Returned result s → G s →
      ReachesIn Cancels A
        ((retryFailedNode catalog pathIsAbsolute (some definition) dangerousConfirmed).run, s)
        (done result', s') → Returned result' s'

/-- The states that a run comes through. -/
inductive Reached : RunState → Prop where
  | run (request : StartWorkflowRunRequest) {p} {s : RunState} :
      ReachesIn Cancels A
        ((run catalog pathIsAbsolute (some definition) request).run, initialState) (p, s) →
      Reached s
  | retry (dangerousConfirmed : Bool) {result p} {s s' : RunState} :
      Returned definition catalog pathIsAbsolute A G result s → G s →
      ReachesIn Cancels A
        ((retryFailedNode catalog pathIsAbsolute (some definition) dangerousConfirmed).run, s)
        (p, s') → Reached s'

variable {catalog pathIsAbsolute definition} {A G}

/-- A run that was never created. -/
def absent (definition : WorkflowDefinition) (start : Uuid) (before : List WorkflowNodeRun)
    (registered : Bool) : Assertion Cancels fun s => Sound definition start before s.tables.nodeRuns where
  holds s := s.active.isSome = registered ∧ Sound definition start before s.tables.nodeRuns
    ∧ s.tables.run = none
  stable s s' hcancel h := by
    dsimp only
    rw [hcancel.keeps.1, hcancel.keeps.2]
    exact h
  safe _ h := h.2.1

/-- No driver is at work. -/
def Settled (s : RunState) : Prop :=
  s.active = none ∧ ∀ run, s.tables.run = some run → run.status ≠ .running

omit [UuidCrate] in
theorem Ended.settled {here left : List Uuid} {current : Uuid} {details : WorkflowRunDetails}
    {run : WorkflowRunRecord} {rows : List WorkflowNodeRun}
    (h : Ended definition start before here left current details run rows) :
    run.status ≠ .running := by
  obtain ⟨_, own, _, _, _, _, _, hend⟩ := h.rows
  rcases hend with ⟨_, hrun, _⟩ | ⟨hown, hrun, _⟩
  · rw [hrun]
    decide
  · rw [hrun]
    cases hstatus : own.status <;> simp_all [endStatus]

omit [UuidCrate] in
theorem active_eq_none {s : RunState} (h : s.active.isSome = false) : s.active = none := by
  rw [Option.isSome_eq_false_iff, Option.isNone_iff_eq_none] at h
  exact h

/-- Every state of a retry is sound, and a clean retry leaves the run settled. -/
theorem retry_reaches (haccepted : AcceptedGraph definition.draft)
    (hstart : startNodeId definition.draft = some start)
    (hanswered : clean → ∀ question answer, A question answer → Answered question answer)
    (dangerousConfirmed : Bool) {s : RunState}
    (hsound : ∃ before, Sound definition start before s.tables.nodeRuns)
    (hsettled : clean → Settled s)
    (hbefore : clean → ∀ row ∈ s.tables.nodeRuns, row.attempt + 1 < 2 ^ 31)
    {p : Process RunState RunAnswer (Except AppError (Option WorkflowRunDetails))} {s' : RunState}
    (hreach : ReachesIn Cancels A
      ((retryFailedNode catalog pathIsAbsolute (some definition) dangerousConfirmed).run, s)
      (p, s')) :
    Sound definition start s.tables.nodeRuns s'.tables.nodeRuns
      ∧ ∀ result, p = done result → clean → Settled s' := by
  obtain ⟨before, hsound⟩ := hsound
  have hself : Sound definition start s.tables.nodeRuns s.tables.nodeRuns :=
    ⟨hsound.onWalk, hsound.noMissing, [], by simp, List.nodup_nil⟩
  have hregistered : clean → s.active.isSome = false := by
    intro hclean
    rw [(hsettled hclean).1]
    rfl
  cases hrun : s.tables.run with
  | none =>
      have htriple : Triple A (absent definition start s.tables.nodeRuns s.active.isSome)
          (retryFailedNode catalog pathIsAbsolute (some definition) dangerousConfirmed).run
          (outcome (fun _ => absent definition start s.tables.nodeRuns s.active.isSome)
            (absent definition start s.tables.nodeRuns s.active.isSome)) :=
        retryFailedNode_absent (some definition) dangerousConfirmed fun _ h => h.2.2
      have hspec := triple_iff.mp htriple s ⟨rfl, hself, hrun⟩ p s' hreach
      refine ⟨hspec.1, fun result hresult hclean => ?_⟩
      have habsent : (absent definition start s.tables.nodeRuns s.active.isSome).holds s' := by
        have := hspec.2 result hresult
        cases result with
        | ok details => exact this
        | error e => exact this
      refine ⟨active_eq_none (habsent.1.trans (hregistered hclean)), fun run hsome => ?_⟩
      rw [habsent.2.2] at hsome
      cases hsome
  | some run₀ =>
      have hspec := triple_iff.mp (retryFailedNode_spec haccepted hstart hanswered
        dangerousConfirmed hregistered hself hbefore) s ⟨rfl, hself, run₀, hrun, rfl, rfl⟩ p s'
        hreach
      refine ⟨hspec.1, fun result hresult hclean => ?_⟩
      have hend := hspec.2 result hresult
      cases result with
      | ok details =>
          obtain ⟨hactive, _, run, hsome, left, _, _, _, _, hended⟩ := hend
          refine ⟨active_eq_none hactive, fun run' hrun' => ?_⟩
          rw [hsome] at hrun'
          rw [← Option.some.inj hrun']
          exact hended.settled
      | error e =>
          rcases hend with ⟨hactive, _, run, hsome, hsame, _⟩ | ⟨_, hunclean⟩
          · refine ⟨active_eq_none (hactive.trans (hregistered hclean)), fun run' hrun' => ?_⟩
            rw [hsome] at hrun'
            rw [← Option.some.inj hrun', hsame]
            exact (hsettled hclean).2 run₀ hrun
          · exact absurd hclean hunclean

/-- Every state of a new run is sound, and a clean run comes to its end. -/
theorem run_reaches_of_valid (haccepted : AcceptedGraph definition.draft)
    (hstart : startNodeId definition.draft = some start)
    (hanswered : clean → ∀ question answer, A question answer → Answered question answer)
    (request : StartWorkflowRunRequest)
    {p : Process RunState RunAnswer (Except AppError (Option WorkflowRunDetails))} {s : RunState}
    (hreach : ReachesIn Cancels A
      ((run catalog pathIsAbsolute (some definition) request).run, initialState) (p, s)) :
    Sound definition start [] s.tables.nodeRuns
      ∧ (∀ result, p = done result → clean → (unstarted definition start).holds s
        ∨ s.active = none ∧ ∃ details here current run, result = .ok (some details)
          ∧ s.tables.run = some run
          ∧ Ended definition start [] here [] current details run s.tables.nodeRuns)
      ∧ p ≠ done (.ok none) := by
  have hinitial : (unstarted definition start).holds initialState := ⟨rfl, rfl, rfl⟩
  have hspec := triple_iff.mp (run_spec haccepted hstart hanswered request) initialState hinitial
    p s hreach
  refine ⟨hspec.1, fun result hresult hclean => ?_, fun hnone => ?_⟩
  · have hend := hspec.2 result hresult
    cases result with
    | ok found =>
        obtain ⟨hactive, _, run, hsome, details, here, current, hfound, hended⟩ := hend
        rw [hfound]
        exact Or.inr ⟨active_eq_none hactive, details, here, current, run, rfl, hsome, hended⟩
    | error e =>
        rcases hend with hunstarted | ⟨_, hunclean⟩
        · exact Or.inl hunstarted
        · exact absurd hclean hunclean
  · obtain ⟨_, _, run, _, details, here, current, hfound, _⟩ := hspec.2 (.ok none) hnone
    cases hfound

/-- **The states of a run over any number of drives.** -/
theorem Returned.spec (haccepted : AcceptedGraph definition.draft)
    (hstart : startNodeId definition.draft = some start)
    (hanswered : clean → ∀ question answer, A question answer → Answered question answer)
    (hG : clean → ∀ s, G s → ∀ row ∈ s.tables.nodeRuns, row.attempt + 1 < 2 ^ 31)
    {result : Except AppError (Option WorkflowRunDetails)} {s : RunState}
    (h : Returned definition catalog pathIsAbsolute A G result s) :
    (∃ before, Sound definition start before s.tables.nodeRuns) ∧ (clean → Settled s) := by
  induction h with
  | run request hreach =>
      obtain ⟨hsound, hend, _⟩ := run_reaches_of_valid haccepted hstart hanswered request hreach
      refine ⟨⟨[], hsound⟩, fun hclean => ?_⟩
      rcases hend _ rfl hclean with ⟨hactive, hrun, _⟩
        | ⟨hactive, details, here, current, run, _, hrun, hended⟩
      · refine ⟨hactive, fun run hsome => ?_⟩
        rw [hrun] at hsome
        cases hsome
      · refine ⟨hactive, fun run' hsome => ?_⟩
        rw [hrun] at hsome
        rw [← Option.some.inj hsome]
        exact hended.settled
  | retry dangerousConfirmed _ hstate hreach ih =>
      obtain ⟨hsound, hend⟩ := retry_reaches haccepted hstart hanswered dangerousConfirmed ih.1 ih.2
        (fun hclean => hG hclean _ hstate) hreach
      exact ⟨⟨_, hsound⟩, fun hclean => hend _ rfl hclean⟩

theorem Reached.sound (haccepted : AcceptedGraph definition.draft)
    (hstart : startNodeId definition.draft = some start) {s : RunState}
    (h : Reached definition catalog pathIsAbsolute A G s) :
    ∃ before, Sound definition start before s.tables.nodeRuns := by
  -- nothing is assumed of the answers
  have hanswered : False → ∀ question answer, A question answer → Answered question answer :=
    False.elim
  cases h with
  | run request hreach =>
      exact ⟨[], (run_reaches_of_valid haccepted hstart hanswered request hreach).1⟩
  | retry dangerousConfirmed hreturned hstate hreach =>
      obtain ⟨hsound, _⟩ := hreturned.spec haccepted hstart hanswered False.elim
      exact ⟨_, (retry_reaches haccepted hstart hanswered dangerousConfirmed hsound False.elim
        False.elim hreach).1⟩

end Drivers

end QingzhouSSH.Services.WorkflowService
