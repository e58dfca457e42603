/-
  QingzhouSSH.Services.WorkflowRun — what the driver of a run keeps.

  The rows of a run that are not skipped lie on one walk through the graph, and every
  node that the walk has left has succeeded.

  Main results:
    * `emit_spec` — an event that fits is recorded and delivered;
    * `executeNode_spec` — what the outcome of a node is like;
    * `nextNode_spec` — the successors that an accepted graph gives.
-/
import QingzhouSSH.Core.Workflows.Graph
import QingzhouSSH.Services.WorkflowService

namespace QingzhouSSH.Services.WorkflowService

open String (utf8Len)
open QingzhouSSH.Lib
open QingzhouSSH.Lib.Digraph (Walk)
open QingzhouSSH.Lib.Process
open QingzhouSSH.Domain
open QingzhouSSH.Core.Workflows
open QingzhouSSH.Repositories.WorkflowRepository

/-! ## §1. Calls of `cancel`, and answers that can be recorded. -/

/-- What calls of `cancel` do between two steps of the driver: one sets the token, or one
that has set it returns. -/
inductive Cancels : RunState → RunState → Prop where
  | sets (s : RunState) : Cancels s (setToken s)
  | returns (s : RunState) : .tokenSet ∈ s.deeds → Cancels s (noteReturn s)

/-- The calls leave the tables, and whether the run is registered. -/
theorem Cancels.keeps {s s' : RunState} (h : Cancels s s') :
    s'.tables = s.tables ∧ s'.active.isSome = s.active.isSome := by
  cases h with
  | sets =>
      unfold setToken cancelNow
      cases hactive : s.active with
      | none => exact ⟨rfl, by rw [hactive]⟩
      | some entry => exact ⟨rfl, rfl⟩
  | returns _ =>
      unfold noteReturn
      split <;> exact ⟨rfl, rfl⟩

/-- The result and the messages of an outcome are not too long to be recorded. -/
structure Recordable (runId nodeId : Uuid) (attempt : Attempt) (outcome : StepOutcome) : Prop where
  result : ∀ result ∈ outcome.result, utf8Len result.toJson ≤ 32 * 1024
  node : (WorkflowEventPayload.nodeStatusChanged runId nodeId attempt outcome.status
    outcome.executionId outcome.errorMessage).Fits
  run : outcome.status ≠ .succeeded →
    (WorkflowEventPayload.runStatusChanged runId (endStatus outcome.status)
      outcome.errorMessage).Fits

/-- Events are delivered, servers have short names, and what a node answers can be
recorded. -/
def Answered : (question : RunQuestion) → RunAnswer question → Prop
  | .requireTrustedServer serverId, answer => answer = .ok () →
      ∀ runId workflowId, (WorkflowEventPayload.runStarted runId workflowId serverId).Fits
  | .deliver _ _, answer => answer = .ok ()
  | .execute runId nodeId attempt _, answer =>
      Recordable runId nodeId attempt (.ofAdapter answer)
  | .capture runId nodeId attempt _, answer =>
      ∀ e, answer = .error e → Recordable runId nodeId attempt (.failed e)
  | _, _ => True

/-! ## §2. Attempts. -/

theorem latestNodeRun_append {rows : List WorkflowNodeRun} {row : WorkflowNodeRun} {id : Uuid} :
    latestNodeRun (rows ++ [row]) id
      = if row.nodeId = id then
          match latestNodeRun rows id with
          | some current => if current.attempt < row.attempt then some row else some current
          | none => some row
        else latestNodeRun rows id := by
  unfold latestNodeRun
  rw [List.filter_append, List.foldl_append]
  by_cases hid : row.nodeId = id
  · rw [if_pos hid, List.filter_cons, beq_iff_eq.mpr hid]
    rfl
  · rw [if_neg hid, List.filter_cons, beq_eq_false_iff_ne.mpr hid]
    rfl

theorem latestNodeRun_mem {rows : List WorkflowNodeRun} {row : WorkflowNodeRun} {id : Uuid}
    (h : latestNodeRun rows id = some row) : row ∈ rows ∧ row.nodeId = id := by
  induction rows using List.reverseRecOn with
  | nil => cases h
  | append_singleton rows last ih =>
      rw [latestNodeRun_append] at h
      have hkept : latestNodeRun rows id = some row → row ∈ rows ++ [last] ∧ row.nodeId = id :=
        fun hrow => ⟨List.mem_append_left _ (ih hrow).1, (ih hrow).2⟩
      split at h
      next hid =>
        have hlast : some last = some row → row ∈ rows ++ [last] ∧ row.nodeId = id := by
          intro heq
          rw [← Option.some.inj heq]
          exact ⟨by simp, hid⟩
        split at h
        next current hcurrent =>
          split at h
          · exact hlast h
          · exact hkept (hcurrent.trans h)
        next => exact hlast h
      next => exact hkept h

/-- The next attempt is later than all before. -/
theorem lt_nextAttempt {rows : List WorkflowNodeRun} {row : WorkflowNodeRun} (h : row ∈ rows) :
    row.attempt < nextAttempt row.nodeId rows := by
  have hmax : ∀ (ns : List Nat) (base n : Nat), n ∈ ns ∨ n ≤ base → n ≤ ns.foldl max base := by
    intro ns
    induction ns with
    | nil => exact fun base n hn => hn.resolve_left List.not_mem_nil
    | cons m ns ih =>
        intro base n hn
        refine ih (max base m) n ?_
        rcases hn with hn | hn
        · rcases List.mem_cons.mp hn with rfl | hn
          · exact Or.inr (Nat.le_max_right _ _)
          · exact Or.inl hn
        · exact Or.inr (Nat.le_trans hn (Nat.le_max_left _ _))
  have hown : row ∈ rows.filter fun other => other.nodeId == row.nodeId :=
    List.mem_filter.mpr ⟨h, beq_self_eq_true row.nodeId⟩
  have hle := hmax _ 0 row.attempt (Or.inl (List.mem_map_of_mem hown))
  unfold nextAttempt
  omega

/-- The next attempt is one later than some attempt before, or the first. -/
theorem nextAttempt_le {rows : List WorkflowNodeRun} {id : Uuid} {n : Nat}
    (h : ∀ row ∈ rows, row.nodeId = id → row.attempt ≤ n) : nextAttempt id rows ≤ n + 1 := by
  have hmax : ∀ (ns : List Nat) (base : Nat), base ≤ n → (∀ m ∈ ns, m ≤ n) →
      ns.foldl max base ≤ n := by
    intro ns
    induction ns with
    | nil => exact fun base hbase _ => hbase
    | cons m ns ih =>
        intro base hbase hall
        exact ih (max base m) (Nat.max_le.mpr ⟨hbase, hall m List.mem_cons_self⟩)
          fun k hk => hall k (List.mem_cons_of_mem _ hk)
  unfold nextAttempt
  refine Nat.succ_le_succ (hmax _ 0 (Nat.zero_le n) fun m hm => ?_)
  obtain ⟨row, hrow, rfl⟩ := List.mem_map.mp hm
  obtain ⟨hmem, hid⟩ := List.mem_filter.mp hrow
  exact h row hmem (beq_iff_eq.mp hid)

/-- An attempt that has just been started is the latest. -/
theorem latestNodeRun_next {rows : List WorkflowNodeRun} {row : WorkflowNodeRun}
    (h : row.attempt = nextAttempt row.nodeId rows) :
    latestNodeRun (rows ++ [row]) row.nodeId = some row := by
  rw [latestNodeRun_append, if_pos rfl]
  split
  next current hcurrent =>
    obtain ⟨hmem, hid⟩ := latestNodeRun_mem hcurrent
    have hlt := lt_nextAttempt hmem
    rw [hid] at hlt
    rw [if_pos (by omega)]
  next => rfl

/-- An update of the attempt that has just been started changes its row only. -/
theorem updateNode_next {tables : RunTables} {rows : List WorkflowNodeRun}
    {row : WorkflowNodeRun} (hrows : tables.nodeRuns = rows ++ [row])
    (hattempt : row.attempt = nextAttempt row.nodeId rows) (hrunning : row.status = .running)
    (f : WorkflowNodeRun → WorkflowNodeRun) (message : String) :
    updateNode row.nodeId row.attempt f message tables
      = .ok { tables with nodeRuns := rows ++ [f row] } := by
  have hothers : ∀ other ∈ rows, isRunning row.nodeId row.attempt other = false := by
    intro other hother
    unfold isRunning
    by_cases hid : other.nodeId = row.nodeId
    · have hlt := lt_nextAttempt hother
      rw [hid] at hlt
      rw [show (other.attempt == row.attempt) = false from beq_eq_false_iff_ne.mpr (by omega),
        Bool.and_false, Bool.false_and]
    · rw [beq_eq_false_iff_ne.mpr hid, Bool.false_and, Bool.false_and]
  have hself : isRunning row.nodeId row.attempt row = true := by
    unfold isRunning
    rw [hrunning, beq_self_eq_true, beq_self_eq_true]
    rfl
  have hcount : rows.countP (isRunning row.nodeId row.attempt) = 0 := by
    rw [List.countP_eq_zero]
    intro other hother
    rw [hothers other hother]
    exact Bool.false_ne_true
  unfold updateNode
  rw [hrows, List.countP_append, hcount, List.countP_singleton, if_pos hself, if_pos rfl,
    List.map_append, List.map_singleton, if_pos hself]
  have hsame : rows.map (fun other =>
      if isRunning row.nodeId row.attempt other = true then f other else other) = rows := by
    refine (List.map_congr_left fun other hother => ?_).trans (List.map_id rows)
    rw [hothers other hother]
    rfl
  rw [hsame]

/-! ## §3. What a run keeps. -/

section Keeping

variable (definition : WorkflowDefinition) (start : Uuid) (before : List WorkflowNodeRun)

/-- The rows that are not skipped lie on this walk, and the nodes it has left have
succeeded. -/
structure OnWalk (left : List Uuid) (current : Uuid) (rows : List WorkflowNodeRun) : Prop where
  walk : Walk (Edge definition.edges) start left current
  visited : ∀ row ∈ rows, row.status ≠ .skipped → row.nodeId ∈ current :: left
  succeeded : ∀ id ∈ left, ∃ row, latestNodeRun rows id = some row ∧ row.status = .succeeded

/-- Every condition comes after the source it names. -/
def Dominated : Prop :=
  ∀ node ∈ definition.nodes, ∀ source predicate, node.config = .condition source predicate →
    ∀ left, Walk (Edge definition.edges) start left node.id → source ∈ left

/-- The message of a condition that finds no result of its source. -/
def missingSource : Text := (AppError.validation "条件来源节点尚无结果".toList).message

/-- No condition has failed for want of its source. -/
def NoMissing (rows : List WorkflowNodeRun) : Prop :=
  ∀ row ∈ rows, ∀ node ∈ definition.nodes, node.id = row.nodeId →
    ∀ source predicate, node.config = .condition source predicate →
      row.errorMessage ≠ some missingSource

/-- The nodes that were not skipped, in the order of their rows. -/
def executed (rows : List WorkflowNodeRun) : List Uuid :=
  (rows.filter fun row => row.status != .skipped).map WorkflowNodeRun.nodeId

/-- What is true of the rows of a run at any time of a drive that found the rows
`before`. -/
structure Sound (rows : List WorkflowNodeRun) : Prop where
  onWalk : ∃ left current, OnWalk definition start left current rows
  noMissing : Dominated definition start → NoMissing definition rows
  once : ∃ new, rows = before ++ new ∧ (executed new).Nodup

/-- The run and its rows, at a point where the run is registered or not. -/
def stands (registered : Bool) (P : WorkflowRunRecord → List WorkflowNodeRun → Prop) :
    Assertion Cancels fun s => Sound definition start before s.tables.nodeRuns where
  holds s := s.active.isSome = registered ∧ Sound definition start before s.tables.nodeRuns
    ∧ ∃ run, s.tables.run = some run ∧ P run s.tables.nodeRuns
  stable s s' hcancel h := by
    dsimp only
    rw [hcancel.keeps.1, hcancel.keeps.2]
    exact h
  safe _ h := h.2.1

/-- Where a driver gives up, which it does not if `clean`. -/
def escaped (clean : Prop) : Assertion Cancels fun s => Sound definition start before s.tables.nodeRuns where
  holds s := Sound definition start before s.tables.nodeRuns ∧ ¬ clean
  stable s s' hcancel h := by
    dsimp only
    rw [hcancel.keeps.1]
    exact h
  safe _ h := h.1

end Keeping

variable {definition : WorkflowDefinition} {start : Uuid} {before : List WorkflowNodeRun}
variable {clean : Prop}
variable {A : (question : RunQuestion) → RunAnswer question → Prop}
variable {registered : Bool} {P P' : WorkflowRunRecord → List WorkflowNodeRun → Prop}

/-- A transaction that the run and its rows allow. -/
theorem transact_spec {f : RunTables → AppResult RunTables}
    (h : ∀ tables run, tables.run = some run → Sound definition start before tables.nodeRuns →
      P run tables.nodeRuns → ∃ tables', f tables = .ok tables'
        ∧ Sound definition start before tables'.nodeRuns
        ∧ ∃ run', tables'.run = some run' ∧ P' run' tables'.nodeRuns) :
    Triple A (stands definition start before registered P) (transact f).run
      (outcome (fun _ => stands definition start before registered P')
        (escaped definition start before clean)) := by
  refine triple_update ?_ ?_
  · rintro s s' ⟨hactive, hsound, run, hrun, hp⟩ hok
    obtain ⟨tables', hf, hsound', hrun'⟩ := h s.tables run hrun hsound hp
    rw [hf] at hok
    cases hok
    exact ⟨hactive, hsound', hrun'⟩
  · rintro s e ⟨hactive, hsound, run, hrun, hp⟩ herror
    obtain ⟨tables', hf, _⟩ := h s.tables run hrun hsound hp
    rw [hf] at herror
    cases herror

theorem eventType_redacted (payload : WorkflowEventPayload) :
    ∃ name ∈ eventTypes, eventType (defaultRedactor.redactJson payload.toValue)
      = .ok name.toList := by
  rw [WorkflowEventPayload.redactJson_toValue]
  cases payload <;> unfold WorkflowEventPayload.redacted WorkflowEventPayload.toValue objectValue <;>
    simp [eventType, textField, Value.asObject, Value.asStr, getField_cons, eventTypes,
      String.toList_inj, -String.reduceToList]

theorem eventTypes_taken : ∀ name ∈ eventTypes,
    (isBlankText name.toList || decide (100 < utf8Len name.toList)) = false := by
  decide

/-- Giving up after an error leaves the run as it stands. -/
theorem stands_escaped {s : RunState}
    (h : ((stands definition start before registered P).given (¬ clean)).holds s) :
    (escaped definition start before clean).holds s :=
  ⟨h.2.2.1, h.1⟩

/-- **An event that fits is recorded and delivered.** -/
theorem emit_kept (hanswered : clean → ∀ question answer, A question answer →
      Answered question answer)
    {payload : WorkflowEventPayload} (hfits : clean → payload.Fits) :
    Triple A (stands definition start before registered P) (emit payload).run
      (outcome (fun _ => stands definition start before registered P)
        ((stands definition start before registered P).given (¬ clean))) := by
  obtain ⟨name, hname, htype⟩ := eventType_redacted payload
  unfold emit
  dsimp only
  rw [htype, WorkflowEventPayload.ofValue_redacted]
  have hread : Triple A (stands definition start before registered P)
      (ofResult (.ok name.toList) : RunProcess Text).run
      (outcome (fun eventType => (stands definition start before registered P).given
          (eventType = name.toList))
        ((stands definition start before registered P).given (¬ clean))) :=
    triple_result (fun t ht s hs => ⟨(Except.ok.inj ht).symm, hs⟩) (fun e he => by cases he)
  refine triple_andThen hread fun eventType => triple_given fun hname' => ?_
  rw [hname']
  have happend : Triple A (stands definition start before registered P)
      (appendEventNow name.toList (defaultRedactor.redactJson payload.toValue)).run
      (outcome (fun _ => stands definition start before registered P)
        ((stands definition start before registered P).given (¬ clean))) := by
    refine triple_atomic fun s hs => ?_
    obtain ⟨hactive, hsound, hrun⟩ := hs
    unfold appendEvent
    rw [eventTypes_taken name hname]
    by_cases hlong : 32 * 1024 < utf8Len (defaultRedactor.redactJson payload.toValue).toJson
    · rw [if_neg Bool.false_ne_true, if_pos hlong]
      refine ⟨fun hclean => ?_, hactive, hsound, hrun⟩
      have hfit : utf8Len _ ≤ 32 * 1024 := hfits hclean
      unfold WorkflowEventPayload.stored at hfit
      omega
    · rw [if_neg Bool.false_ne_true, if_neg hlong]
      exact ⟨hactive, hsound, hrun⟩
  refine triple_andThen happend fun sequence => ?_
  refine triple_query fun answer hadmitted s hs => ?_
  cases answer with
  | ok _ => exact hs
  | error e =>
      refine ⟨fun hclean => ?_, hs⟩
      have hok : (Except.error e : AppResult Unit) = .ok () := hanswered hclean _ _ hadmitted
      cases hok

theorem emit_spec (hanswered : clean → ∀ question answer, A question answer →
      Answered question answer)
    {payload : WorkflowEventPayload} (hfits : clean → payload.Fits) :
    Triple A (stands definition start before registered P) (emit payload).run
      (outcome (fun _ => stands definition start before registered P)
        (escaped definition start before clean)) := by
  refine (emit_kept hanswered hfits).weaken (fun _ hs => hs) fun r s hs => ?_
  cases r with
  | ok _ => exact hs
  | error _ => exact stands_escaped hs

/-! ## §4. The body of a node. -/

/-- The errors that the driver makes itself when it executes a node. -/
def fixedErrors : List AppError :=
  evaluationErrors.map AppError.validation
    ++ [.validation "条件来源节点尚无结果".toList, .validation "工作流运行不存在或已经结束".toList,
      .validation "工作流子执行标识不匹配".toList, .cancelled]

theorem fixedErrors_short : ∀ e ∈ fixedErrors, utf8Len (defaultRedactor.redact e.message) ≤ 500 := by
  have hplain : ∀ e ∈ fixedErrors, '-' ∉ e.message
      ∧ (∀ c ∈ e.message, c ≠ '=' ∧ c ≠ ':') ∧ utf8Len e.message ≤ 500 := by
    decide
  intro e he
  obtain ⟨hdash, hsigns, hlength⟩ := hplain e he
  rw [Core.Redaction.redact_plain rfl ⟨'-', by decide, hdash⟩ hsigns]
  exact hlength

variable {runId nodeId : Uuid} {attempt : Attempt}

/-- An outcome without a result and with a short message. -/
theorem recordable_short {outcome : StepOutcome} (hresult : outcome.result = none)
    (hmessage : utf8Len (((outcome.errorMessage.map defaultRedactor.redact)).getD []) ≤ 500) :
    Recordable runId nodeId attempt outcome where
  result := by
    intro r hr
    rw [hresult] at hr
    cases hr
  node := WorkflowEventPayload.fits_of_short hmessage
  run _ := WorkflowEventPayload.fits_of_short hmessage

theorem recordable_fixed {e : AppError} (h : e ∈ fixedErrors) :
    Recordable runId nodeId attempt (.failed e) := by
  have hmessage : (StepOutcome.failed e).errorMessage = some e.message := rfl
  apply recordable_short
  · rfl
  · rw [hmessage, Option.map_some, Option.getD_some]
    exact fixedErrors_short e h

theorem recordable_succeeded {outcome : StepOutcome} {result : Value}
    (hstatus : outcome.status = .succeeded) (hresult : outcome.result = some result)
    (hshort : utf8Len result.toJson ≤ 32 * 1024) (hmessage : outcome.errorMessage = none) :
    Recordable runId nodeId attempt outcome where
  result := by
    intro r hr
    rw [hresult] at hr
    rw [← Option.some.inj hr]
    exact hshort
  node := by
    refine WorkflowEventPayload.fits_of_short ?_
    rw [hmessage]
    exact Nat.zero_le _
  run h := absurd hstatus h

/-- What an outcome of a node with this configuration is like. -/
structure Plausible (clean : Prop) (contexts : Contexts) (runId nodeId : Uuid)
    (attempt : Attempt) (config : WorkflowNodeConfig Uuid) (outcome : StepOutcome) : Prop where
  status : outcome.status ∈ [.succeeded, .failed, .cancelled, .uncertain]
  branches : outcome.status = .succeeded →
    (outcome.conditionResult.isSome ↔ ∃ source predicate, config = .condition source predicate)
  sourced : ∀ source predicate, config = .condition source predicate → (contexts source).isSome →
    capUtf8 outcome.errorMessage (8 * 1024) ≠ some missingSource
  recordable : clean → Recordable runId nodeId attempt outcome

variable {contexts : Contexts} {config : WorkflowNodeConfig Uuid}

theorem plausible_failed {e : AppError} (hconfig : ∀ source predicate, config ≠ .condition source predicate)
    (h : clean → Recordable runId nodeId attempt (.failed e)) :
    Plausible clean contexts runId nodeId attempt config (.failed e) where
  status := by simp [StepOutcome.failed]
  branches hstatus := by cases hstatus
  sourced source predicate heq := absurd heq (hconfig source predicate)
  recordable := h

theorem evaluationErrors_other : ∀ message ∈ evaluationErrors,
    capUtf8 (some (AppError.validation message).message) (8 * 1024) ≠ some missingSource := by
  decide

theorem plausible_condition {source : Uuid} {predicate : WorkflowCondition} :
    Plausible clean contexts runId nodeId attempt (.condition source predicate)
      (conditionOutcome contexts source predicate) := by
  unfold conditionOutcome
  cases hsource : contexts source with
  | none =>
      refine ⟨by simp [StepOutcome.failed], fun h => (by cases h), ?_, fun _ => ?_⟩
      · intro source' predicate' heq hsome
        cases heq
        rw [hsource] at hsome
        cases hsome
      · exact recordable_fixed (by simp [fixedErrors])
  | some context =>
      dsimp only
      cases heval : evaluateCondition predicate context with
      | error e =>
          obtain ⟨message, hmem, rfl⟩ := evaluateCondition_error heval
          refine ⟨by simp [StepOutcome.failed], fun h => (by cases h), ?_, fun _ => ?_⟩
          · intro source' predicate' _ _ heq
            exact evaluationErrors_other message hmem heq
          · exact recordable_fixed (List.mem_append_left _ (List.mem_map_of_mem hmem))
      | ok result =>
          refine ⟨by simp [StepOutcome.succeeded], fun _ => ?_, ?_, fun _ => ?_⟩
          · exact ⟨fun _ => ⟨source, predicate, rfl⟩, fun _ => rfl⟩
          · intro source' predicate' _ _ heq
            cases heq
          · refine recordable_succeeded rfl rfl ?_ rfl
            cases result <;> decide

/-- A start or a stop. -/
theorem plausible_marker {summary : Text} {name : String} (hname : name ∈ ["started", "stopped"])
    (hconfig : ∀ source predicate, config ≠ .condition source predicate) :
    Plausible clean contexts runId nodeId attempt config
      (.succeeded summary (some (objectValue [(name, .bool true)]))) where
  status := by simp [StepOutcome.succeeded]
  branches _ := by
    constructor
    · intro hsome
      cases hsome
    · intro hcondition
      obtain ⟨source, predicate, heq⟩ := hcondition
      exact absurd heq (hconfig source predicate)
  sourced source predicate heq := absurd heq (hconfig source predicate)
  recordable _ := by
    refine recordable_succeeded rfl rfl ?_ rfl
    revert name
    decide

/-- The status of a restore point is short. -/
theorem restorePointChanged_fits {restorePointId : Uuid} {status : WorkflowRestorePointStatus} :
    (WorkflowEventPayload.restorePointChanged runId nodeId restorePointId status.asStr).Fits := by
  apply WorkflowEventPayload.fits_of_short
  show utf8Len (defaultRedactor.redact status.asStr) ≤ 500
  cases status <;> decide

theorem plausible_adapter (hconfig : ∀ source predicate, config ≠ .condition source predicate)
    {result : AppResult NodeOutcome}
    (h : clean → Recordable runId nodeId attempt (.ofAdapter result)) :
    Plausible clean contexts runId nodeId attempt config (.ofAdapter result) := by
  cases result with
  | error e => exact plausible_failed hconfig h
  | ok outcome =>
      refine ⟨?_, fun _ => ?_, fun source predicate heq => absurd heq (hconfig source predicate), h⟩
      · show outcome.status.status ∈ _
        cases outcome.status <;> simp [FinalStatus.status]
      · refine ⟨fun hsome => (by cases hsome), ?_⟩
        rintro ⟨source, predicate, heq⟩
        exact absurd heq (hconfig source predicate)

/-! ## §5. Executing a node. -/

/-- The same run with the same rows, registered or not as before. -/
structure SameRun (s s' : RunState) : Prop where
  tables : s'.tables = s.tables
  active : s'.active.isSome = s.active.isSome

theorem setChildNow_same {executionId : Uuid} {s s' : RunState}
    (h : setChildNow executionId s = .ok s') : SameRun s s' := by
  unfold setChildNow at h
  cases hactive : s.active with
  | none =>
      rw [hactive] at h
      cases h
  | some entry =>
      rw [hactive] at h
      dsimp only at h
      split at h
      · cases h
      · cases h
        exact ⟨rfl, by rw [hactive]; rfl⟩

theorem clearChildNow_same {executionId : Uuid} {s s' : RunState}
    (h : clearChildNow executionId s = .ok s') : SameRun s s' := by
  unfold clearChildNow at h
  cases hactive : s.active with
  | none =>
      rw [hactive] at h
      cases h
  | some entry =>
      rw [hactive] at h
      dsimp only at h
      split at h
      · cases h
      · cases h
        exact ⟨rfl, by rw [hactive]; rfl⟩

theorem clearChildNow_error {executionId : Uuid} {s : RunState} {e : AppError}
    (h : clearChildNow executionId s = .error e) : e ∈ fixedErrors := by
  unfold clearChildNow at h
  split at h
  · cases h
    simp [fixedErrors]
  · split at h
    · cases h
      simp [fixedErrors]
    · cases h

theorem SameRun.stands {s s' : RunState} (h : SameRun s s')
    (hs : (stands definition start before registered P).holds s) :
    (stands definition start before registered P).holds s' := by
  obtain ⟨hactive, hrest⟩ := hs
  refine ⟨h.active.trans hactive, ?_⟩
  rw [h.tables]
  exact hrest

/-- A step of the registry. -/
theorem registry_spec {f : RunState → AppResult RunState} {errors : AppError → Prop}
    (hsame : ∀ s s', f s = .ok s' → SameRun s s') (herrors : ∀ s e, f s = .error e → errors e) :
    Triple A (stands definition start before registered P) (Process.update f : RunProcess Unit).run
      (fun r => (stands definition start before registered P).given
        (∀ e, r = .error e → errors e)) := by
  refine triple_atomic fun s hs => ?_
  cases hf : f s with
  | ok s' => exact ⟨fun e he => (by cases he), (hsame s s' hf).stands hs⟩
  | error e =>
      refine ⟨fun e' he' => ?_, hs⟩
      cases he'
      exact herrors s e hf

theorem clearChild_spec (child : Option Uuid) :
    Triple A (stands definition start before registered P) (clearChild child)
      (fun r => (stands definition start before registered P).given
        (∀ e, r = .error e → e ∈ fixedErrors)) := by
  cases child with
  | none => exact triple_pure fun s hs => ⟨fun e he => (by cases he), hs⟩
  | some executionId =>
      exact registry_spec (fun s s' => clearChildNow_same) fun s e => clearChildNow_error

theorem trackEvents_spec (events : List ChildEvent) (child : Option Uuid) :
    Triple A (stands definition start before registered P) (trackEvents events child)
      (fun _ => stands definition start before registered P) := by
  induction events generalizing child with
  | nil => exact triple_pure fun _ hs => hs
  | cons event rest ih =>
      cases event with
      | started executionId =>
          refine triple_bind (registry_spec (fun s s' => setChildNow_same)
            fun _ _ _ => trivial) fun r => ?_
          refine triple_given fun _ => ?_
          cases r with
          | ok _ => exact ih (some executionId)
          | error _ => exact ih child
      | ended => exact triple_bind (clearChild_spec child) fun _ => triple_given fun _ => ih none

section Body

variable (hanswered : clean → ∀ question answer, A question answer → Answered question answer)
include hanswered

theorem runAdapter_spec (hconfig : ∀ source predicate, config ≠ .condition source predicate)
    (asked : WorkflowNodeConfig Uuid) :
    Triple A (stands definition start before registered P) (runAdapter runId nodeId attempt asked)
      (fun outcome => (stands definition start before registered P).given
        (Plausible clean contexts runId nodeId attempt config outcome)) := by
  unfold runAdapter
  refine triple_bind (triple_query fun _ _ _ hs => hs) fun events => ?_
  refine triple_bind (trackEvents_spec events none) fun child => ?_
  have hexecute : Triple A (stands definition start before registered P)
      (execute runId nodeId attempt asked)
      (fun result => (stands definition start before registered P).given
        (clean → Recordable runId nodeId attempt (.ofAdapter result))) :=
    triple_query fun result hadmitted s hs =>
      ⟨fun hclean => hanswered hclean (.execute runId nodeId attempt asked) result hadmitted, hs⟩
  refine triple_bind hexecute fun result => triple_given fun hresult => ?_
  refine triple_bind (clearChild_spec child) fun cleared => triple_given fun herrors => ?_
  cases cleared with
  | ok _ => exact triple_pure fun s hs => ⟨plausible_adapter hconfig hresult, hs⟩
  | error e =>
      exact triple_pure fun s hs =>
        ⟨plausible_failed hconfig fun _ => recordable_fixed (herrors e rfl), hs⟩

/-- **The outcome of a node is a plausible one.** -/
theorem executeNode_spec :
    Triple A (stands definition start before registered P)
      (executeNode runId nodeId attempt contexts config)
      (fun outcome => (stands definition start before registered P).given
        (Plausible clean contexts runId nodeId attempt config outcome)) := by
  have hadapter : (∀ source predicate, config ≠ .condition source predicate) →
      executeNode runId nodeId attempt contexts config = runAdapter runId nodeId attempt config →
      Triple A (stands definition start before registered P)
        (executeNode runId nodeId attempt contexts config)
        (fun outcome => (stands definition start before registered P).given
          (Plausible clean contexts runId nodeId attempt config outcome)) := by
    intro hconfig heq
    rw [heq]
    exact runAdapter_spec hanswered hconfig config
  cases config with
  | start => exact triple_pure fun s hs => ⟨plausible_marker (by simp) (by simp), hs⟩
  | stop message => exact triple_pure fun s hs => ⟨plausible_marker (by simp) (by simp), hs⟩
  | condition source predicate => exact triple_pure fun s hs => ⟨plausible_condition, hs⟩
  | task taskId taskVersion parameters => exact hadapter (by simp) rfl
  | custom mode content timeoutSeconds => exact hadapter (by simp) rfl
  | download remotePath localPath overwrite => exact hadapter (by simp) rfl
  | logSearch => exact hadapter (by simp) rfl
  | upload localPath remotePath overwrite createRestorePoint =>
      cases createRestorePoint with
      | false => exact runAdapter_spec hanswered (by simp) _
      | true =>
          have hcapture : Triple A (stands definition start before registered P)
              (capture runId nodeId attempt remotePath)
              (fun result => (stands definition start before registered P).given
                (clean → ∀ e, result = .error e →
                  Recordable runId nodeId attempt (.failed e))) :=
            triple_query fun result hadmitted s hs => ⟨fun hclean =>
              hanswered hclean (.capture runId nodeId attempt remotePath) result hadmitted, hs⟩
          refine triple_bind hcapture fun result => triple_given fun herror => ?_
          cases result with
          | error e =>
              exact triple_pure fun s hs =>
                ⟨plausible_failed (by simp) fun hclean => herror hclean e rfl, hs⟩
          | ok point =>
              refine triple_bind (emit_kept hanswered fun _ => restorePointChanged_fits) fun r => ?_
              cases r with
              | ok _ => exact runAdapter_spec hanswered (by simp) _
              | error e =>
                  exact triple_given fun hunclean => triple_pure fun s hs =>
                    ⟨plausible_failed (by simp) fun hclean => absurd hclean hunclean, hs⟩

end Body

/-! ## §6. The next node. -/

/-- The edges that `next_node` looks for. -/
theorem filter_branch {edges : List (WorkflowEdge Uuid)} {id : Uuid} {branch : WorkflowEdgeBranch} :
    (edges.filter fun edge => edge.source == id && edge.branch == branch)
      = (outgoing edges id).filter fun edge => edge.branch == branch := by
  unfold outgoing
  rw [List.filter_filter]
  exact List.filter_congr fun edge _ => Bool.and_comm _ _

/-- The edge of a branch that has one. -/
theorem edge_of_filter {edges : List (WorkflowEdge Uuid)} {id : Uuid} {edge : WorkflowEdge Uuid}
    {branch : WorkflowEdgeBranch}
    (h : ((outgoing edges id).filter fun edge => edge.branch == branch) = [edge]) :
    Edge edges id edge.target := by
  have hmem : edge ∈ (outgoing edges id).filter fun edge => edge.branch == branch := by
    rw [h]
    exact List.mem_singleton_self edge
  obtain ⟨hedge, hsource⟩ := mem_outgoing.mp (List.mem_filter.mp hmem).1
  exact ⟨edge, hedge, hsource, rfl⟩

/-- The branch that a result takes. -/
def branchOf : Option Bool → WorkflowEdgeBranch
  | none => .success
  | some true => .true
  | some false => .false

/-- The next node is the target of the branch's one edge. -/
theorem nextNode_eq (edges : List (WorkflowEdge Uuid)) (id : Uuid) (result : Option Bool) :
    nextNode edges id result
      = if 1 < ((outgoing edges id).filter fun edge => edge.branch == branchOf result).length then
          .error (.validation "工作流下一节点不唯一".toList)
        else .ok (((outgoing edges id).filter fun edge => edge.branch == branchOf result).head?.map
          WorkflowEdge.target) := by
  rw [← filter_branch]
  cases result with
  | none => rfl
  | some value => cases value <;> rfl

theorem nextNode_of_filter {edges : List (WorkflowEdge Uuid)} {id : Uuid} {result : Option Bool}
    (hlength : ((outgoing edges id).filter fun edge => edge.branch == branchOf result).length ≤ 1) :
    nextNode edges id result
      = .ok (((outgoing edges id).filter fun edge => edge.branch == branchOf result).head?.map
          WorkflowEdge.target) := by
  rw [nextNode_eq, if_neg (by omega)]

/-- **In an accepted graph the next node is never ambiguous**, and it is missing only where
no edge leaves the node. -/
theorem nextNode_spec {draft : WorkflowDraft Uuid} (haccepted : AcceptedGraph draft)
    {node : WorkflowNode Uuid} (hnode : node ∈ draft.nodes) {result : Option Bool}
    (hresult : result.isSome ↔ ∃ source predicate, node.config = .condition source predicate) :
    (∃ next, nextNode draft.edges node.id result = .ok (some next)
        ∧ Edge draft.edges node.id next)
      ∨ nextNode draft.edges node.id result = .ok none ∧ outgoing draft.edges node.id = [] := by
  have hbranching := haccepted.branching node hnode
  unfold Branching at hbranching
  cases result with
  | some value =>
      obtain ⟨source, predicate, hconfig⟩ := hresult.mp rfl
      rw [hconfig] at hbranching
      have hone : ∃ edge, ((outgoing draft.edges node.id).filter fun edge =>
          edge.branch == branchOf (some value)) = [edge] := by
        cases value with
        | true => exact List.length_eq_one_iff.mp hbranching.1
        | false => exact List.length_eq_one_iff.mp hbranching.2.1
      obtain ⟨edge, hedge⟩ := hone
      have hnext := nextNode_of_filter (Nat.le_of_eq (congrArg List.length hedge))
      rw [hedge] at hnext
      exact Or.inl ⟨edge.target, hnext, edge_of_filter hedge⟩
  | none =>
      have hplain : (outgoing draft.edges node.id).length ≤ 1
          ∧ ∀ edge ∈ outgoing draft.edges node.id, edge.branch = .success := by
        cases hconfig : node.config with
        | condition source predicate =>
            have := hresult.mpr ⟨source, predicate, hconfig⟩
            cases this
        | _ => rw [hconfig] at hbranching; exact hbranching
      have hall : ((outgoing draft.edges node.id).filter fun edge => edge.branch == .success)
          = outgoing draft.edges node.id := by
        rw [List.filter_eq_self]
        intro edge hedge
        exact beq_iff_eq.mpr (hplain.2 edge hedge)
      have hnext : nextNode draft.edges node.id none = _ :=
        nextNode_of_filter (Nat.le_trans (Nat.le_of_eq (congrArg List.length hall)) hplain.1)
      have hsame : ((outgoing draft.edges node.id).filter fun edge =>
          edge.branch == branchOf none) = outgoing draft.edges node.id := hall
      rw [hsame] at hnext
      cases hout : outgoing draft.edges node.id with
      | nil =>
          rw [hout] at hnext
          exact Or.inr ⟨hnext, rfl⟩
      | cons edge rest =>
          rw [hout] at hnext
          have hmem : edge ∈ outgoing draft.edges node.id := by
            rw [hout]
            exact List.mem_cons_self
          obtain ⟨hedge, hsource⟩ := mem_outgoing.mp hmem
          exact Or.inl ⟨edge.target, hnext, edge, hedge, hsource, rfl⟩

end QingzhouSSH.Services.WorkflowService
