/-
  QingzhouSSH.Services.WorkflowCancel — cancelling a run while its driver is at work.

  The driver polls its token once for every node, just before the body of the node.  A
  call of `cancel` that returns after the poll is heeded by the next poll only, and after
  the last poll of a run there is none.

  Main results:
    * `run_heeded` — the driver by itself, whatever the callers of `cancel` do;
    * `cancellation_heeded` — the driver among calls of `cancel`.
-/
import QingzhouSSH.Services.WorkflowRuns
import QingzhouSSH.Services.WorkflowSteps

namespace QingzhouSSH.Services.WorkflowService

open QingzhouSSH.Lib
open QingzhouSSH.Lib.Process
open QingzhouSSH.Domain
open QingzhouSSH.Core.Tasks
open QingzhouSSH.Core.Workflows
open QingzhouSSH.Repositories.WorkflowRepository

/-! ## §1. Steps that no caller of `cancel` can notice. -/

/-- The deeds, the token and the status of the run are as before. -/
structure Silent (s s' : RunState) : Prop where
  deeds : s'.deeds = s.deeds
  active : s'.active.map ActiveWorkflowRun.cancelled = s.active.map ActiveWorkflowRun.cancelled
  status : s'.tables.run.map WorkflowRunRecord.status = s.tables.run.map WorkflowRunRecord.status

theorem Silent.refl (s : RunState) : Silent s s := ⟨rfl, rfl, rfl⟩

theorem Aside.silent {s s' : RunState} (h : Aside s s') : Silent s s' :=
  ⟨h.deeds, h.active, congrArg (Option.map WorkflowRunRecord.status) h.run⟩

theorem transact_silent {f : RunTables → AppResult RunTables}
    (h : ∀ tables tables', f tables = .ok tables' →
      tables'.run.map WorkflowRunRecord.status = tables.run.map WorkflowRunRecord.status) :
    Guarantees Silent (transact f).run := by
  refine guarantees_update Silent.refl fun s s' hok => ?_
  cases hf : f s.tables with
  | error e =>
      rw [hf] at hok
      cases hok
  | ok tables =>
      rw [hf] at hok
      cases hok
      exact ⟨rfl, rfl, h _ _ hf⟩

theorem setCurrentNode_silent (nodeId : Uuid) :
    Guarantees Silent (transact (setCurrentNode nodeId)).run := by
  refine transact_silent fun tables tables' hok => ?_
  unfold setCurrentNode updateRun at hok
  cases hrun : tables.run with
  | none =>
      rw [hrun] at hok
      cases hok
  | some run =>
      rw [hrun] at hok
      dsimp only at hok
      split at hok
      · cases hok
        rfl
      · cases hok

theorem updateNode_run {nodeId : Uuid} {attempt : Nat} {f : WorkflowNodeRun → WorkflowNodeRun}
    {message : String} {tables tables' : RunTables}
    (h : updateNode nodeId attempt f message tables = .ok tables') : tables'.run = tables.run := by
  unfold updateNode at h
  split at h
  · cases h
    rfl
  · cases h

theorem finishNode_silent (finish : FinishWorkflowNode) :
    Guarantees Silent (transact (finishNode finish)).run := by
  refine transact_silent fun tables tables' hok => ?_
  unfold finishNode at hok
  split at hok
  · cases hok
  · split at hok
    · cases hok
    · rw [updateNode_run hok]

theorem linkExecution_silent (nodeId : Uuid) (attempt : Attempt) (executionId : Option Uuid) :
    Guarantees Silent (linkExecution nodeId attempt executionId).run := by
  cases executionId with
  | none => trivial
  | some executionId =>
      refine transact_silent fun tables tables' hok => ?_
      rw [updateNode_run hok]

theorem insertAttempt_silent (nodeId : Uuid) (status : WorkflowNodeStatus) :
    Guarantees Silent (transactAttempt (insertAttempt nodeId status)).run :=
  guarantees_atomic fun _ => ⟨rfl, rfl, rfl⟩

theorem emit_silent (payload : WorkflowEventPayload) : Guarantees Silent (emit payload).run :=
  (emit_aside payload).mono fun _ _ => Aside.silent

theorem executeNode_silent (runId nodeId : Uuid) (attempt : Attempt) (contexts : Contexts)
    (config : WorkflowNodeConfig Uuid) :
    (executeNode runId nodeId attempt contexts config).Guarantees Silent :=
  (executeNode_aside runId nodeId attempt contexts config).mono fun _ _ => Aside.silent

theorem emitCondition_silent (context : RunContext) (nodeId : Uuid) (result : Option Bool) :
    Guarantees Silent (emitCondition context nodeId result).run :=
  (emitCondition_aside context nodeId result).mono fun _ _ => Aside.silent

theorem recordSkipped_silent (context : RunContext) (visited : List Uuid)
    (nodes : List (WorkflowNode Uuid)) :
    Guarantees Silent (recordSkipped context visited nodes).run := by
  induction nodes with
  | nil => trivial
  | cons node rest ih =>
      unfold recordSkipped
      split
      · exact ih
      · refine guarantees_andThen (insertAttempt_silent _ _) fun attempt => ?_
        exact guarantees_andThen (emit_silent _) fun _ => ih

/-! ## §2. The outcome of a node. -/

/-- A node that has succeeded gives a result exactly if it is a condition. -/
def Branches (config : WorkflowNodeConfig Uuid) (step : StepOutcome) : Prop :=
  step.status = .succeeded →
    (step.conditionResult.isSome ↔ ∃ source predicate, config = .condition source predicate)

variable {config : WorkflowNodeConfig Uuid}

theorem branches_failed {e : AppError} : Branches config (.failed e) := by
  intro h
  cases h

theorem branches_plain {step : StepOutcome}
    (hconfig : ∀ source predicate, config ≠ .condition source predicate)
    (h : step.conditionResult = none) : Branches config step := by
  intro _
  rw [h]
  constructor
  · intro hsome
    cases hsome
  · intro hcondition
    obtain ⟨source, predicate, heq⟩ := hcondition
    exact absurd heq (hconfig source predicate)

theorem runAdapter_branches {runId nodeId : Uuid} {attempt : Attempt}
    (hconfig : ∀ source predicate, config ≠ .condition source predicate)
    (asked : WorkflowNodeConfig Uuid) :
    (runAdapter runId nodeId attempt asked).Yields (Branches config) := by
  unfold runAdapter
  refine yields_bind (yields_any _) fun events _ => ?_
  refine yields_bind (yields_any _) fun child _ => ?_
  refine yields_bind (yields_any _) fun result _ => ?_
  refine yields_bind (yields_any _) fun cleared _ => ?_
  cases cleared with
  | error e => exact branches_failed
  | ok _ =>
      cases result with
      | ok outcome => exact branches_plain hconfig rfl
      | error e => exact branches_failed

theorem executeNode_branches {runId nodeId : Uuid} {attempt : Attempt} {contexts : Contexts} :
    (executeNode runId nodeId attempt contexts config).Yields (Branches config) := by
  cases config with
  | start => exact branches_plain (by simp) rfl
  | stop message => exact branches_plain (by simp) rfl
  | condition source predicate =>
      show Branches _ (conditionOutcome contexts source predicate)
      unfold conditionOutcome
      cases contexts source with
      | none => exact branches_failed
      | some found =>
          dsimp only
          cases evaluateCondition predicate found with
          | error e => exact branches_failed
          | ok result => exact fun _ => ⟨fun _ => ⟨source, predicate, rfl⟩, fun _ => rfl⟩
  | task taskId taskVersion parameters => exact runAdapter_branches (by simp) _
  | custom mode content timeoutSeconds => exact runAdapter_branches (by simp) _
  | download remotePath suggestedName overwrite => exact runAdapter_branches (by simp) _
  | logSearch => exact runAdapter_branches (by simp) _
  | upload localPath remotePath overwrite createRestorePoint =>
      cases createRestorePoint with
      | false => exact runAdapter_branches (by simp) _
      | true =>
          refine yields_bind (yields_any _) fun captured _ => ?_
          cases captured with
          | error e => exact branches_failed
          | ok point =>
              refine yields_bind (yields_any _) fun r _ => ?_
              cases r with
              | ok _ => exact runAdapter_branches (by simp) _
              | error e => exact branches_failed

/-! ## §3. Cancellations that are lost, and those that are heeded. -/

/-- No body begins after a cancellation has returned. -/
def Quiet (deeds : List Deed) : Prop :=
  ∀ later earlier, deeds = later ++ .cancelReturned :: earlier → ∀ nodeId, .began nodeId ∉ later

/-- No body begins after a cancellation has returned, and the run does not succeed. -/
def NotLost (s : RunState) : Prop :=
  Quiet s.deeds
    ∧ (.cancelReturned ∈ s.deeds → ∀ run, s.tables.run = some run → run.status ≠ .succeeded)

/-- The deeds since the token was polled for a node and was not set. -/
def sincePoll (nodeId : Uuid) (deeds : List Deed) : List Deed :=
  deeds.takeWhile fun deed => deed != .polled nodeId false

/-- No call returns between the poll and the body of a node, and none returns after the
poll for a node without a successor that succeeds. -/
structure Heeded (edges : List (WorkflowEdge Uuid)) (deeds : List Deed) : Prop where
  began : ∀ later earlier nodeId, deeds = later ++ .began nodeId :: earlier →
    .cancelReturned ∉ sincePoll nodeId earlier
  ended : ∀ later earlier nodeId, deeds = later ++ .ended nodeId .succeeded :: earlier →
    outgoing edges nodeId = [] → .cancelReturned ∉ later ++ sincePoll nodeId earlier

theorem Heeded.tail {edges : List (WorkflowEdge Uuid)} {deed : Deed} {deeds : List Deed}
    (h : Heeded edges (deed :: deeds)) : Heeded edges deeds where
  began later earlier nodeId heq := h.began (deed :: later) earlier nodeId (by rw [heq]; rfl)
  ended later earlier nodeId heq hout hmem :=
    h.ended (deed :: later) earlier nodeId (by rw [heq]; rfl) hout (List.mem_cons_of_mem _ hmem)

theorem Quiet.cons {deed : Deed} {deeds : List Deed} (h : Quiet deeds)
    (hdeed : ∀ nodeId, deed ≠ .began nodeId) : Quiet (deed :: deeds) := by
  intro later earlier heq nodeId hmem
  cases later with
  | nil => exact absurd hmem List.not_mem_nil
  | cons first later =>
      obtain ⟨rfl, hrest⟩ := List.cons.inj heq
      rcases List.mem_cons.mp hmem with hfirst | hmem
      · exact hdeed nodeId hfirst.symm
      · exact h later earlier hrest nodeId hmem

theorem quiet_of_not_mem {deeds : List Deed} (h : .cancelReturned ∉ deeds) : Quiet deeds := by
  intro later earlier heq
  exact absurd (heq ▸ List.mem_append_right later List.mem_cons_self) h

/-- Deeds of the callers of `cancel`. -/
def Calls (deeds : List Deed) : Prop := ∀ deed ∈ deeds, deed = .tokenSet ∨ deed = .cancelReturned

theorem Calls.cons {deed : Deed} {deeds : List Deed} (h : Calls deeds)
    (hdeed : deed = .tokenSet ∨ deed = .cancelReturned) : Calls (deed :: deeds) := by
  intro other hother
  rcases List.mem_cons.mp hother with rfl | hother
  · exact hdeed
  · exact h other hother

/-- Calls made since a poll are among the deeds since the poll. -/
theorem Calls.sincePoll {fresh earlier : List Deed} {nodeId : Uuid} (h : Calls fresh) {deed : Deed}
    (hdeed : deed ∈ fresh) : deed ∈ sincePoll nodeId (fresh ++ earlier) := by
  unfold WorkflowService.sincePoll
  rw [List.takeWhile_append_of_pos]
  · exact List.mem_append_left _ hdeed
  · intro other hother
    rcases h other hother with rfl | rfl <;> rfl

/-! ## §4. What is true between the steps of the driver. -/

/-- A fact about the deeds that the callers of `cancel` leave true. -/
structure Told where
  holds : List Deed → Prop
  kept : ∀ deed deeds, deed = .tokenSet ∨ deed = .cancelReturned → holds deeds →
    holds (deed :: deeds)

section Cancelling

variable (edges : List (WorkflowEdge Uuid))

/-- The run is registered and has not been finished. -/
structure Working (told : Told) (s : RunState) : Prop where
  unfinished : unfinished s = true
  active : s.active.isSome = true
  token : .tokenSet ∈ s.deeds → isCancelled s = true
  caused : .cancelReturned ∈ s.deeds → .tokenSet ∈ s.deeds
  quiet : Heeded edges s.deeds → Quiet s.deeds
  fact : told.holds s.deeds

theorem not_succeeded_of_unfinished {s : RunState} (h : unfinished s = true) :
    ∀ run, s.tables.run = some run → run.status ≠ .succeeded := by
  intro run hrun heq
  unfold unfinished at h
  rw [hrun] at h
  dsimp only [Option.any_some] at h
  rw [heq] at h
  cases h

theorem Working.notLost {told : Told} {s : RunState} (h : Working edges told s) :
    Heeded edges s.deeds → NotLost s :=
  fun hheeded => ⟨h.quiet hheeded, fun _ => not_succeeded_of_unfinished h.unfinished⟩

theorem setToken_of_some {s : RunState} {entry : ActiveWorkflowRun} (h : s.active = some entry) :
    setToken s
      = note .tokenSet { s with active := some { entry with cancelled := true } } := by
  unfold setToken cancelNow
  rw [h]

theorem Working.cancels {told : Told} {s s' : RunState} (hcancel : Cancels s s')
    (h : Working edges told s) : Working edges told s' := by
  cases hcancel with
  | sets =>
      obtain ⟨entry, hentry⟩ := Option.isSome_iff_exists.mp h.active
      rw [setToken_of_some hentry]
      exact
        { unfinished := h.unfinished
          active := rfl
          token := fun _ => rfl
          caused := fun _ => List.mem_cons_self
          quiet := fun hheeded => (h.quiet hheeded.tail).cons (by simp)
          fact := told.kept _ _ (Or.inl rfl) h.fact }
  | returns htoken =>
      unfold noteReturn
      rw [if_pos h.unfinished]
      exact
        { unfinished := h.unfinished
          active := h.active
          token := fun _ => h.token htoken
          caused := fun _ => List.mem_cons_of_mem _ htoken
          quiet := fun hheeded => (h.quiet hheeded.tail).cons (by simp)
          fact := told.kept _ _ (Or.inr rfl) h.fact }

/-- No cancellation has been lost so far. -/
def anywhere : Assertion Cancels fun s => Heeded edges s.deeds → NotLost s where
  holds s := Heeded edges s.deeds → NotLost s
  stable s s' hcancel h := by
    cases hcancel with
    | sets =>
        cases hactive : s.active with
        | none =>
            unfold setToken
            rw [hactive]
            exact h
        | some entry =>
            rw [setToken_of_some hactive]
            intro hheeded
            obtain ⟨hquiet, hstatus⟩ := h hheeded.tail
            exact ⟨hquiet.cons (by simp), fun hmem =>
              hstatus ((List.mem_cons.mp hmem).resolve_left (by simp))⟩
    | returns _ =>
        unfold noteReturn
        by_cases hunfinished : unfinished s = true
        · rw [if_pos hunfinished]
          intro hheeded
          exact ⟨(h hheeded.tail).1.cons (by simp), fun _ => not_succeeded_of_unfinished hunfinished⟩
        · rw [if_neg hunfinished]
          exact h
  safe _ h := h

def working (told : Told) : Assertion Cancels fun s => Heeded edges s.deeds → NotLost s where
  holds := Working edges told
  stable _ _ := Working.cancels edges
  safe _ := Working.notLost edges

/-- Nothing in particular. -/
def anything : Told where
  holds _ := True
  kept _ _ _ _ := trivial

/-- The token has been polled for the node and was not set. -/
def polledClear (nodeId : Uuid) : Told where
  holds deeds := ∃ fresh earlier, deeds = fresh ++ .polled nodeId false :: earlier ∧ Calls fresh
    ∧ .cancelReturned ∉ earlier
  kept deed deeds hdeed h := by
    obtain ⟨fresh, earlier, heq, hfresh, hearlier⟩ := h
    exact ⟨deed :: fresh, earlier, by rw [heq]; rfl, hfresh.cons hdeed, hearlier⟩

/-- The body of the node has begun. -/
def inBody (nodeId : Uuid) : Told where
  holds deeds := Heeded edges deeds → ∃ fresh earlier, deeds = fresh ++ .began nodeId :: earlier
    ∧ Calls fresh ∧ .cancelReturned ∉ earlier
  kept deed deeds hdeed h := by
    intro hheeded
    obtain ⟨fresh, earlier, heq, hfresh, hearlier⟩ := h hheeded.tail
    exact ⟨deed :: fresh, earlier, by rw [heq]; rfl, hfresh.cons hdeed, hearlier⟩

/-- The outcome of the node is known. -/
def judged (nodeId : Uuid) (status : WorkflowNodeStatus) : Told where
  holds deeds := status = .succeeded → .ended nodeId .succeeded ∈ deeds
    ∧ (Heeded edges deeds → outgoing edges nodeId = [] → .cancelReturned ∉ deeds)
  kept deed deeds hdeed h := by
    intro hstatus
    obtain ⟨hended, hlast⟩ := h hstatus
    refine ⟨List.mem_cons_of_mem _ hended, fun hheeded hout hmem => ?_⟩
    rcases List.mem_cons.mp hmem with rfl | hmem
    · -- a call returns after the end of the node
      obtain ⟨later, earlier, heq⟩ := List.append_of_mem hended
      exact hheeded.ended (.cancelReturned :: later) earlier nodeId (by rw [heq]; rfl) hout
        (List.mem_append_left _ List.mem_cons_self)
    · exact hlast hheeded.tail hout hmem

/-! ## §5. The steps of the driver. -/

variable {edges}
variable {A : (question : RunQuestion) → RunAnswer question → Prop} {told : Told}

theorem Working.silent {s s' : RunState} (hsilent : Silent s s') (h : Working edges told s) :
    Working edges told s' := by
  have hdeeds := hsilent.deeds
  have hcancelled : isCancelled s' = isCancelled s := by
    have hmap := congrArg (fun active => active.any id) hsilent.active
    rw [Option.any_map, Option.any_map] at hmap
    exact hmap
  refine ⟨?_, ?_, ?_, ?_, ?_, ?_⟩
  · have hmap := congrArg (fun status => status.any fun status =>
      status == .queued || status == .running) hsilent.status
    rw [Option.any_map, Option.any_map] at hmap
    exact hmap.trans h.unfinished
  · have hmap := congrArg Option.isSome hsilent.active
    rw [Option.isSome_map, Option.isSome_map] at hmap
    exact hmap.trans h.active
  · rw [hdeeds, hcancelled]
    exact h.token
  · rw [hdeeds]
    exact h.caused
  · rw [hdeeds]
    exact h.quiet
  · rw [hdeeds]
    exact h.fact

theorem anywhere_silent {s s' : RunState} (hsilent : Silent s s')
    (h : (anywhere edges).holds s) : (anywhere edges).holds s' := by
  intro hheeded
  rw [hsilent.deeds] at hheeded
  obtain ⟨hquiet, hstatus⟩ := h hheeded
  refine ⟨?_, fun hmem run hrun heq => ?_⟩
  · rw [hsilent.deeds]
    exact hquiet
  · rw [hsilent.deeds] at hmem
    have hsame := hsilent.status
    rw [hrun] at hsame
    cases hbefore : s.tables.run with
    | none =>
        rw [hbefore] at hsame
        cases hsame
    | some run' =>
        rw [hbefore] at hsame
        exact hstatus hmem run' hbefore ((Option.some.inj hsame).symm.trans heq)

/-- A part of the driver that no caller notices. -/
theorem working_silent {α : Type} {p : RunProcess α} (hp : Guarantees Silent p.run) :
    Triple A (working edges told) p.run (outcome (fun _ => working edges told) (anywhere edges)) :=
  triple_of_silent hp (fun _ _ => Working.silent) fun _ hs => hs.notLost

/-- **The poll.**  A call that has returned before it has set the token. -/
theorem poll_spec (nodeId : Uuid) :
    Triple A (working edges anything) (poll nodeId).run
      (outcome
        (fun cancelled => working edges (if cancelled then anything else polledClear nodeId))
        (anywhere edges)) := by
  refine triple_atomic fun s hs => ?_
  have hkept : ∀ fact : Told, fact.holds (.polled nodeId (isCancelled s) :: s.deeds) →
      Working edges fact (note (.polled nodeId (isCancelled s)) s) := fun fact hfact =>
    { unfinished := hs.unfinished
      active := hs.active
      token := fun hmem => hs.token ((List.mem_cons.mp hmem).resolve_left (by simp))
      caused := fun hmem => List.mem_cons_of_mem _
        (hs.caused ((List.mem_cons.mp hmem).resolve_left (by simp)))
      quiet := fun hheeded => (hs.quiet hheeded.tail).cons (by simp)
      fact := hfact }
  by_cases hcancelled : isCancelled s = true
  · refine hkept _ ?_
    rw [hcancelled]
    trivial
  · refine hkept _ ?_
    rw [Bool.not_eq_true] at hcancelled
    rw [hcancelled]
    refine ⟨[], s.deeds, rfl, by simp [Calls], fun hmem => ?_⟩
    have hset := hs.token (hs.caused hmem)
    rw [hcancelled] at hset
    cases hset

theorem begin_spec (nodeId : Uuid) :
    Triple A (working edges (polledClear nodeId))
      (Process.atomic fun s => ((), note (.began nodeId) s))
      (fun _ => working edges (inBody edges nodeId)) := by
  refine triple_atomic fun s hs => ?_
  obtain ⟨fresh, earlier, heq, hfresh, hearlier⟩ := hs.fact
  have hnone : Heeded edges (.began nodeId :: s.deeds) → .cancelReturned ∉ s.deeds := by
    intro hheeded hmem
    rw [heq] at hmem
    rcases List.mem_append.mp hmem with hmem | hmem
    · refine hheeded.began [] s.deeds nodeId rfl ?_
      rw [heq]
      exact hfresh.sincePoll hmem
    · exact hearlier ((List.mem_cons.mp hmem).resolve_left (by simp))
  exact
    { unfinished := hs.unfinished
      active := hs.active
      token := fun hmem => hs.token ((List.mem_cons.mp hmem).resolve_left (by simp))
      caused := fun hmem => List.mem_cons_of_mem _
        (hs.caused ((List.mem_cons.mp hmem).resolve_left (by simp)))
      quiet := fun hheeded => quiet_of_not_mem fun hmem =>
        hnone hheeded ((List.mem_cons.mp hmem).resolve_left (by simp))
      fact := fun hheeded => ⟨[], s.deeds, rfl, by simp [Calls], hnone hheeded⟩ }

theorem end_spec (nodeId : Uuid) {step : StepOutcome} (hstep : Branches config step) :
    Triple A (working edges (inBody edges nodeId))
      (Process.atomic fun s => (step, note (.ended nodeId step.status) s))
      (fun step => (working edges (judged edges nodeId step.status)).given
        (Branches config step)) := by
  refine triple_atomic fun s hs => ⟨hstep, ?_⟩
  exact
    { unfinished := hs.unfinished
      active := hs.active
      token := fun hmem => hs.token ((List.mem_cons.mp hmem).resolve_left (by simp))
      caused := fun hmem => List.mem_cons_of_mem _
        (hs.caused ((List.mem_cons.mp hmem).resolve_left (by simp)))
      quiet := fun hheeded => (hs.quiet hheeded.tail).cons (by simp)
      fact := by
        intro hstatus
        show _ ∈ Deed.ended nodeId step.status :: s.deeds ∧ _
        rw [hstatus]
        refine ⟨List.mem_cons_self, fun hheeded hout hmem => ?_⟩
        obtain ⟨fresh, earlier, heq, hfresh, hearlier⟩ := hs.fact hheeded.tail
        have hmem' : .cancelReturned ∈ s.deeds := (List.mem_cons.mp hmem).resolve_left (by simp)
        refine hheeded.ended [] s.deeds nodeId rfl hout ?_
        rw [heq] at hmem' ⊢
        rcases List.mem_append.mp hmem' with hmem' | hmem'
        · exact hfresh.sincePoll hmem'
        · exact absurd ((List.mem_cons.mp hmem').resolve_left (by simp)) hearlier }

variable {context : RunContext}

theorem anywhere_quiet {α : Type} {p : RunProcess α} (hp : Guarantees Silent p.run) :
    Triple A (anywhere edges) p.run (outcome (fun _ => anywhere edges) (anywhere edges)) :=
  triple_of_silent hp (fun _ _ => anywhere_silent) fun _ hs => hs

/-- The run is finished; it may succeed if no call has returned. -/
theorem finishRunWith_heeded {finish : FinishWorkflowRun}
    (hlast : finish.status = .succeeded → ∀ deeds, told.holds deeds → Heeded edges deeds →
      .cancelReturned ∉ deeds) :
    Triple A (working edges told) (finishRunWith context finish).run
      (outcome (fun _ => anywhere edges) (anywhere edges)) := by
  have hfinish : Triple A (working edges told) (transact (finishRun finish)).run
      (outcome (fun _ => anywhere edges) (anywhere edges)) := by
    refine triple_update (fun s s' hs hok => ?_) fun s e hs _ => hs.notLost
    intro hheeded
    cases hf : finishRun finish s.tables with
    | error e =>
        rw [hf] at hok
        cases hok
    | ok tables =>
        rw [hf] at hok
        cases hok
        refine ⟨hs.quiet hheeded, fun hmem run hrun => ?_⟩
        unfold finishRun at hf
        split at hf
        · unfold updateRun at hf
          cases hbefore : s.tables.run with
          | none =>
              rw [hbefore] at hf
              cases hf
          | some run' =>
              rw [hbefore] at hf
              dsimp only at hf
              split at hf
              · cases hf
                cases hrun
                exact fun hstatus => hlast hstatus s.deeds hs.fact hheeded hmem
              · cases hf
        · cases hf
  unfold finishRunWith
  refine triple_andThen hfinish fun _ => ?_
  refine triple_andThen (anywhere_quiet (emit_silent _)) fun _ => ?_
  refine triple_andThen (anywhere_quiet (guarantees_lift fun _ => trivial)) fun _ => ?_
  exact anywhere_quiet (emit_silent _)

theorem removeRun_heeded :
    Triple A (anywhere edges) removeRun.run
      (outcome (fun _ => anywhere edges) (anywhere edges)) :=
  triple_atomic fun _ hs => hs

theorem requireRun_silent : Guarantees Silent requireRun.run :=
  ⟨Silent.refl, fun _ => trivial⟩

/-- What is true after a turn. -/
def afterTurn (edges : List (WorkflowEdge Uuid)) :
    Turn → Assertion Cancels fun s => Heeded edges s.deeds → NotLost s
  | .ended _ => anywhere edges
  | .goOn _ _ _ => working edges anything

/-- The run is released and shown. -/
theorem release_heeded :
    Triple A (anywhere edges)
      (do
        removeRun
        let details ← requireRun
        pure (.ended details) : RunProcess Turn).run
      (outcome (afterTurn edges) (anywhere edges)) := by
  refine triple_andThen removeRun_heeded fun _ => ?_
  exact triple_andThen (anywhere_quiet requireRun_silent) fun _ => triple_ok fun _ hs => hs

theorem endStatus_ne_succeeded (status : WorkflowNodeStatus) : endStatus status ≠ .succeeded := by
  cases status <;> decide

/-- The end of a turn.  A run that succeeds has come to a node without a successor. -/
theorem conclude_heeded (haccepted : AcceptedGraph context.definition.draft)
    {node : WorkflowNode Uuid} (hnode : node ∈ context.definition.nodes) {contexts : Contexts}
    {visited : List Uuid} {step : StepOutcome} (hbranches : Branches node.config step) :
    Triple A
      (working context.definition.edges
        (judged context.definition.edges node.id step.status))
      (conclude context removeRun node.id contexts visited step).run
      (outcome (afterTurn context.definition.edges) (anywhere context.definition.edges)) := by
  unfold conclude
  by_cases hfailed : step.status ≠ .succeeded
  · rw [if_pos hfailed]
    refine triple_andThen (finishRunWith_heeded fun hstatus => ?_) fun _ => release_heeded
    exact absurd hstatus (endStatus_ne_succeeded step.status)
  · rw [if_neg hfailed]
    have hsucceeded : step.status = .succeeded := not_not.mp hfailed
    refine triple_andThen (working_silent (emitCondition_silent context node.id _)) fun _ => ?_
    rcases nextNode_spec haccepted hnode (hbranches hsucceeded) with ⟨next, hnext, _⟩ | ⟨hnext, hout⟩
    · rw [show nextNode context.definition.edges node.id step.conditionResult = _ from hnext]
      exact triple_known (triple_ok fun _ hs => { hs with fact := trivial })
    · rw [show nextNode context.definition.edges node.id step.conditionResult = _ from hnext]
      apply triple_known
      refine triple_andThen (working_silent (recordSkipped_silent context visited _)) fun _ => ?_
      refine triple_andThen (finishRunWith_heeded fun _ deeds hfact hheeded => ?_)
        fun _ => release_heeded
      exact (hfact hsucceeded).2 hheeded hout

/-- **One turn.**  A cancellation that has returned before is noticed by the poll. -/
theorem turn_heeded (haccepted : AcceptedGraph context.definition.draft) (current : Uuid)
    (contexts : Contexts) (visited : List Uuid) :
    Triple A (working context.definition.edges anything)
      (turn context removeRun current contexts visited).run
      (outcome (afterTurn context.definition.edges) (anywhere context.definition.edges)) := by
  unfold turn
  refine triple_andThen (working_silent (setCurrentNode_silent current)) fun _ => ?_
  cases hfind : context.definition.nodes.find? fun node => node.id == current with
  | none => exact triple_throw fun _ hs => hs.notLost
  | some node =>
      have hnode := List.mem_of_find?_eq_some hfind
      have hid : node.id = current := by
        have hfound := List.find?_some hfind
        exact beq_iff_eq.mp hfound
      rw [← hid]
      dsimp only
      refine triple_andThen (working_silent (insertAttempt_silent _ _)) fun attempt => ?_
      refine triple_andThen (working_silent (emit_silent _)) fun _ => ?_
      have hrecorded : ∀ step : StepOutcome, Branches node.config step →
          Triple A
            (working context.definition.edges
              (judged context.definition.edges node.id step.status))
            (do
              linkExecution node.id attempt step.executionId
              transact (finishNode (finishOf node.id attempt step))
              emit (.nodeStatusChanged context.runId node.id attempt step.status
                step.executionId step.errorMessage)
              conclude context removeRun node.id contexts (node.id :: visited) step).run
            (outcome (afterTurn context.definition.edges)
              (anywhere context.definition.edges)) := by
        intro step hbranches
        refine triple_andThen (working_silent (linkExecution_silent _ _ _)) fun _ => ?_
        refine triple_andThen (working_silent (finishNode_silent _)) fun _ => ?_
        refine triple_andThen (working_silent (emit_silent _)) fun _ => ?_
        exact conclude_heeded haccepted hnode hbranches
      refine triple_andThen (poll_spec node.id) fun cancelled => ?_
      cases cancelled with
      | true =>
          apply triple_known
          refine (hrecorded cancelledOutcome fun h => by cases h).weaken (fun s hs => ?_)
            fun _ _ h => h
          exact { hs with fact := fun h => by cases h }
      | false =>
          have hbody : Triple A
              (working context.definition.edges (polledClear node.id))
              (bodyOf context node attempt contexts)
              (fun step => (working context.definition.edges
                (judged context.definition.edges node.id step.status)).given
                  (Branches node.config step)) := by
            refine triple_bind (begin_spec node.id) fun _ => ?_
            refine triple_bind (triple_of_guarantees (executeNode_silent _ _ _ _ _)
              executeNode_branches fun _ _ => Working.silent) fun step => triple_given fun hstep => ?_
            exact end_spec node.id hstep
          exact triple_andThen (triple_lift hbody) fun step => triple_given (hrecorded step)

theorem turns_heeded (context : RunContext)
    (haccepted : AcceptedGraph context.definition.draft) (fuel : Nat) (current : Uuid)
    (contexts : Contexts) (visited : List Uuid) :
    Triple A (working context.definition.edges anything)
      (turns context removeRun fuel current contexts visited).run
      (outcome (fun _ => anywhere context.definition.edges)
        (anywhere context.definition.edges)) := by
  induction fuel generalizing current contexts visited with
  | zero => exact triple_ok fun _ hs => hs.notLost
  | succ fuel ih =>
      unfold turns
      refine triple_andThen (turn_heeded haccepted current contexts visited) fun result => ?_
      cases result with
      | ended details => exact triple_ok fun _ hs => hs
      | goOn next contexts visited => exact ih next contexts visited

/-- Before the run is registered. -/
def unregistered (edges : List (WorkflowEdge Uuid)) (created : Bool) :
    Assertion Cancels fun s => Heeded edges s.deeds → NotLost s where
  holds s := s.active = none ∧ s.deeds = [] ∧ (created = true → unfinished s = true)
  stable s s' hcancel h := by
    cases hcancel with
    | sets =>
        unfold setToken
        rw [h.1]
        exact h
    | returns htoken =>
        rw [h.2.1] at htoken
        exact absurd htoken List.not_mem_nil
  safe s h _ := by
    refine ⟨quiet_of_not_mem ?_, fun hmem => ?_⟩
    · rw [h.2.1]
      exact List.not_mem_nil
    · rw [h.2.1] at hmem
      exact absurd hmem List.not_mem_nil

variable [UuidCrate] {catalog : List TaskDefinition} {pathIsAbsolute : Text → Bool}

/-- **A run by itself, among calls of `cancel`.** -/
theorem run_heeded {definition : WorkflowDefinition}
    (haccepted : AcceptedGraph definition.draft) (request : StartWorkflowRunRequest) :
    Triple A (unregistered definition.edges false)
      (run catalog pathIsAbsolute (some definition) request).run
      (outcome (fun _ => anywhere definition.edges) (anywhere definition.edges)) := by
  have hleave : ∀ created s, (unregistered definition.edges created).holds s →
      (anywhere definition.edges).holds s := fun created s hs =>
    (unregistered definition.edges created).safe s hs
  unfold run
  refine triple_andThen ((preflight_spec (False.elim : False → _)).leave (hleave false))
    fun found => triple_given fun hfound => ?_
  obtain ⟨rfl, _⟩ := hfound
  cases found.nodes.find? isStart with
  | none => exact triple_throw (hleave false)
  | some start =>
      dsimp only
      refine triple_andThen (triple_lift (triple_query fun _ _ _ hs => hs)) fun runId => ?_
      have hcreate : Triple A (unregistered found.edges false)
          (transact (createRun runId found.id found.version request.serverId)).run
          (outcome (fun _ => unregistered found.edges true) (anywhere found.edges)) := by
        refine triple_update (fun s s' hs hok => ?_) fun s e hs _ => hleave false s hs
        unfold createRun at hok
        split at hok
        · cases hok
        · cases hok
          exact ⟨hs.1, hs.2.1, fun _ => rfl⟩
      refine triple_andThen hcreate fun _ => ?_
      have hregister : Triple A (unregistered found.edges true)
          (Process.update register : RunProcess Unit).run
          (outcome (fun _ => working found.edges anything) (anywhere found.edges)) := by
        refine triple_update (fun s s' hs hok => ?_) fun s e hs _ => hleave true s hs
        obtain ⟨hactive, hdeeds, hunfinished⟩ := hs
        unfold register at hok
        rw [hactive] at hok
        cases hok
        refine ⟨hunfinished rfl, rfl, ?_, ?_, ?_, trivial⟩
        · show .tokenSet ∈ s.deeds → _
          rw [hdeeds]
          exact fun hmem => absurd hmem List.not_mem_nil
        · show .cancelReturned ∈ s.deeds → _
          rw [hdeeds]
          exact fun hmem => absurd hmem List.not_mem_nil
        · intro _
          refine quiet_of_not_mem ?_
          show .cancelReturned ∉ s.deeds
          rw [hdeeds]
          exact List.not_mem_nil
      refine triple_andThen hregister fun _ => ?_
      have hrunning : Triple A (working found.edges anything)
          (transact (markRunRunning start.id)).run
          (outcome (fun _ => working found.edges anything) (anywhere found.edges)) := by
        refine triple_update (fun s s' hs hok => ?_) fun s e hs _ => hs.notLost
        cases hf : markRunRunning start.id s.tables with
        | error e =>
            rw [hf] at hok
            cases hok
        | ok tables =>
            rw [hf] at hok
            cases hok
            refine { hs with unfinished := ?_ }
            unfold markRunRunning updateRun at hf
            cases hrun : s.tables.run with
            | none =>
                rw [hrun] at hf
                cases hf
            | some run =>
                rw [hrun] at hf
                dsimp only at hf
                split at hf
                · cases hf
                  rfl
                · cases hf
      refine triple_andThen hrunning fun _ => ?_
      refine triple_andThen (working_silent (emit_silent _)) fun _ => ?_
      exact turns_heeded { definition := found, runId := runId } haccepted _ _ _ _

end Cancelling

/-! ## §6. The driver remembers. -/

/-- Deeds are not forgotten. -/
def Remembers (s s' : RunState) : Prop := ∀ deed ∈ s.deeds, deed ∈ s'.deeds

theorem remembers_same {s s' : RunState} (h : s'.deeds = s.deeds) : Remembers s s' := by
  intro deed hdeed
  rw [h]
  exact hdeed

theorem remembers_note (deed : Deed) (s : RunState) : Remembers s (note deed s) :=
  fun _ hdeed => List.mem_cons_of_mem _ hdeed

theorem remembers_of_silent {α : Type} {p : PlainProcess α} (h : p.Guarantees Silent) :
    p.Guarantees Remembers :=
  h.mono fun _ _ hsilent => remembers_same hsilent.deeds

theorem transact_remembers (f : RunTables → AppResult RunTables) :
    Guarantees Remembers (transact f).run := by
  refine guarantees_update (fun s => remembers_same rfl) fun s s' hok => ?_
  cases hf : f s.tables with
  | error e =>
      rw [hf] at hok
      cases hok
  | ok tables =>
      rw [hf] at hok
      cases hok
      exact remembers_same rfl

theorem bodyOf_remembers (context : RunContext) (node : WorkflowNode Uuid) (attempt : Attempt)
    (contexts : Contexts) : (bodyOf context node attempt contexts).Guarantees Remembers := by
  unfold bodyOf
  refine guarantees_bind (guarantees_atomic fun s => remembers_note _ s) fun _ => ?_
  refine guarantees_bind (remembers_of_silent (executeNode_silent _ _ _ _ _)) fun step => ?_
  exact guarantees_atomic fun s => remembers_note _ s

theorem finishRunWith_remembers (context : RunContext) (finish : FinishWorkflowRun) :
    Guarantees Remembers (finishRunWith context finish).run := by
  unfold finishRunWith
  refine guarantees_andThen (transact_remembers _) fun _ => ?_
  refine guarantees_andThen (remembers_of_silent (emit_silent _)) fun _ => ?_
  exact guarantees_andThen (guarantees_lift fun _ => trivial) fun _ =>
    remembers_of_silent (emit_silent _)

theorem release_remembers :
    Guarantees Remembers (do
      removeRun
      let details ← requireRun
      pure (.ended details) : RunProcess Turn).run := by
  refine guarantees_andThen (guarantees_atomic fun s => remembers_same rfl) fun _ => ?_
  exact guarantees_andThen (remembers_of_silent requireRun_silent) fun _ => trivial

theorem conclude_remembers (context : RunContext) (current : Uuid) (contexts : Contexts)
    (visited : List Uuid) (step : StepOutcome) :
    Guarantees Remembers (conclude context removeRun current contexts visited step).run := by
  unfold conclude
  split
  · exact guarantees_andThen (finishRunWith_remembers _ _) fun _ => release_remembers
  · refine guarantees_andThen (remembers_of_silent (emitCondition_silent _ _ _)) fun _ => ?_
    refine guarantees_andThen trivial fun found => ?_
    cases found with
    | some next => trivial
    | none =>
        refine guarantees_andThen (remembers_of_silent (recordSkipped_silent _ _ _)) fun _ => ?_
        exact guarantees_andThen (finishRunWith_remembers _ _) fun _ => release_remembers

theorem turn_remembers (context : RunContext) (current : Uuid) (contexts : Contexts)
    (visited : List Uuid) :
    Guarantees Remembers (turn context removeRun current contexts visited).run := by
  unfold turn
  refine guarantees_andThen (transact_remembers _) fun _ => ?_
  cases context.definition.nodes.find? fun node => node.id == current with
  | none => trivial
  | some node =>
      dsimp only
      refine guarantees_andThen (remembers_of_silent (insertAttempt_silent _ _)) fun attempt => ?_
      refine guarantees_andThen (remembers_of_silent (emit_silent _)) fun _ => ?_
      have hrecorded : ∀ step : StepOutcome, Guarantees Remembers (do
          linkExecution current attempt step.executionId
          transact (finishNode (finishOf current attempt step))
          emit (.nodeStatusChanged context.runId current attempt step.status step.executionId
            step.errorMessage)
          conclude context removeRun current contexts (current :: visited) step :
            RunProcess Turn).run := by
        intro step
        refine guarantees_andThen (remembers_of_silent (linkExecution_silent _ _ _)) fun _ => ?_
        refine guarantees_andThen (transact_remembers _) fun _ => ?_
        refine guarantees_andThen (remembers_of_silent (emit_silent _)) fun _ => ?_
        exact conclude_remembers _ _ _ _ _
      have hpoll : Guarantees Remembers (poll current).run :=
        guarantees_atomic fun s => remembers_note _ s
      refine guarantees_andThen hpoll fun cancelled => ?_
      cases cancelled with
      | true => exact guarantees_andThen trivial hrecorded
      | false => exact guarantees_andThen (guarantees_lift (bodyOf_remembers _ _ _ _)) hrecorded

theorem turns_remembers (context : RunContext) (fuel : Nat) (current : Uuid) (contexts : Contexts)
    (visited : List Uuid) :
    Guarantees Remembers (turns context removeRun fuel current contexts visited).run := by
  induction fuel generalizing current contexts visited with
  | zero => trivial
  | succ fuel ih =>
      unfold turns
      refine guarantees_andThen (turn_remembers _ _ _ _) fun result => ?_
      cases result with
      | ended details => trivial
      | goOn next contexts visited => exact ih next contexts visited

section Calls

variable [UuidCrate] {catalog : List TaskDefinition} {pathIsAbsolute : Text → Bool}

theorem preflight_remembers (stored : Option WorkflowDefinition) (request : StartWorkflowRunRequest) :
    Guarantees Remembers (preflight catalog pathIsAbsolute stored request).run := by
  unfold preflight
  split
  · trivial
  · cases stored with
    | none => trivial
    | some definition =>
        refine guarantees_andThen trivial fun _ => ?_
        refine guarantees_andThen (fun _ => trivial) fun _ => ?_
        split
        · trivial
        · split
          · exact guarantees_andThen (fun _ => trivial) fun _ => trivial
          · trivial

theorem run_remembers (stored : Option WorkflowDefinition) (request : StartWorkflowRunRequest) :
    Guarantees Remembers (run catalog pathIsAbsolute stored request).run := by
  unfold run
  refine guarantees_andThen (preflight_remembers _ _) fun definition => ?_
  cases definition.nodes.find? isStart with
  | none => trivial
  | some start =>
      refine guarantees_andThen (guarantees_lift fun _ => trivial) fun runId => ?_
      refine guarantees_andThen (transact_remembers _) fun _ => ?_
      refine guarantees_andThen (guarantees_update (fun s => remembers_same rfl)
        fun s s' hok => ?_) fun _ => ?_
      · unfold register at hok
        split at hok
        · cases hok
        · cases hok
          exact remembers_same rfl
      · refine guarantees_andThen (transact_remembers _) fun _ => ?_
        refine guarantees_andThen (remembers_of_silent (emit_silent _)) fun _ => ?_
        exact turns_remembers _ _ _ _ _

/-! ## §7. Calls of `cancel`. -/

omit [UuidCrate] in
theorem Cancels.remembers {s s' : RunState} (h : Cancels s s') : Remembers s s' := by
  cases h with
  | sets =>
      cases hactive : s.active with
      | none =>
          unfold setToken
          rw [hactive]
          exact remembers_same rfl
      | some entry =>
          rw [setToken_of_some hactive]
          exact fun _ hdeed => List.mem_cons_of_mem _ hdeed
  | returns _ =>
      unfold noteReturn
      split
      · exact remembers_note _ s
      · exact remembers_same rfl

/-- Where a call of `cancel` can be: it has not begun, it has set the token, or it has
returned. -/
def CallAt (call : PlainProcess (AppResult Unit)) (s : RunState) : Prop :=
  call = cancel.run
    ∨ .tokenSet ∈ s.deeds ∧ call.Guarantees (fun s s' => .tokenSet ∈ s.deeds → Cancels s s')
    ∨ ∃ result, call = done result

omit [UuidCrate] in
theorem CallAt.remembers {call : PlainProcess (AppResult Unit)} {s s' : RunState}
    (h : CallAt call s) (hremembers : Remembers s s') : CallAt call s' := by
  rcases h with hfresh | ⟨htoken, hguarantees⟩ | hdone
  · exact Or.inl hfresh
  · exact Or.inr (Or.inl ⟨hremembers _ htoken, hguarantees⟩)
  · exact Or.inr (Or.inr hdone)

omit [UuidCrate] in
theorem callAt_step {call call' : PlainProcess (AppResult Unit)} {s s' : RunState}
    (h : CallAt call s) (hstep : Step (call, s) (call', s')) :
    CallAt call' s' ∧ (s' = s ∨ Cancels s s') := by
  rcases h with rfl | ⟨htoken, hguarantees⟩ | ⟨result, rfl⟩
  · cases hstep with
    | act update next =>
        refine ⟨?_, Or.inr (.sets s)⟩
        have hreturn : (Process.atomic fun s => (.ok (), noteReturn s) :
            PlainProcess (AppResult Unit)).Guarantees
              fun s s' => .tokenSet ∈ s.deeds → Cancels s s' :=
          guarantees_atomic fun s htoken => Cancels.returns s htoken
        cases hactive : s.active with
        | none =>
            refine Or.inr (Or.inr ⟨.error (.validation "工作流运行不存在或已经结束".toList), ?_⟩)
            dsimp only
            unfold cancelNow
            rw [hactive]
            rfl
        | some entry =>
            refine Or.inr (Or.inl ⟨?_, ?_⟩)
            · show Deed.tokenSet ∈ (setToken s).deeds
              rw [setToken_of_some hactive]
              exact List.mem_cons_self
            · dsimp only
              unfold cancelNow
              rw [hactive]
              cases hchild : entry.childExecutionId with
              | none =>
                  dsimp only
                  rw [hchild]
                  exact hreturn
              | some executionId =>
                  dsimp only
                  rw [hchild]
                  -- the child execution is asked to stop before the call returns
                  intro answer
                  cases answer with
                  | ok _ => exact hreturn
                  | error e => trivial
  · obtain ⟨hnext, hchange⟩ := hguarantees.step hstep
    rcases hchange with hsame | hchange
    · exact ⟨Or.inr (Or.inl ⟨hsame ▸ htoken, hnext⟩), Or.inl hsame⟩
    · have hcancels := hchange htoken
      exact ⟨Or.inr (Or.inl ⟨hcancels.remembers _ htoken, hnext⟩), Or.inr hcancels⟩
  · cases hstep

/-- **A cancellation is not lost**, if no call returns between the poll for a node and the
beginning of its body, and none after the poll for the last node. -/
theorem cancellation_heeded {definition : WorkflowDefinition}
    (hvalid : (validateWorkflow catalog pathIsAbsolute definition.draft).valid = true)
    (request : StartWorkflowRunRequest)
    {driver : PlainProcess (AppResult (Option WorkflowRunDetails))}
    {calls : List (PlainProcess (AppResult Unit))} {s : RunState}
    (hreach : Relation.ReflTransGen (Among cancel.run)
      ((run catalog pathIsAbsolute (some definition) request).run, [], initialState)
      (driver, calls, s))
    (hheeded : Heeded definition.edges s.deeds) : NotLost s := by
  have hcall : ∀ s, CallAt cancel.run s := fun _ => Or.inl rfl
  have hothers : ∀ call s s', CallAt call s → Cancels s s' → CallAt call s' :=
    fun _ _ _ h hcancels => h.remembers hcancels.remembers
  have hown : ∀ call s s', CallAt call s → Remembers s s' → CallAt call s' :=
    fun _ _ _ h hremembers => h.remembers hremembers
  have hseen := Among.reaches hcall (fun _ _ _ _ => callAt_step) hothers hown
    (run_remembers _ _) hreach
  have hdriver := triple_iff.mp (run_heeded (acceptedGraph_of_valid hvalid) request)
    initialState ⟨rfl, rfl, nofun⟩ driver s hseen
  exact hdriver.1 hheeded

omit [UuidCrate] in
theorem heeded_of_not_mem {edges : List (WorkflowEdge Uuid)} {deeds : List Deed}
    (hbegan : ∀ nodeId, .began nodeId ∉ deeds) (hended : ∀ nodeId, .ended nodeId .succeeded ∉ deeds) :
    Heeded edges deeds where
  began later _ nodeId heq :=
    absurd (heq ▸ List.mem_append_right later List.mem_cons_self) (hbegan nodeId)
  ended later _ nodeId heq :=
    absurd (heq ▸ List.mem_append_right later List.mem_cons_self) (hended nodeId)

/-- Nothing but a stop. -/
def direct : WorkflowDefinition where
  id := sampleId 9
  version := 1
  nodes := [sampleNode 0 .start, sampleNode 1 (.stop "end".toList)]
  edges := [⟨sampleId 0, sampleId 1, .success⟩]

omit [UuidCrate] in
theorem direct_valid :
    (@validateWorkflow _ _ hyphenatedUuid [] unixAbsolute direct.draft).valid = true := by
  decide

/-- The driver of that workflow. -/
def directDriver : PlainProcess (AppResult (Option WorkflowRunDetails)) :=
  (@run hyphenatedUuid [] unixAbsolute (some direct)
    { serverId := "web-1".toList, dangerousConfirmed := true }).run

/-- Where the driver comes to when `cancel` is called after its first steps. -/
def cancelledAfter (steps : Nat) : PlainProcess (AppResult (Option WorkflowRunDetails)) × RunState :=
  let before := runSteps (sampleAnswer (.error .cancelled)) steps directDriver initialState
  let called := Process.run (fun _ => sampleAnswer (.error .cancelled)) 0 cancel.run before.2
  runSteps (sampleAnswer (.error .cancelled)) 30 before.1 called.2

omit [UuidCrate] in
theorem cancelledAfter_reaches (steps : Nat) :
    ∃ calls, Relation.ReflTransGen (Among cancel.run) (directDriver, [], initialState)
      ((cancelledAfter steps).1, calls, (cancelledAfter steps).2) := by
  have hcall := Among.of_call
    (runSteps (sampleAnswer (.error .cancelled)) steps directDriver initialState).1
    (run_reaches (fun _ => sampleAnswer (.error .cancelled)) 0 cancel.run
      (runSteps (sampleAnswer (.error .cancelled)) steps directDriver initialState).2)
  refine ⟨_, (Relation.ReflTransGen.trans ?_ hcall).trans
    (Among.of_reaches _ (runSteps_reaches _ 30 _ _))⟩
  exact Among.of_reaches [] (runSteps_reaches _ steps directDriver initialState)

omit [UuidCrate] in
/-- A call before the first poll. -/
theorem direct_heeded :
    .cancelReturned ∈ (cancelledAfter 10).2.deeds ∧ NotLost (cancelledAfter 10).2 := by
  have hdeeds : (cancelledAfter 10).2.deeds
      = [.polled (sampleId 0) true, .cancelReturned, .tokenSet] := by
    decide +kernel
  obtain ⟨calls, hreach⟩ := cancelledAfter_reaches 10
  refine ⟨by rw [hdeeds]; simp,
    @cancellation_heeded hyphenatedUuid [] unixAbsolute direct direct_valid
      { serverId := "web-1".toList, dangerousConfirmed := true } _ _ _ hreach ?_⟩
  rw [hdeeds]
  exact heeded_of_not_mem (by simp) (by simp)

omit [UuidCrate] in
/-- A call after the last poll returns, and the run succeeds. -/
theorem direct_lost :
    (@validateWorkflow _ _ hyphenatedUuid [] unixAbsolute direct.draft).valid = true
      ∧ ∃ driver calls s, Relation.ReflTransGen (Among cancel.run)
          ((@run hyphenatedUuid [] unixAbsolute (some direct)
            { serverId := "web-1".toList, dangerousConfirmed := true }).run, [], initialState)
          (driver, calls, s)
        ∧ .cancelReturned ∈ s.deeds
        ∧ s.tables.run.map WorkflowRunRecord.status = some .succeeded
        ∧ ¬ NotLost s := by
  obtain ⟨calls, hreach⟩ := cancelledAfter_reaches 25
  have hreturned : .cancelReturned ∈ (cancelledAfter 25).2.deeds := by decide +kernel
  have hstatus : (cancelledAfter 25).2.tables.run.map WorkflowRunRecord.status
      = some .succeeded := by
    decide +kernel
  refine ⟨direct_valid, _, calls, _, hreach, hreturned, hstatus, fun hnot => ?_⟩
  obtain ⟨run, hrun, hsucceeded⟩ := Option.map_eq_some_iff.mp hstatus
  exact hnot.2 hreturned run hrun hsucceeded

end Calls

end QingzhouSSH.Services.WorkflowService
