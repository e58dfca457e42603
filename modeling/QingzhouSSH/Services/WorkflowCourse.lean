/-
  QingzhouSSH.Services.WorkflowCourse — the course of a run, and drivers that log it.

  A course is the run as it would go without interruption: every node is executed with
  what those before it have left, and its outcome says where to go on.  How many drives
  and attempts it took does not show in it.

  Main results:
    * `Course.unique` — an assignment of outcomes has one course;
    * `run_logged`, `retryFailedNode_logged` — the drivers with a log are the drivers.
-/
import QingzhouSSH.Services.WorkflowDrivers
import QingzhouSSH.Services.WorkflowSteps

namespace QingzhouSSH.Services.WorkflowService

open QingzhouSSH.Lib
open QingzhouSSH.Lib.Digraph (Walk)
open QingzhouSSH.Lib.Process
open QingzhouSSH.Domain
open QingzhouSSH.Core.Tasks
open QingzhouSSH.Core.Workflows
open QingzhouSSH.Repositories.WorkflowRepository

/-! ## §1. Courses. -/

/-- Where a run is, and what conditions can look at there. -/
structure Position where
  current : Uuid
  contexts : Contexts

/-- The first node of a run. -/
def Position.initial (start : Uuid) : Position := { current := start, contexts := fun _ => none }

/-- A node that has been executed: whether the token was found set before it, and what it
came to. -/
structure Executed where
  nodeId : Uuid
  contexts : Contexts
  cancelled : Bool
  outcome : StepOutcome

def Executed.position (step : Executed) : Position :=
  { current := step.nodeId, contexts := step.contexts }

/-- Where the run goes on after a node. -/
def Executed.onward (step : Executed) (next : Uuid) : Position :=
  { current := next, contexts := insertContext step.contexts step.nodeId step.outcome }

/-- What of an executed node the run goes on with. -/
def Executed.view (step : Executed) :
    Uuid × Contexts × Bool × WorkflowNodeStatus × ConditionContext × Option Bool :=
  (step.nodeId, step.contexts, step.cancelled, step.outcome.status, contextOf step.outcome,
    step.outcome.conditionResult)

section Courses

variable (definition : WorkflowDefinition)

/-- The outcome is what the token, the node itself or its adapter makes it. -/
structure Explained (step : Executed) : Prop where
  node : ∃ node ∈ definition.nodes, node.id = step.nodeId
    ∧ (step.cancelled = false → Came step.contexts node.config step.outcome)
  cancelled : step.cancelled = true → step.outcome = cancelledOutcome

/-- The run goes on from a node to the next. -/
structure Leads (step : Executed) (next : Uuid) : Prop where
  explained : Explained definition step
  succeeded : step.outcome.status = .succeeded
  next : nextNode definition.edges step.nodeId step.outcome.conditionResult = .ok (some next)

/-- Nodes that the run has passed. -/
inductive Passed : Position → List Executed → Position → Prop where
  | here (position : Position) : Passed position [] position
  | step {step : Executed} {next : Uuid} {rest : List Executed} {position : Position} :
      Leads definition step next → Passed (step.onward next) rest position →
      Passed step.position (step :: rest) position

/-- The nodes from a position to the end of the run. -/
inductive Course : Position → List Executed → Prop where
  | last {step : Executed} : Explained definition step →
      (step.outcome.status = .succeeded →
        nextNode definition.edges step.nodeId step.outcome.conditionResult = .ok none) →
      Course step.position [step]
  | step {step : Executed} {next : Uuid} {rest : List Executed} :
      Leads definition step next → Course (step.onward next) rest →
      Course step.position (step :: rest)

end Courses

variable {definition : WorkflowDefinition}

theorem Passed.append {p q r : Position} {steps rest : List Executed}
    (h : Passed definition p steps q) (hrest : Passed definition q rest r) :
    Passed definition p (steps ++ rest) r := by
  induction h with
  | here => exact hrest
  | step hleads _ ih => exact .step hleads (ih hrest)

theorem Passed.snoc {p : Position} {steps : List Executed} {step : Executed} {next : Uuid}
    (h : Passed definition p steps step.position) (hleads : Leads definition step next) :
    Passed definition p (steps ++ [step]) (step.onward next) :=
  h.append (.step hleads (.here _))

theorem Passed.course {p q : Position} {steps rest : List Executed}
    (h : Passed definition p steps q) (hrest : Course definition q rest) :
    Course definition p (steps ++ rest) := by
  induction h with
  | here => exact hrest
  | step hleads _ ih => exact .step hleads (ih hrest)

theorem Course.head {p : Position} {steps : List Executed} (h : Course definition p steps) :
    steps.head?.map Executed.nodeId = some p.current := by
  cases h with
  | last => rfl
  | step => rfl

/-- A result is known of the nodes that have been passed, and of those before. -/
theorem Passed.contexts {p q : Position} {steps : List Executed}
    (h : Passed definition p steps q) (id : Uuid) :
    (q.contexts id).isSome ↔ (p.contexts id).isSome ∨ id ∈ steps.map Executed.nodeId := by
  induction h with
  | here => simp
  | @step step next rest q hleads _ ih =>
      rw [ih, List.map_cons, List.mem_cons]
      show (insertContext step.contexts step.nodeId step.outcome id).isSome ∨ _ ↔ _
      unfold insertContext
      by_cases hid : id = step.nodeId
      · simp [hid]
      · rw [if_neg hid]
        simp [hid, Executed.position]

/-- What the last of the passed nodes with an identifier has left is there. -/
theorem Passed.left {p q : Position} {steps : List Executed} (h : Passed definition p steps q)
    (hnodup : (steps.map Executed.nodeId).Nodup) {step : Executed} (hstep : step ∈ steps) :
    q.contexts step.nodeId = some (contextOf step.outcome) := by
  -- later nodes have other identifiers
  have hkept : ∀ {p q : Position} {steps : List Executed}, Passed definition p steps q →
      ∀ id, id ∉ steps.map Executed.nodeId → q.contexts id = p.contexts id := by
    intro p q steps hpassed id
    induction hpassed with
    | here => exact fun _ => rfl
    | @step step next rest q hleads _ ih =>
        intro hid
        rw [List.map_cons, List.mem_cons, not_or] at hid
        rw [ih hid.2]
        show insertContext step.contexts step.nodeId step.outcome id = step.contexts id
        unfold insertContext
        rw [if_neg hid.1]
  induction h with
  | here => exact absurd hstep List.not_mem_nil
  | @step first next rest q hleads hrest ih =>
      rw [List.map_cons, List.nodup_cons] at hnodup
      rcases List.mem_cons.mp hstep with rfl | hstep
      · rw [hkept hrest _ hnodup.1]
        show insertContext step.contexts step.nodeId step.outcome step.nodeId = _
        unfold insertContext
        rw [if_pos rfl]
      · exact ih hnodup.2 hstep

theorem edge_of_nextNode {edges : List (WorkflowEdge Uuid)} {id next : Uuid}
    {result : Option Bool} (h : nextNode edges id result = .ok (some next)) :
    Edge edges id next := by
  rw [nextNode_eq] at h
  split at h
  · cases h
  · obtain ⟨edge, hhead, htarget⟩ := Option.map_eq_some_iff.mp (Except.ok.inj h)
    have hleaving := (List.mem_filter.mp (List.mem_of_head? hhead)).1
    obtain ⟨hedge, hsource⟩ := mem_outgoing.mp hleaving
    exact ⟨edge, hedge, hsource, htarget⟩

/-- The passed nodes lie on a walk. -/
theorem Passed.walk {p q : Position} {steps : List Executed} (h : Passed definition p steps q)
    {start : Uuid} {before : List Uuid} (hwalk : Walk (Edge definition.edges) start before p.current) :
    Walk (Edge definition.edges) start ((steps.map Executed.nodeId).reverse ++ before) q.current := by
  induction h generalizing before with
  | here => exact hwalk
  | step hleads _ ih =>
      have hnext := ih (hwalk.step (edge_of_nextNode hleads.next))
      rw [List.map_cons, List.reverse_cons, List.append_assoc]
      exact hnext

/-- No node of an accepted graph is passed twice, nor the one the run has come to. -/
theorem Passed.nodup (haccepted : AcceptedGraph definition.draft) {start : Uuid}
    (hstart : start ∈ definition.nodes.map WorkflowNode.id) {q : Position}
    {steps : List Executed} (h : Passed definition (.initial start) steps q) :
    (steps.map Executed.nodeId).Nodup ∧ q.current ∉ steps.map Executed.nodeId
      ∧ q.current ∈ definition.nodes.map WorkflowNode.id
      ∧ steps.length < definition.nodes.length := by
  have hwalk := h.walk (.here : Walk (Edge definition.edges) start [] start)
  rw [List.append_nil] at hwalk
  obtain ⟨order, hsorted, horder, hmem⟩ := haccepted.order
  have htargets : ∀ a b, Edge definition.edges a b → b ∈ order := by
    rintro a b ⟨edge, hedge, _, rfl⟩
    exact (hmem _).mpr (haccepted.known edge hedge).2
  obtain ⟨hfresh, hnodup⟩ := List.nodup_cons.mp (hsorted.nodup_walk horder htargets hwalk)
  have hlength := hsorted.length_walk horder htargets ((hmem start).mpr hstart) hwalk
  have hle := horder.length_le_of_subset fun x hx => (hmem x).mp hx
  rw [List.length_map] at hle
  rw [List.length_reverse, List.length_map] at hlength
  have hdraft : definition.draft.nodes.length = definition.nodes.length := rfl
  refine ⟨List.nodup_reverse.mp hnodup, fun hid => hfresh (List.mem_reverse.mpr hid),
    (hmem _).mp (hwalk.closed (· ∈ order) htargets ((hmem start).mpr hstart)).1, ?_⟩
  omega

/-! ## §2. The course of an assignment. -/

/-- An assignment of outcomes to nodes, and the nodes before which the run is cancelled. -/
structure Assignment where
  cancelled : Uuid → Bool
  outcome : Uuid → StepOutcome

/-- A node has come to what the assignment gives it, as far as the run goes on with it. -/
structure Agrees (definition : WorkflowDefinition) (assignment : Assignment) (step : Executed) :
    Prop where
  cancelled : step.cancelled = assignment.cancelled step.nodeId
  outcome : step.cancelled = false → ∀ node ∈ definition.nodes, node.id = step.nodeId →
    ownOutcome step.contexts node.config = none →
      step.outcome.status = (assignment.outcome step.nodeId).status
        ∧ contextOf step.outcome = contextOf (assignment.outcome step.nodeId)

/-- At the same position an assignment gives the same. -/
theorem Agrees.view {assignment : Assignment} {step step' : Executed}
    (hnodup : (definition.nodes.map WorkflowNode.id).Nodup)
    (hposition : step.position = step'.position)
    (hexplained : Explained definition step) (hexplained' : Explained definition step')
    (h : Agrees definition assignment step) (h' : Agrees definition assignment step') :
    step.view = step'.view := by
  obtain ⟨hid, hcontexts⟩ := Position.mk.inj hposition
  have hcancelled : step.cancelled = step'.cancelled := by
    rw [h.cancelled, h'.cancelled, hid]
  suffices hsame : step.outcome.status = step'.outcome.status
      ∧ contextOf step.outcome = contextOf step'.outcome
      ∧ step.outcome.conditionResult = step'.outcome.conditionResult by
    unfold Executed.view
    rw [hid, hcontexts, hcancelled, hsame.1, hsame.2.1, hsame.2.2]
  by_cases hset : step.cancelled = true
  · rw [hexplained.cancelled hset, hexplained'.cancelled (hcancelled ▸ hset)]
    exact ⟨rfl, rfl, rfl⟩
  · rw [Bool.not_eq_true] at hset
    obtain ⟨node, hnode, hnodeId, hcame⟩ := hexplained.node
    obtain ⟨node', hnode', hnodeId', hcame'⟩ := hexplained'.node
    have hsame : node = node' :=
      List.inj_on_of_nodup_map hnodup hnode hnode' (hnodeId.trans (hid.trans hnodeId'.symm))
    subst hsame
    have hcame := hcame hset
    have hcame' := hcame' (hcancelled ▸ hset)
    rw [← hcontexts] at hcame'
    cases hown : ownOutcome step.contexts node.config with
    | some given =>
        rw [hcame.own given hown, hcame'.own given hown]
        exact ⟨rfl, rfl, rfl⟩
    | none =>
        obtain ⟨hstatus, hleft⟩ := h.outcome hset node hnode hnodeId hown
        obtain ⟨hstatus', hleft'⟩ := h'.outcome (hcancelled ▸ hset) node hnode hnodeId'
          (hcontexts ▸ hown)
        rw [hid] at hstatus hleft
        exact ⟨hstatus.trans hstatus'.symm, hleft.trans hleft'.symm,
          (hcame.adapter hown).trans (hcame'.adapter hown).symm⟩

/-- **An assignment of outcomes has one course.** -/
theorem Course.unique {assignment : Assignment}
    (hnodup : (definition.nodes.map WorkflowNode.id).Nodup) {p p' : Position}
    {steps steps' : List Executed} (h : Course definition p steps)
    (h' : Course definition p' steps') (hsame : p = p')
    (hagrees : ∀ step ∈ steps, Agrees definition assignment step)
    (hagrees' : ∀ step ∈ steps', Agrees definition assignment step) :
    steps.map Executed.view = steps'.map Executed.view := by
  induction h generalizing p' steps' with
  | @last step hexplained hlast =>
      cases h' with
      | @last step' hexplained' hlast' =>
          exact congrArg (fun view => [view]) (Agrees.view hnodup hsame hexplained hexplained'
            (hagrees _ (by simp)) (hagrees' _ (by simp)))
      | @step step' next rest hleads hrest =>
          -- the one ends where the other goes on
          have hview := Agrees.view hnodup hsame hexplained hleads.explained
            (hagrees _ (by simp)) (hagrees' _ (by simp))
          simp only [Executed.view, Prod.mk.injEq] at hview
          obtain ⟨hid, _, _, hstatus, _, hresult⟩ := hview
          have hnone := hlast (hstatus.trans hleads.succeeded)
          rw [hid, hresult, hleads.next] at hnone
          cases hnone
  | @step step next rest hleads _ ih =>
      cases h' with
      | @last step' hexplained' hlast' =>
          have hview := Agrees.view hnodup hsame hleads.explained hexplained'
            (hagrees _ (by simp)) (hagrees' _ (by simp))
          simp only [Executed.view, Prod.mk.injEq] at hview
          obtain ⟨hid, _, _, hstatus, _, hresult⟩ := hview
          have hnone := hlast' (hstatus.symm.trans hleads.succeeded)
          rw [← hid, ← hresult, hleads.next] at hnone
          cases hnone
      | @step step' next' rest' hleads' hrest' =>
          have hview := Agrees.view hnodup hsame hleads.explained hleads'.explained
            (hagrees _ (by simp)) (hagrees' _ (by simp))
          have hparts := hview
          simp only [Executed.view, Prod.mk.injEq] at hparts
          obtain ⟨hid, hcontexts, _, _, hleft, hresult⟩ := hparts
          have hnext := hleads.next
          rw [hid, hresult, hleads'.next] at hnext
          have honward : step.onward next = step'.onward next' := by
            unfold Executed.onward insertContext
            rw [hid, hcontexts, hleft, Option.some.inj (Except.ok.inj hnext)]
          rw [List.map_cons, List.map_cons, hview]
          exact congrArg (step'.view :: ·) (ih hrest' honward
            (fun other hother => hagrees other (List.mem_cons_of_mem _ hother))
            fun other hother => hagrees' other (List.mem_cons_of_mem _ hother))

/-! ## §3. Drivers with a log. -/

/-- `turn`, with the node that it has executed. -/
def turnLogged (context : RunContext) (release : RunProcess Unit) (current : Uuid)
    (contexts : Contexts) (visited : List Uuid) : RunProcess (Executed × Turn) := do
  transact (setCurrentNode current)
  match context.definition.nodes.find? fun node => node.id == current with
  | none => throw (.validation "工作流节点不存在".toList)
  | some node => do
      let attempt ← transactAttempt (startNodeAttempt current)
      emit (.nodeStarted context.runId current attempt)
      let cancelled ← poll current
      let outcome ←
        if cancelled then pure cancelledOutcome
        else ExceptT.lift (bodyOf context node attempt contexts)
      linkExecution current attempt outcome.executionId
      transact (finishNode (finishOf current attempt outcome))
      emit (.nodeStatusChanged context.runId current attempt outcome.status outcome.executionId
        outcome.errorMessage)
      let turn ← conclude context release current contexts (current :: visited) outcome
      pure
        ({ nodeId := current, contexts := contexts, cancelled := cancelled, outcome := outcome },
          turn)

/-- `turns`, with the nodes in the order in which they are executed. -/
def turnsLogged (context : RunContext) (release : RunProcess Unit) :
    Nat → Uuid → Contexts → List Uuid → RunProcess (Option WorkflowRunDetails × List Executed)
  | 0, _, _, _ => pure (none, [])
  | fuel + 1, current, contexts, visited => do
      let (step, turn) ← turnLogged context release current contexts visited
      match turn with
      | .ended details => pure (some details, [step])
      | .goOn next contexts visited => do
          let (details, steps) ← turnsLogged context release fuel next contexts visited
          pure (details, step :: steps)

/-- A loop that a driver runs. -/
abbrev DriverLoop (α : Type) :=
  RunContext → RunProcess Unit → Nat → Uuid → Contexts → List Uuid → RunProcess α

section Drivers

variable [UuidCrate] (catalog : List TaskDefinition) (pathIsAbsolute : Text → Bool)
variable {α β : Type}

/-- `run`, with any loop. -/
def runWith (loop : DriverLoop α) (stored : Option WorkflowDefinition)
    (request : StartWorkflowRunRequest) : RunProcess α := do
  let definition ← preflight catalog pathIsAbsolute stored request
  match definition.nodes.find? isStart with
  | none => throw (.validation "工作流缺少开始节点".toList)
  | some start => do
      let runId ← drawId
      transact (createRun runId definition.id definition.version request.serverId)
      Process.update register
      transact (markRunRunning start.id)
      emit (.runStarted runId definition.id request.serverId)
      loop { definition := definition, runId := runId } removeRun definition.nodes.length
        start.id (fun _ => none) []

/-- `retry_failed_node`, with any loop. -/
def retryWith (loop : DriverLoop α) (stored : Option WorkflowDefinition)
    (dangerousConfirmed : Bool) : RunProcess α := do
  let details ← requireRun
  let current ← ofResult (retryableNode details)
  let definition ← preflight catalog pathIsAbsolute stored
    { serverId := details.run.serverId, dangerousConfirmed := dangerousConfirmed }
  transact resumePausedRun
  Process.update register
  emit (.runStatusChanged details.run.id .running (some "正在重试失败节点".toList))
  let result ← ExceptT.lift
    (loop { definition := definition, runId := details.run.id } (pure ())
      definition.nodes.length current (recordedContexts details.nodeRuns)
      (recordedNodes details.nodeRuns)).run
  removeRun
  ofResult result

/-- `run`, with the nodes that it executes. -/
def runLogged (stored : Option WorkflowDefinition) (request : StartWorkflowRunRequest) :
    RunProcess (Option WorkflowRunDetails × List Executed) :=
  runWith catalog pathIsAbsolute turnsLogged stored request

/-- `retry_failed_node`, with the nodes that it executes. -/
def retryLogged (stored : Option WorkflowDefinition) (dangerousConfirmed : Bool) :
    RunProcess (Option WorkflowRunDetails × List Executed) :=
  retryWith catalog pathIsAbsolute turnsLogged stored dangerousConfirmed

end Drivers

/-! ## §4. The log is only a log. -/

theorem turn_logged (context : RunContext) (release : RunProcess Unit) (current : Uuid)
    (contexts : Contexts) (visited : List Uuid) :
    turn context release current contexts visited
      = Prod.snd <$> turnLogged context release current contexts visited := by
  unfold turn turnLogged
  rw [map_bind]
  refine congrArg (transact (setCurrentNode current) >>= ·) (funext fun _ => ?_)
  cases context.definition.nodes.find? fun node => node.id == current with
  | none => rfl
  | some node => simp only [map_bind, apply_ite (Functor.map Prod.snd), map_pure, bind_pure]

theorem turns_logged (context : RunContext) (release : RunProcess Unit) (fuel : Nat)
    (current : Uuid) (contexts : Contexts) (visited : List Uuid) :
    turns context release fuel current contexts visited
      = Prod.fst <$> turnsLogged context release fuel current contexts visited := by
  induction fuel generalizing current contexts visited with
  | zero => rfl
  | succ fuel ih =>
      unfold turns turnsLogged
      rw [turn_logged, bind_map_left, map_bind]
      refine congrArg (turnLogged context release current contexts visited >>= ·)
        (funext fun logged => ?_)
      obtain ⟨step, turn⟩ := logged
      cases turn with
      | ended details => rfl
      | goOn next contexts visited =>
          dsimp only
          rw [ih, map_bind]
          exact map_eq_pure_bind _ _

section Drivers

variable [UuidCrate] {catalog : List TaskDefinition} {pathIsAbsolute : Text → Bool}
variable {α β : Type}

theorem runWith_map (f : α → β) (loop : DriverLoop α) (stored : Option WorkflowDefinition)
    (request : StartWorkflowRunRequest) :
    f <$> runWith catalog pathIsAbsolute loop stored request
      = runWith catalog pathIsAbsolute
          (fun context release fuel current contexts visited =>
            f <$> loop context release fuel current contexts visited) stored request := by
  unfold runWith
  rw [map_bind]
  refine congrArg (preflight catalog pathIsAbsolute stored request >>= ·)
    (funext fun definition => ?_)
  cases definition.nodes.find? isStart with
  | none => rfl
  | some start => simp only [map_bind]

theorem retryWith_map (f : α → β) (loop : DriverLoop α) (stored : Option WorkflowDefinition)
    (dangerousConfirmed : Bool) :
    f <$> retryWith catalog pathIsAbsolute loop stored dangerousConfirmed
      = retryWith catalog pathIsAbsolute
          (fun context release fuel current contexts visited =>
            f <$> loop context release fuel current contexts visited) stored
          dangerousConfirmed := by
  -- the result of the loop is mapped before the run is removed, or after
  have hloop : ∀ p : RunProcess α,
      (ExceptT.lift p.run >>= fun result => removeRun >>= fun _ => f <$> ofResult result)
        = ExceptT.lift (f <$> p).run >>= fun result => removeRun >>= fun _ => ofResult result := by
    intro p
    have hresult : ∀ result : AppResult α,
        f <$> (ofResult result : RunProcess α) = ofResult (Except.map f result) := by
      intro result
      cases result <;> rfl
    have hlift : (ExceptT.lift (f <$> p).run : RunProcess (AppResult β))
        = Except.map f <$> ExceptT.lift p.run := by
      apply ExceptT.ext
      rw [ExceptT.run_map, ExceptT.run_lift, ExceptT.run_map, ExceptT.run_lift, Functor.map_map,
        Functor.map_map]
      rfl
    rw [hlift, bind_map_left]
    simp only [hresult]
  unfold retryWith
  simp only [map_bind, hloop]

/-- **`run` is the driver with a log, without its log.** -/
theorem run_logged (stored : Option WorkflowDefinition) (request : StartWorkflowRunRequest) :
    run catalog pathIsAbsolute stored request
      = Prod.fst <$> runLogged catalog pathIsAbsolute stored request := by
  unfold runLogged
  rw [runWith_map]
  show runWith catalog pathIsAbsolute turns stored request = _
  refine congrArg (runWith catalog pathIsAbsolute · stored request) ?_
  funext context release fuel current contexts visited
  exact turns_logged context release fuel current contexts visited

/-- **`retry_failed_node` is the driver with a log, without its log.** -/
theorem retryFailedNode_logged (stored : Option WorkflowDefinition) (dangerousConfirmed : Bool) :
    retryFailedNode catalog pathIsAbsolute stored dangerousConfirmed
      = Prod.fst <$> retryLogged catalog pathIsAbsolute stored dangerousConfirmed := by
  unfold retryLogged
  rw [retryWith_map]
  show retryWith catalog pathIsAbsolute turns stored dangerousConfirmed = _
  refine congrArg (retryWith catalog pathIsAbsolute · stored dangerousConfirmed) ?_
  funext context release fuel current contexts visited
  exact turns_logged context release fuel current contexts visited

end Drivers

end QingzhouSSH.Services.WorkflowService
