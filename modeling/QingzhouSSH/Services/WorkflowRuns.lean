/-
  QingzhouSSH.Services.WorkflowRuns — what holds of every run of an accepted workflow.

  Main results:
    * `conditions_sourced_iff` — when no condition is reached without its source;
    * `run_ends` — when every run comes to an end;
    * `drives_settle` — when no driver leaves a run behind that is still running.
-/
import QingzhouSSH.Services.WorkflowDrivers

namespace QingzhouSSH.Services.WorkflowService

open String (utf8Len)
open QingzhouSSH.Lib
open QingzhouSSH.Lib.Digraph (Walk)
open QingzhouSSH.Lib.Process
open QingzhouSSH.Domain
open QingzhouSSH.Core.Tasks
open QingzhouSSH.Core.Workflows

/-! ## §1. Examples of workflows. -/

/-- `Path::is_absolute` on a Unix client. -/
def unixAbsolute (path : Text) : Bool := ['/'].isPrefixOf path

/-- Identifiers that differ in the last digit. -/
def sampleId (n : Fin 10) : Uuid where
  text := "00000000-0000-4000-8000-00000000000".toList ++ [Nat.digitChar n]
  hyphenated := Domain.hyphenated_digit n

def sampleNode (n : Fin 10) (config : WorkflowNodeConfig Uuid) : WorkflowNode Uuid :=
  { id := sampleId n, name := ['x'], position := { x := .finite 0, y := .finite 0 },
    config := config }

/-- A command, and a condition on its result. -/
def straight : WorkflowDefinition where
  id := sampleId 9
  version := 1
  nodes :=
    [sampleNode 0 .start, sampleNode 1 (.custom .command "true".toList 30),
     sampleNode 2 (.condition (sampleId 1) (.exitCode .equal 0)),
     sampleNode 3 (.stop "end".toList), sampleNode 4 (.stop "end".toList)]
  edges :=
    [⟨sampleId 0, sampleId 1, .success⟩, ⟨sampleId 1, sampleId 2, .success⟩,
     ⟨sampleId 2, sampleId 3, .true⟩, ⟨sampleId 2, sampleId 4, .false⟩]

theorem straight_valid :
    (@validateWorkflow _ _ hyphenatedUuid [] unixAbsolute straight.draft).valid = true
      ∧ startNodeId straight.draft = some (sampleId 0) := by
  decide

/-- The second condition is also reached past its source. -/
def bypassed : WorkflowDefinition where
  id := sampleId 9
  version := 1
  nodes :=
    [sampleNode 0 .start,
     sampleNode 1 (.condition (sampleId 0) (.exitCode .notEqual 0)),
     sampleNode 2 (.custom .command "true".toList 30),
     sampleNode 3 (.condition (sampleId 2) (.exitCode .equal 0)),
     sampleNode 4 (.stop "end".toList), sampleNode 5 (.stop "end".toList)]
  edges :=
    [⟨sampleId 0, sampleId 1, .success⟩, ⟨sampleId 1, sampleId 2, .true⟩,
     ⟨sampleId 1, sampleId 3, .false⟩, ⟨sampleId 2, sampleId 3, .success⟩,
     ⟨sampleId 3, sampleId 4, .true⟩, ⟨sampleId 3, sampleId 5, .false⟩]

/-- What the world answers when every command gives this. -/
def sampleAnswer (outcome : AppResult NodeOutcome) : (question : RunQuestion) → RunAnswer question
  | .requireTrustedServer serverId =>
      if utf8Len (defaultRedactor.redact serverId) ≤ 500 then .ok () else .error .cancelled
  | .connect _ => .ok ()
  | .drawId => sampleId 8
  | .deliver _ _ => .ok ()
  | .childEvents _ _ _ => []
  | .execute _ _ _ _ => outcome
  | .capture _ _ _ _ => .error .cancelled
  | .duration => ⟨0, by decide⟩
  | .cancelExecution _ => .ok ()

/-- A path of control characters, each of which is six bytes long in JSON. -/
def longPath : Text := '/' :: List.replicate 5460 (Char.ofNat 1)

/-- An upload to that path. -/
def spilling : WorkflowDefinition where
  id := sampleId 9
  version := 1
  nodes :=
    [sampleNode 0 .start, sampleNode 1 (.upload "/tmp/a".toList longPath false false),
     sampleNode 2 (.stop "end".toList)]
  edges := [⟨sampleId 0, sampleId 1, .success⟩, ⟨sampleId 1, sampleId 2, .success⟩]

theorem spilling_valid :
    (@validateWorkflow _ _ hyphenatedUuid [] unixAbsolute spilling.draft).valid = true := by
  decide +kernel

/-- What a successful upload to that path gives: its result repeats the path. -/
def overlong : NodeOutcome :=
  { executionId := sampleId 7, status := .succeeded, exitCode := none,
    result := some (objectValue
      [("bytes", natValue 1), ("file", .null), ("location", .string longPath),
       ("pipelineMaxBufferedBytes", natValue 0), ("pipelineMaxInFlight", natValue 0),
       ("remoteHashCompared", .bool false), ("sha256", .string (List.replicate 64 '0')),
       ("verificationLevel", .string "transport_and_size".toList)]),
    outputSummary := none, errorCategory := none, errorMessage := none, retryable := false }

/-- Where a run of this workflow comes to by itself. -/
def sampleRun (definition : WorkflowDefinition) (outcome : AppResult NodeOutcome) :
    Except AppError (Option WorkflowRunDetails) × RunState :=
  Process.run (fun _ => sampleAnswer outcome) 0
    (@run hyphenatedUuid [] unixAbsolute (some definition)
      { serverId := "web-1".toList, dangerousConfirmed := true }).run
    initialState

variable [UuidCrate] {catalog : List TaskDefinition} {pathIsAbsolute : Text → Bool}
variable {definition : WorkflowDefinition} {start : Uuid}

/-! ## §2. Conditions and their sources. -/

/-- Every condition that has been reached finds the result of its source. -/
def ConditionsSourced (definition : WorkflowDefinition) (rows : List WorkflowNodeRun) : Prop :=
  ∀ row ∈ rows, row.status ≠ .skipped → ∀ node ∈ definition.nodes, node.id = row.nodeId →
    ∀ source predicate, node.config = .condition source predicate →
      (∃ own, latestNodeRun rows source = some own ∧ own.status = .succeeded)
        ∧ row.errorMessage ≠ some missingSource

omit [UuidCrate] in
theorem Sound.conditionsSourced {before rows : List WorkflowNodeRun}
    (h : Sound definition start before rows) (hdominated : Dominated definition start) :
    ConditionsSourced definition rows := by
  intro row hrow hstatus node hnode hid source predicate hconfig
  refine ⟨?_, h.noMissing hdominated row hrow node hnode hid source predicate hconfig⟩
  -- the source was left on the way to the condition
  obtain ⟨left, current, hwalk⟩ := h.onWalk
  obtain ⟨earlier, hearlier, hsub⟩ := hwalk.walk.upTo (hwalk.visited row hrow hstatus)
  have hsource := hdominated node hnode source predicate hconfig earlier (hid ▸ hearlier)
  exact hwalk.succeeded source (hsub source hsource)

/-- **Conditions have their sources in every run, and by the paths of the graph, exactly
when no condition can be reached once the edges that leave its source are gone.** -/
theorem conditions_sourced_iff
    (hvalid : (validateWorkflow catalog pathIsAbsolute definition.draft).valid = true)
    (hstart : startNodeId definition.draft = some start) :
    ((∀ s, Reached definition catalog pathIsAbsolute (fun _ _ => True) (fun _ => True) s →
        ConditionsSourced definition s.tables.nodeRuns) ∧ Dominated definition start)
      ↔ ∀ node ∈ definition.nodes, ∀ source predicate, node.config = .condition source predicate →
          node.id ∉ reachableFrom start
            (definition.edges.filter fun edge => edge.source != source) := by
  have hgraph : Dominated definition start ↔ ∀ node ∈ definition.nodes, ∀ source predicate,
      node.config = .condition source predicate →
        node.id ∉ reachableFrom start
          (definition.edges.filter fun edge => edge.source != source) :=
    forall_congr' fun node => imp_congr_right fun _ => forall_congr' fun source =>
      forall_congr' fun predicate => imp_congr_right fun _ => mem_every_walk_iff_reachableFrom
  rw [← hgraph]
  constructor
  · exact fun h => h.2
  · intro hdominated
    refine ⟨fun s hs => ?_, hdominated⟩
    obtain ⟨before, hsound⟩ := hs.sound (acceptedGraph_of_valid hvalid) hstart
    exact hsound.conditionsSourced hdominated

omit [UuidCrate] in
theorem straight_sourced :
    (∀ s, @Reached straight hyphenatedUuid [] unixAbsolute (fun _ _ => True) (fun _ => True) s →
        ConditionsSourced straight s.tables.nodeRuns) ∧ Dominated straight (sampleId 0) := by
  refine (@conditions_sourced_iff hyphenatedUuid [] unixAbsolute straight (sampleId 0)
    straight_valid.1 straight_valid.2).mpr ?_
  intro node hnode source predicate hconfig
  simp only [straight, List.mem_cons, List.not_mem_nil, or_false] at hnode
  rcases hnode with rfl | rfl | rfl | rfl | rfl <;> cases hconfig
  decide

omit [UuidCrate] in
/-- An accepted workflow runs into a condition whose source was on the other branch. -/
theorem bypassed_unsourced :
    (@validateWorkflow _ _ hyphenatedUuid [] unixAbsolute bypassed.draft).valid = true
      ∧ ∃ s, @Reached bypassed hyphenatedUuid [] unixAbsolute (fun _ _ => True) (fun _ => True) s
        ∧ ¬ ConditionsSourced bypassed s.tables.nodeRuns := by
  refine ⟨by decide, (sampleRun bypassed (.error .cancelled)).2, ?_, fun hsourced => ?_⟩
  · exact @Reached.run _ hyphenatedUuid _ _ _ _
      { serverId := "web-1".toList, dangerousConfirmed := true } _ _
      (run_reachesIn (fun _ _ => trivial) 0 _ _)
  · have hrow : ∃ row ∈ (sampleRun bypassed (.error .cancelled)).2.tables.nodeRuns,
        row.status = .failed ∧ row.nodeId = sampleId 3 ∧ row.errorMessage = some missingSource := by
      decide +kernel
    obtain ⟨row, hrow, hstatus, hid, hmessage⟩ := hrow
    have hcondition := hsourced row hrow (by rw [hstatus]; decide)
      (sampleNode 3 (.condition (sampleId 2) (.exitCode .equal 0))) (by simp [bypassed]) hid.symm
      (sampleId 2) (.exitCode .equal 0) rfl
    exact hcondition.2 hmessage

/-! ## §3. The end of a run. -/

omit [UuidCrate] in
/-- No node is visited twice, and none that the workflow does not have. -/
theorem Sound.executed_le (haccepted : AcceptedGraph definition.draft)
    (hstart : startNodeId definition.draft = some start) {rows : List WorkflowNodeRun}
    (h : Sound definition start [] rows) :
    (executed rows).Nodup ∧ (executed rows).length ≤ definition.nodes.length := by
  obtain ⟨new, hnew, hnodup⟩ := h.once
  rw [List.nil_append] at hnew
  rw [hnew]
  refine ⟨hnodup, ?_⟩
  obtain ⟨left, current, hwalk⟩ := h.onWalk
  obtain ⟨hcurrent, hleft⟩ := hwalk.walk.closed (· ∈ definition.nodes.map WorkflowNode.id)
    (by rintro a b ⟨edge, hedge, _, rfl⟩; exact (haccepted.known edge hedge).2) (start_mem hstart).1
  have hle := hnodup.length_le_of_subset fun id hid => by
    obtain ⟨row, hrow, heq⟩ := List.mem_map.mp hid
    obtain ⟨hmem, hstatus⟩ := List.mem_filter.mp hrow
    rcases List.mem_cons.mp (hwalk.visited row (hnew ▸ hmem) (bne_iff_ne.mp hstatus))
      with hat | hat
    · exact heq ▸ hat ▸ hcurrent
    · exact heq ▸ hleft _ hat
  rw [List.length_map] at hle
  exact hle

omit [UuidCrate] in
/-- A condition has one edge for each of its results. -/
theorem condition_edge (haccepted : AcceptedGraph definition.draft) {node : WorkflowNode Uuid}
    (hnode : node ∈ definition.nodes) {source : Uuid} {predicate : WorkflowCondition}
    (hconfig : node.config = .condition source predicate) (result : Bool) :
    (definition.edges.filter fun edge =>
      edge.source == node.id && edge.branch == branchOf (some result)).length = 1 := by
  have hbranching := haccepted.branching node hnode
  unfold Branching at hbranching
  rw [hconfig] at hbranching
  rw [filter_branch]
  cases result with
  | true => exact hbranching.1
  | false => exact hbranching.2.1

/-- **A run visits every node at most once and always finds the next one.  When events are
delivered and what the nodes answer can be recorded, it comes to its end.** -/
theorem run_ends
    (hvalid : (validateWorkflow catalog pathIsAbsolute definition.draft).valid = true)
    (hstart : startNodeId definition.draft = some start) (request : StartWorkflowRunRequest) :
    (∀ p s, ReachesIn Cancels (fun _ _ => True)
        ((run catalog pathIsAbsolute (some definition) request).run, initialState) (p, s) →
      (executed s.tables.nodeRuns).Nodup
        ∧ (executed s.tables.nodeRuns).length ≤ definition.nodes.length
        ∧ p ≠ done (.ok none))
    ∧ (∀ node ∈ definition.nodes, ∀ result : Option Bool,
        (result.isSome ↔ ∃ source predicate, node.config = .condition source predicate) →
        (∃ next ∈ definition.nodes.map WorkflowNode.id,
            nextNode definition.edges node.id result = .ok (some next))
          ∨ nextNode definition.edges node.id result = .ok none
            ∧ outgoing definition.edges node.id = [])
    ∧ (∀ node ∈ definition.nodes, ∀ source predicate,
        node.config = .condition source predicate → ∀ result,
        (definition.edges.filter fun edge =>
          edge.source == node.id && edge.branch == branchOf (some result)).length = 1)
    ∧ ∀ result s, ReachesIn Cancels Answered
        ((run catalog pathIsAbsolute (some definition) request).run, initialState)
        (done result, s) →
      s.tables.run = none ∧ s.tables.nodeRuns = []
        ∨ ∃ details here current run, result = .ok (some details) ∧ s.tables.run = some run
          ∧ Ended definition start [] here [] current details run s.tables.nodeRuns := by
  have haccepted := acceptedGraph_of_valid hvalid
  refine ⟨fun p s hreach => ?_, fun node hnode result hresult => ?_,
    fun node hnode source predicate hconfig => condition_edge haccepted hnode hconfig,
    fun result s hreach => ?_⟩
  · obtain ⟨hsound, _, hfuel⟩ := run_reaches_of_valid haccepted hstart
      (False.elim : False → _) request hreach
    obtain ⟨hnodup, hle⟩ := hsound.executed_le haccepted hstart
    exact ⟨hnodup, hle, hfuel⟩
  · rcases nextNode_spec haccepted hnode hresult with ⟨next, hnext, edge, hedge, _, rfl⟩ | hlast
    · exact Or.inl ⟨edge.target, (haccepted.known edge hedge).2, hnext⟩
    · exact Or.inr hlast
  · obtain ⟨_, hend, _⟩ := run_reaches_of_valid haccepted hstart (fun _ _ _ h => h : True → _)
      request hreach
    rcases hend result rfl trivial with ⟨_, hrun, hrows⟩
      | ⟨_, details, here, current, run, hresult, hrun, hended⟩
    · exact Or.inl ⟨hrun, hrows⟩
    · exact Or.inr ⟨details, here, current, run, hresult, hrun, hended⟩

omit [UuidCrate] in
/-- The answers that a short failure of every command goes with. -/
theorem sampleAnswer_answered (question : RunQuestion) :
    Answered question (sampleAnswer (.error .cancelled) question) := by
  cases question with
  | requireTrustedServer serverId =>
      intro hok runId workflowId
      have hif : (if utf8Len (defaultRedactor.redact serverId) ≤ 500 then .ok ()
          else .error .cancelled : AppResult Unit) = .ok () := hok
      by_cases hshort : utf8Len (defaultRedactor.redact serverId) ≤ 500
      · exact WorkflowEventPayload.fits_of_short hshort
      · rw [if_neg hshort] at hif
        cases hif
  | execute runId nodeId attempt config => exact recordable_fixed (by simp [fixedErrors])
  | capture runId nodeId attempt remotePath =>
      intro e he
      cases he
      exact recordable_fixed (by simp [fixedErrors])
  | deliver sequence payload => rfl
  | connect _ => trivial
  | drawId => trivial
  | childEvents _ _ _ => trivial
  | duration => trivial
  | cancelExecution _ => trivial

omit [UuidCrate] in
theorem straight_ends :
    (sampleRun straight (.error .cancelled)).2.tables.run.map WorkflowRunRecord.status
        = some .paused
      ∧ ((sampleRun straight (.error .cancelled)).2.tables.run = none
          ∧ (sampleRun straight (.error .cancelled)).2.tables.nodeRuns = []
        ∨ ∃ details here current run, (sampleRun straight (.error .cancelled)).1 = .ok (some details)
          ∧ (sampleRun straight (.error .cancelled)).2.tables.run = some run
          ∧ Ended straight (sampleId 0) [] here [] current details run
              (sampleRun straight (.error .cancelled)).2.tables.nodeRuns) :=
  ⟨by decide +kernel,
    (@run_ends hyphenatedUuid [] unixAbsolute straight (sampleId 0) straight_valid.1
      straight_valid.2 { serverId := "web-1".toList, dangerousConfirmed := true }).2.2.2 _ _
      (run_reachesIn (fun _ => sampleAnswer_answered) 0 _ _)⟩

omit [UuidCrate] in
/-- What is left of a run with an overlong result. -/
theorem overlong_run :
    let reached := sampleRun spilling (.ok overlong)
    reached.1.isOk = false
      ∧ reached.2.tables.nodeRuns.map (fun row => (row.nodeId, row.status))
        = [(sampleId 0, .succeeded), (sampleId 1, .running)]
      ∧ reached.2.active.isSome = true
      ∧ reached.2.tables.run.map WorkflowRunRecord.status = some .running := by
  decide +kernel

omit [UuidCrate] in
theorem overlong_reaches :
    ∃ e, ReachesIn Cancels (fun _ _ => True)
      ((@run hyphenatedUuid [] unixAbsolute (some spilling)
        { serverId := "web-1".toList, dangerousConfirmed := true }).run, initialState)
      (done (.error e), (sampleRun spilling (.ok overlong)).2) := by
  cases hresult : (sampleRun spilling (.ok overlong)).1 with
  | ok details =>
      have herror := overlong_run.1
      rw [hresult] at herror
      cases herror
  | error e =>
      refine ⟨e, ?_⟩
      rw [← hresult]
      exact run_reachesIn (fun _ _ => trivial) 0 _ _

omit [UuidCrate] in
/-- A result that is too long stops the driver at a node that has a successor. -/
theorem overlong_unfinished :
    (@validateWorkflow _ _ hyphenatedUuid [] unixAbsolute spilling.draft).valid = true
      ∧ ∃ e s, ReachesIn Cancels (fun _ _ => True)
          ((@run hyphenatedUuid [] unixAbsolute (some spilling)
            { serverId := "web-1".toList, dangerousConfirmed := true }).run, initialState)
          (done (.error e), s)
        ∧ s.tables.nodeRuns.map (fun row => (row.nodeId, row.status))
          = [(sampleId 0, .succeeded), (sampleId 1, .running)]
        ∧ outgoing spilling.edges (sampleId 1) ≠ [] := by
  obtain ⟨e, hreach⟩ := overlong_reaches
  exact ⟨spilling_valid, e, _, hreach, overlong_run.2.1, by decide⟩

/-! ## §4. No run is left behind. -/

/-- The attempts of all nodes can still be counted. -/
def Counted (s : RunState) : Prop := ∀ row ∈ s.tables.nodeRuns, row.attempt + 1 < 2 ^ 31

/-- **When a driver returns, the run is not registered and not running**, if events are
delivered, and what the nodes answer can be recorded. -/
theorem drives_settle
    (hvalid : (validateWorkflow catalog pathIsAbsolute definition.draft).valid = true)
    (hstart : startNodeId definition.draft = some start)
    {result : Except AppError (Option WorkflowRunDetails)} {s : RunState}
    (h : Returned definition catalog pathIsAbsolute Answered Counted result s) :
    s.active = none ∧ ∀ run, s.tables.run = some run → run.status ≠ .running :=
  (h.spec (acceptedGraph_of_valid hvalid) hstart (fun _ _ _ h => h : True → _)
    (fun _ _ hcounted => hcounted)).2 trivial

omit [UuidCrate] in
theorem straight_settles :
    (sampleRun straight (.error .cancelled)).2.active = none
      ∧ ∀ run, (sampleRun straight (.error .cancelled)).2.tables.run = some run →
        run.status ≠ .running :=
  @drives_settle hyphenatedUuid [] unixAbsolute straight (sampleId 0) straight_valid.1
    straight_valid.2 _ _
    (@Returned.run _ hyphenatedUuid _ _ _ _
      { serverId := "web-1".toList, dangerousConfirmed := true } _ _
      (run_reachesIn (fun _ => sampleAnswer_answered) 0 _ _))

omit [UuidCrate] in
/-- A result that is too long leaves the run registered and running. -/
theorem overlong_left_running :
    (@validateWorkflow _ _ hyphenatedUuid [] unixAbsolute spilling.draft).valid = true
      ∧ ∃ e s, ReachesIn Cancels (fun _ _ => True)
          ((@run hyphenatedUuid [] unixAbsolute (some spilling)
            { serverId := "web-1".toList, dangerousConfirmed := true }).run, initialState)
          (done (.error e), s)
        ∧ s.active.isSome = true ∧ s.tables.run.map WorkflowRunRecord.status = some .running := by
  obtain ⟨e, hreach⟩ := overlong_reaches
  exact ⟨spilling_valid, e, _, hreach, overlong_run.2.2⟩

end QingzhouSSH.Services.WorkflowService
