import ContentGenerator.Workflows.Compiler
import ContentGenerator.Workflows.Inputs
import ContentGenerator.Workflows.OpSteps

/-!
# The outcome of an execution

What an execution of a claimed row should leave behind is `RecordsOutcome`: the function returns, one
more attempt is counted, and the row is finished or paused with an output its schema accepts, failed,
or scheduled for a retry the policy grants.

With the names the module binds, no execution gets that far: every attempt begins by reading
`datetime`, which is not bound, and the `NameError` leaves the function
(`executeReadyNode_raises`, `not_recordsOutcome`). With the three missing names bound, every
behaviour of the node has a verdict (`judgeNode_repaired`).
-/

namespace ContentGenerator.Workflows

open Lib

/-! ### The property -/

/-- What the row may be after an attempt of `impl` that began on a row with `attempt` attempts. -/
def AttemptRecorded (impl : NodeImpl) (attempt : ℕ) (row : NodeRun) : Prop :=
  row.attempt = attempt + 1 ∧
    (((row.status = .succeeded ∨ row.status = .skipped ∨ row.status = .waiting) ∧
        ∃ raw, impl.validateOutput raw = .ok row.outputJson) ∨
      row.status = .failed ∨
      (row.status = .ready ∧ row.nextAttemptAt.isSome ∧ row.attempt < impl.retryPolicy.maxAttempts ∧
        ∃ errorClass, row.errorClass = some errorClass ∧
          shouldRetry errorClass row.attempt impl.retryPolicy))

/-- The execution returns and its attempt is recorded on the row. -/
def RecordsOutcome (env : EngineEnv) (now : Time) (args : ExecuteArgs) (graphNode : GraphNode)
    (impl : NodeImpl) (before : Executed) (initialInputs : JsonObject) : Prop :=
  ∃ after, executeReadyNode env now args graphNode before initialInputs = .ok after ∧
    ∃ row row', before.state.nodes.find args.row = some row ∧
      after.state.nodes.find args.row = some row' ∧ AttemptRecorded impl row.attempt row'

/-! ### With the names the module binds -/

variable {env : EngineEnv} {row : NodeRun} {graphNode : GraphNode} {impl : NodeImpl}

theorem loadGlobals_attemptNames (hglobals : env.globals = sourceGlobals) :
    env.loadGlobals attemptNames =
      .error { className := "NameError", message := "name 'datetime' is not defined" } := by
  unfold EngineEnv.loadGlobals
  rw [hglobals]
  rfl

/-- A claimed row is past the early return of `execute_ready_node`. -/
theorem not_returnsEarly (hclaimed : row.status.isClaimed) :
    ¬ (row.status = .succeeded ∨ row.status = .skipped ∨ row.status = .waiting) := by
  revert hclaimed
  cases row.status <;> decide

/-- Every execution of a claimed row raises, whatever the node would do. -/
theorem executeReadyNode_raises (hglobals : env.globals = sourceGlobals)
    (now : Time) (args : ExecuteArgs) (graphNode : GraphNode) (before : Executed)
    (initialInputs : JsonObject)
    (hrow : before.state.nodes.find args.row = some row) (hclaimed : row.status.isClaimed) :
    ∃ exc, executeReadyNode env now args graphNode before initialInputs = .error exc := by
  unfold executeReadyNode settleReadyNode
  simp only [hrow]
  rw [if_neg (not_returnsEarly hclaimed)]
  cases hprepared : prepareInputs env before.state.run before.state.nodes graphNode args.row row
      before.nodeOutputs initialInputs with
  | error exc => exact ⟨exc, rfl⟩
  | ok prepared =>
    refine ⟨{ className := "NameError", message := "name 'datetime' is not defined" }, ?_⟩
    show Except.map _ (Except.bind (Except.ok prepared) _) = _
    simp only [Except.bind, loadGlobals_attemptNames hglobals, bind, Except.map]

/-- No execution of a claimed row records an outcome.
Assumes: the environment binds the names the module binds, the row is claimed, and its type is
registered. -/
theorem not_recordsOutcome {env : EngineEnv} (hglobals : env.globals = sourceGlobals) (now : Time)
    (args : ExecuteArgs) (graphNode : GraphNode) (impl : NodeImpl)
    (_himpl : env.registry.get graphNode.type graphNode.version = some impl) (before : Executed)
    (initialInputs : JsonObject) {row : NodeRun}
    (hrow : before.state.nodes.find args.row = some row) (hclaimed : row.status.isClaimed) :
    ¬ RecordsOutcome env now args graphNode impl before initialInputs := by
  rintro ⟨after, hafter, -⟩
  obtain ⟨exc, hexc⟩ := executeReadyNode_raises hglobals now args graphNode before initialInputs
    hrow hclaimed
  rw [hexc] at hafter
  simp at hafter

def triggerNode : GraphNode := { id := "t", type := "manual_trigger" }

def triggerGraph : WorkflowGraph := { nodes := [triggerNode], edges := [] }

def triggerClaimed (globals : List String) : Executed where
  state := startRun (catalogueEnv triggerGraph globals) 0 .inline [] []
  nodeOutputs := []

def triggerArgs : ExecuteArgs where
  row := ⟨"t", ""⟩
  outcome := .ok
    { status := .succeeded
      output := [("payload", .obj []), ("trigger_type", .str "manual_trigger")] }

/-- The trigger of a started run is claimed, its type is registered, and its execution records
nothing. -/
theorem not_recordsOutcome_trigger :
    ∃ impl row, catalogue.get "manual_trigger" 1 = some impl ∧
      (triggerClaimed sourceGlobals).state.nodes.find ⟨"t", ""⟩ = some row ∧
      row.status = .queued ∧
      ¬ RecordsOutcome (catalogueEnv triggerGraph sourceGlobals) 1 triggerArgs
        triggerNode impl (triggerClaimed sourceGlobals) [] :=
  ⟨_, _, rfl, rfl, rfl, not_recordsOutcome rfl 1 triggerArgs triggerNode _ rfl
    (triggerClaimed sourceGlobals) [] rfl rfl⟩

/-- The execution of a trigger whose implementation succeeds leaves the function with a
`NameError`. -/
theorem trigger_raises_nameError :
    graphValid catalogue (fun _ ↦ []) triggerGraph {} ∧
      ((triggerClaimed sourceGlobals).state.nodes.find ⟨"t", ""⟩).map NodeRun.status =
        some .queued ∧
      ∀ impl, ¬ RecordsOutcome (catalogueEnv triggerGraph sourceGlobals) 1
        triggerArgs triggerNode impl (triggerClaimed sourceGlobals) [] := by
  refine ⟨by decide +kernel, by decide +kernel, ?_⟩
  rintro impl ⟨after, hafter, -⟩
  have hraises : executeReadyNode (catalogueEnv triggerGraph sourceGlobals) 1
      triggerArgs triggerNode (triggerClaimed sourceGlobals) [] =
      .error { className := "NameError", message := "name 'datetime' is not defined" } := rfl
  rw [hraises] at hafter
  simp at hafter

/-! ### With the missing names bound -/

theorem loadGlobals_repaired (hglobals : env.globals = repairedGlobals)
    (names : List String) (hnames : ∀ name ∈ names, name ∈ repairedGlobals) :
    env.loadGlobals names = .ok () := by
  unfold EngineEnv.loadGlobals
  rw [hglobals, List.find?_eq_none.mpr fun name hname ↦ by simpa using hnames name hname]

/-- The `try` block with its handlers raises nothing: every behaviour of the node has a verdict. -/
theorem judgeNode_repaired (hglobals : env.globals = repairedGlobals) (run : Run)
    (graphNode : GraphNode) (prepared : Prepared) (outcome : Except PyException NodeResult) :
    ∃ verdict, judgeNode env run graphNode prepared outcome = .ok verdict := by
  have hload : env.loadGlobals ["_persist_failure"] = .ok () :=
    loadGlobals_repaired hglobals _ (by decide)
  unfold judgeNode
  split
  · exact ⟨_, rfl⟩
  · exact ⟨_, rfl⟩
  · split_ifs
    · exact ⟨_, rfl⟩
    · split
      · exact ⟨_, rfl⟩
      · rw [hload]
        exact ⟨_, rfl⟩

end ContentGenerator.Workflows
