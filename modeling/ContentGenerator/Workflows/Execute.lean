import ContentGenerator.Workflows.Claiming
import ContentGenerator.Workflows.Fanout

/-!
# Executing one node

`execute_ready_node` (`engine_execute.py`) on a claimed row. What the node implementation does is an
argument: the outcome of `execute` is an exception or a result with any status and output. The
function reads its helpers from the namespace of its module: `sourceGlobals` lists the names bound there,
without `datetime`, `timezone` and `_persist_failure`, which it uses; `repairedGlobals` binds the three.

The function is split where the row is written: `prepareInputs` reads, `judgeNode` is the `try` block,
`recordOutcome` writes the row, all three in `settleReadyNode`, and `propagate` hands a finished row on.

Resolving inputs may extend a list of an upstream output in place, and the outputs are written back to the
snapshot with the list as it is then: what was added is part of the result (`ResolvedInputs.added`).
-/

namespace ContentGenerator.Workflows

open Lib

/-! ### The environment -/

/-- The arguments of `resolve_node_inputs`. -/
structure ResolveArgs where
  graphNode : GraphNode
  triggerPayload : JsonObject
  initialInputs : JsonObject
  upstreamOutputs : List JsonObject
  runId : String
  schemaVersion : ℕ
  graph : WorkflowGraph
  nodeOutputs : JsonObject
  inputPorts : List NodePort
  runContext : JsonObject

/-- A list that the output of a node holds: the object that an edge may extend in place. -/
structure OutputList where
  source : String
  key : String
  deriving DecidableEq

/-- What `resolve_node_inputs` comes to: the inputs, the items that it has added to lists of the outputs, in
order, and whether one of these lists holds itself then. -/
structure ResolvedInputs where
  inputs : JsonObject
  added : List (OutputList × Json) := []
  circular : Bool := false

/-- What the steps of one run share: the graph of its version, the registry, the settings, the names
bound in the module that executes nodes, and the functions modelled as given. -/
structure EngineEnv where
  graph : WorkflowGraph
  registry : WorkflowNodeRegistry
  runId : String
  globals : List String
  claimLease : Time
  render : Json → String
  isoFormat : Time → String
  parseResumeAt : Json → Option Time
  resolveNodeInputs : ResolveArgs → Except PyException ResolvedInputs
  maybeMockNodeResult : String → JsonObject → JsonObject → Option NodeResult

/-- The names `engine_execute.py` binds when it is imported. -/
def sourceGlobals : List String :=
  ["annotations", "uuid", "Any", "TYPE_CHECKING", "build_node_context",
    "ensure_downstream_iteration", "materialize_fan_out_success", "persist_failure",
    "resolve_node_inputs", "NodeRunIndex", "collect_upstream_outputs", "output_storage_key",
    "as_dict", "unlock_after_node_success", "WorkflowGraph", "build_execution_key",
    "apply_side_effect_idempotency", "classify_error_payload", "classify_exception",
    "NodeResultStatus", "bind_workflow_run_context", "record_workflow_node_finished",
    "WorkflowNodeRun", "WorkflowNodeRunStatus", "WorkflowRun", "maybe_mock_node_result",
    "execute_ready_node"]

/-- The namespace with the three missing names bound. -/
def repairedGlobals : List String :=
  sourceGlobals ++ ["datetime", "timezone", "_persist_failure"]

/-- Read names from the module namespace: the first one that is not bound raises `NameError`. -/
def EngineEnv.loadGlobals (env : EngineEnv) (names : List String) : Except PyException Unit :=
  match names.find? (· ∉ env.globals) with
  | none => .ok ()
  | some name => .error { className := "NameError", message := s!"name '{name}' is not defined" }

/-- The names read before the attempt begins. -/
def prepareNames : List String :=
  ["WorkflowNodeRunStatus", "NodeRunIndex", "collect_upstream_outputs", "resolve_node_inputs",
    "as_dict", "build_execution_key", "apply_side_effect_idempotency"]

/-- The names read when the attempt begins, in the order they are read. -/
def attemptNames : List String :=
  ["datetime", "timezone", "WorkflowNodeRunStatus", "uuid", "bind_workflow_run_context",
    "build_node_context"]

/-! ### Inputs -/

def asDict : Option Json → JsonObject
  | some (.obj fields) => fields
  | _ => []

def addedTo (added : List (OutputList × Json)) (list : OutputList) : List Json :=
  (added.filter fun entry ↦ entry.1 = list).map Prod.snd

/-- A value of an output once its lists have been extended. -/
def extendValue (added : List (OutputList × Json)) (list : OutputList) : Json → Json
  | .arr items => .arr (items ++ addedTo added list)
  | other => other

def extendOutput (added : List (OutputList × Json)) (source : String) (output : JsonObject) : JsonObject :=
  output.map fun field ↦ (field.1, extendValue added ⟨source, field.1⟩ field.2)

/-- An entry of `node_outputs` once the lists of the outputs have been extended. -/
def extendEntry (added : List (OutputList × Json)) (source : String) : Json → Json
  | .obj output => .obj (extendOutput added source output)
  | other => other

def extendOutputs (added : List (OutputList × Json)) (nodeOutputs : JsonObject) : JsonObject :=
  nodeOutputs.map fun entry ↦ (entry.1, extendEntry added entry.1 entry.2)

def outputStorageKey (nodeId iterationKey : String) : String :=
  if pyStrip iterationKey ≠ "" then s!"{nodeId}#{pyStrip iterationKey}" else nodeId

/-- The entry one iteration row contributes to `collect_upstream_outputs`. -/
def iterationOutput (nodeOutputs : JsonObject) (entry : RowId × NodeRun) : Option JsonObject :=
  match nodeOutputs.get (outputStorageKey entry.1.nodeId entry.1.iterationKey) with
  | some (.obj stored) => some stored
  | _ => if entry.2.outputJson.isEmpty then none else some entry.2.outputJson

/-- `collect_upstream_outputs` on one predecessor. -/
def upstreamOutputsOf (nodeOutputs : JsonObject) (t : NodeTable) (nodeId : String) :
    List JsonObject :=
  let iters := t.iterations nodeId
  if 1 < iters.length ∨ (iters.head?.any fun entry ↦ entry.1.iterationKey ≠ "") then
    iters.filterMap (iterationOutput nodeOutputs)
  else
    match nodeOutputs.get nodeId with
    | some (.obj raw) => [raw]
    | _ => []

def collectUpstreamOutputs (predecessorIds : List String) (nodeOutputs : JsonObject)
    (t : NodeTable) : List JsonObject :=
  predecessorIds.flatMap (upstreamOutputsOf nodeOutputs t)

/-- `current in (None, "", [], {})`. -/
def isBlankInput : Option Json → Bool
  | none | some .null | some (.str "") | some (.arr []) | some (.obj []) => true
  | _ => false

def fillBlanks (inputs defaults : JsonObject) : JsonObject :=
  defaults.foldl (fun acc field ↦
    if isBlankInput (acc.get field.1) then acc.set field.1 field.2
    else acc) inputs

/-- The item and the upstream output that the iteration row carries. -/
def seedInputs (inputs seeded : JsonObject) : JsonObject :=
  let filled := fillBlanks inputs (seeded.filter fun field ↦ field.1 ≠ "upstream")
  fillBlanks filled (asDict (seeded.get "upstream"))

/-- `apply_side_effect_idempotency` with an execution key. -/
def applySideEffectIdempotency (nodeType : String) (inputs : JsonObject) (executionKey : String) :
    JsonObject :=
  if nodeType = "publish" ∧ executionKey ≠ "" ∧
      (inputs.getTruthy "idempotency_key").isNone then
    inputs.set "idempotency_key"
      (.str (if 8 ≤ executionKey.length then executionKey else s!"wf-{executionKey}"))
  else inputs

/-- `registry.get`, which raises on an unknown type or version. -/
def EngineEnv.registryGet (env : EngineEnv) (type : String) (version : ℕ) :
    Except PyException NodeImpl :=
  match env.registry.get type version with
  | some impl => .ok impl
  | none =>
    .error
      { className := "KeyError"
        message :=
          if env.registry.nodes.any fun impl ↦ impl.type = type then
            s!"'Unknown workflow node type/version: {type}@v{version}'"
          else s!"'Unknown workflow node type: {type}'" }

structure Prepared where
  impl : NodeImpl
  inputs : JsonObject
  executionKey : String
  nodeOutputs : JsonObject

/-- `json.dumps` of a list that holds itself. -/
def circularReference : PyException :=
  { className := "ValueError", message := "Circular reference detected" }

/-- The part of `execute_ready_node` before the attempt begins. The collected outputs share their lists with
`node_outputs`, so a merge sees them extended. Inputs with a list that holds itself cannot be flushed. -/
def prepareInputs (env : EngineEnv) (run : Run) (t : NodeTable) (graphNode : GraphNode)
    (id : RowId) (row : NodeRun) (nodeOutputs initialInputs : JsonObject) :
    Except PyException Prepared := do
  env.loadGlobals prepareNames
  let preds := (env.graph.predecessors graphNode.id).map GraphEdge.source
  let upstream := collectUpstreamOutputs preds nodeOutputs t
  let impl ← env.registryGet graphNode.type graphNode.version
  let resolved ← env.resolveNodeInputs
    { graphNode := graphNode
      triggerPayload := run.triggerPayload
      initialInputs := initialInputs
      upstreamOutputs := upstream
      runId := env.runId
      schemaVersion := if env.graph.schemaVersion = 0 then 1 else env.graph.schemaVersion
      graph := env.graph
      nodeOutputs := nodeOutputs.filter fun field ↦ field.2 matches .obj _
      inputPorts := impl.inputPorts
      runContext := run.contextSnapshot }
  if resolved.circular then throw circularReference
  let outputs := extendOutputs resolved.added nodeOutputs
  let seeded := seedInputs resolved.inputs row.inputJson
  let inputs :=
    if graphNode.type = "merge" then
      seeded.set "sources" (.arr ((collectUpstreamOutputs preds outputs t).map Json.obj))
    else seeded
  let executionKey := (row.executionKey.filter (· ≠ "")).getD
    (buildExecutionKey env.runId graphNode.id graphNode.versionOrOne id.iterationKey)
  return { impl := impl
           inputs := applySideEffectIdempotency graphNode.type inputs executionKey
           executionKey := executionKey
           nodeOutputs := outputs }

/-! ### The attempt -/

def NodeRun.beginAttempt (now : Time) (prepared : Prepared) (taskExecutionId : Option ℕ)
    (freshToken : ℕ) (row : NodeRun) : NodeRun :=
  NodeRun.recordTaskExecution taskExecutionId
    { row with
      status := .running
      attempt := row.attempt + 1
      startedAt := row.startedAt.or (some now)
      inputJson := prepared.inputs
      nextAttemptAt := none
      executionKey := some prepared.executionKey
      resumeToken :=
        if prepared.impl.mayPause then row.resumeToken.or (some freshToken) else row.resumeToken }

/-- The configuration an attempt runs with: the resolved one of the snapshot, else the graph's. -/
def resolvedConfig (run : Run) (graphNode : GraphNode) : JsonObject :=
  match JsonObject.get (asDict (run.contextSnapshot.get "resolved_node_configs"))
      graphNode.id with
  | some (.obj config) => config
  | _ => graphNode.config

/-- The `try` block: `none` when the node is registered but not executable. -/
def performNode (env : EngineEnv) (run : Run) (graphNode : GraphNode) (prepared : Prepared)
    (outcome : Except PyException NodeResult) : Except PyException (Option NodeResult) := do
  let _ ← prepared.impl.validateInputs prepared.inputs
  let _ ← prepared.impl.validateConfig (resolvedConfig run graphNode)
  match env.maybeMockNodeResult graphNode.type prepared.inputs run.contextSnapshot with
  | some mocked => return some mocked
  | none =>
    if ¬ prepared.impl.isExecutable then
      env.loadGlobals ["_persist_failure"]
      return none
    else
      let result ← outcome
      return some result

/-- What an attempt comes to: a failure with its class, or a result with the validated output. -/
inductive Verdict
  | failure (error : JsonObject) (errorClass : String)
  | result (result : NodeResult) (output : JsonObject)

/-- The `try` block with its handler, and the validation of the output. A name that is missing in
the handler of the validation is not caught. -/
def judgeNode (env : EngineEnv) (run : Run) (graphNode : GraphNode) (prepared : Prepared)
    (outcome : Except PyException NodeResult) : Except PyException Verdict :=
  match performNode env run graphNode prepared outcome with
  | .error exc =>
    .ok (.failure [("code", .str "execute_error"), ("message", .str exc.message)]
      (classifyException exc).value)
  | .ok none =>
    .ok (.failure
      [("code", .str "node_not_executable"),
        ("message", .str (s!"Node '{graphNode.type}' is " ++
          prepared.impl.implementationStatus.value ++ " and cannot execute"))]
      ErrorClass.permanent.value)
  | .ok (some result) =>
    if result.status = .failed then .ok (.result result result.output)
    else
      match prepared.impl.validateOutput result.output with
      | .ok output => .ok (.result result output)
      | .error exc =>
        match env.loadGlobals ["_persist_failure"] with
        | .error missing => .error missing
        | .ok () =>
          .ok (.failure
            [("code", .str "invalid_node_output"), ("message", .str exc.message)]
            ErrorClass.permanent.value)

/-- The row of a node that succeeded or returned a skip. -/
def NodeRun.finish (now : Time) (status : NodeStatus) (output : JsonObject) (row : NodeRun) :
    NodeRun :=
  { row with
    outputJson := output
    status := status
    finishedAt := some now
    errorJson := none
    lastError := none
    errorClass := none
    nextAttemptAt := none }

def NodeRun.pause (waitingReason : Option String) (freshToken : ℕ) (output : JsonObject)
    (row : NodeRun) : NodeRun :=
  { row with
    outputJson := output
    status := .waiting
    waitingReason := waitingReason
    resumeToken := row.resumeToken.or (some freshToken)
    finishedAt := none
    lastError := none
    errorClass := none
    nextAttemptAt := none }

def NodeTable.put (t : NodeTable) (id : RowId) (row : NodeRun) : NodeTable := t.modify id fun _ ↦ row

/-- A row that has just finished, with what it hands on to the successors of its node. -/
structure Finish where
  id : RowId
  status : NodeStatus
  output : JsonObject

/-- What a finished row of a node of the given type does to the rest of the table. -/
def propagate (env : EngineEnv) (now : Time) (nodeType : String) (finish : Finish)
    (t : NodeTable) : NodeTable :=
  if nodeType = "fan_out" ∧ finish.status = .succeeded then
    (materializeFanOutSuccess env.graph env.render now t finish.id.nodeId finish.output).nodes
  else if finish.id.iterationKey ≠ "" then
    (ensureDownstreamIteration env.graph now t finish.id.nodeId finish.id.iterationKey
      finish.output).nodes
  else (unlockAfterNodeSuccess env.graph now t finish.id.nodeId finish.output).nodes

/-- The state of the run with the outputs collected in its snapshot. -/
structure Executed where
  state : EngineState
  nodeOutputs : JsonObject

/-- `node_outputs` with the output of a row. -/
def storeOutput (nodeOutputs : JsonObject) (id : RowId) (output : JsonObject) : JsonObject :=
  let stored := nodeOutputs.set (outputStorageKey id.nodeId id.iterationKey)
    (.obj output)
  if id.iterationKey = "" then stored.set id.nodeId (.obj output) else stored

/-- Write the verdict on an attempt; `row` is the row of the attempt. The second component is the
finished row when there is something to hand on. -/
def recordOutcome (env : EngineEnv) (now : Time) (draw : ℚ) (id : RowId) (row : NodeRun)
    (policy : RetryPolicyDefaults) (before : Executed) : Verdict → Executed × Option Finish
  | .failure error errorClass =>
    ({ before with
        state.nodes := before.state.nodes.put id
          (persistFailure env.render now draw policy error errorClass row) },
      none)
  | .result result output =>
    let nodeOutputs := storeOutput before.nodeOutputs id output
    let finished (status : NodeStatus) : Executed × Option Finish :=
      ({ state :=
          { before.state with
            nodes := before.state.nodes.put id (row.finish now status output) }
         nodeOutputs := nodeOutputs },
        some { id := id, status := status, output := output })
    match result.status with
    | .succeeded => finished .succeeded
    | .skipped => finished .skipped
    | .waiting =>
      let paused := row.pause result.waitingReason before.state.nextToken output
      let woken := persistWaitingNode env.render env.parseResumeAt env.isoFormat now id paused
        before.state.waits.length output result.waitingReason
      ({ state :=
          { before.state with
            nodes := before.state.nodes.put id paused
            waits := before.state.waits ++ woken.1
            outbox := before.state.outbox ++ woken.2
            nextToken := before.state.nextToken + 1 }
         nodeOutputs := nodeOutputs },
        none)
    | .failed =>
      let payload := (result.error.filter (¬ ·.isEmpty)).getD [("code", .str "node_failed")]
      ({ state :=
          { before.state with
            nodes := before.state.nodes.put id
              (persistFailure env.render now draw policy payload
                (classifyErrorPayload env.render payload).value { row with outputJson := output }) }
         nodeOutputs := nodeOutputs },
        none)

/-- The arguments of an execution that are not read from the state: the row, the task execution, what
the implementation does, and the jitter drawn when a retry is scheduled. -/
structure ExecuteArgs where
  row : RowId
  taskExecutionId : Option ℕ := none
  outcome : Except PyException NodeResult
  draw : ℚ := 0

/-- `execute_ready_node` up to the point where a finished row is handed on. -/
def settleReadyNode (env : EngineEnv) (now : Time) (args : ExecuteArgs) (graphNode : GraphNode)
    (before : Executed) (initialInputs : JsonObject) :
    Except PyException (Executed × Option Finish) :=
  match before.state.nodes.find args.row with
  | none => .ok (before, none)
  | some row =>
    if row.status = .succeeded ∨ row.status = .skipped ∨ row.status = .waiting then
      .ok (before, none)
    else do
      let prepared ← prepareInputs env before.state.run before.state.nodes graphNode args.row row
        before.nodeOutputs initialInputs
      env.loadGlobals attemptNames
      let attempt := row.beginAttempt now prepared args.taskExecutionId before.state.nextToken
      let begun : Executed :=
        { before with
          state.nodes := before.state.nodes.put args.row attempt
          state.nextToken := before.state.nextToken + 1
          nodeOutputs := prepared.nodeOutputs }
      let verdict ← judgeNode env before.state.run graphNode prepared args.outcome
      return recordOutcome env now args.draw args.row attempt prepared.impl.retryPolicy begun verdict

def handOn (env : EngineEnv) (now : Time) (nodeType : String) (settled : Executed × Option Finish) :
    Executed :=
  match settled.2 with
  | none => settled.1
  | some finish =>
    { settled.1 with state.nodes := propagate env now nodeType finish settled.1.state.nodes }

def executeReadyNode (env : EngineEnv) (now : Time) (args : ExecuteArgs) (graphNode : GraphNode)
    (before : Executed) (initialInputs : JsonObject) : Except PyException Executed :=
  (settleReadyNode env now args graphNode before initialInputs).map
    (handOn env now graphNode.type)

end ContentGenerator.Workflows
