import ContentGenerator.Workflows.Outcome

/-!
# What an attempt is prepared with and what it leaves

`prepareInputs_cases` says where the inputs of an attempt come from. `executeReadyNode_of_verdict` follows
`execute_ready_node` from the verdict on the attempt; a row that succeeds keeps the output it succeeded with
(`executeReadyNode_succeeded`), and a failed attempt does not succeed (`executeReadyNode_failure`).
-/

namespace ContentGenerator.Workflows

open Lib NodeTable

variable {args : ExecuteArgs} {before : Executed} {exc : PyException} {env : EngineEnv} {run : Run}
  {t : NodeTable} {graphNode : GraphNode} {id : RowId} {row : NodeRun}
  {nodeOutputs initialInputs : JsonObject} {prepared : Prepared}

/-! ### Mocks -/

/-- `GENERATION_NODE_TYPES`. -/
def generationNodeTypes : List String :=
  ["generate_text", "generate_canonical_content", "summarize", "generate_script", "fact_review",
    "generate_image", "generate_video", "generate_tts", "generate_chess_video", "generate_chess_narrative"]

/-- `maybe_mock_node_result`; the mocked results are an argument. -/
def maybeMockNodeResult (mockGenerationResult : String → JsonObject → NodeResult) (nodeType : String)
    (inputs snapshot : JsonObject) : Option NodeResult :=
  match JsonObject.get snapshot "testing" with
  | some (.obj testing) =>
    if (JsonObject.getTruthy testing "mock_generation").isSome ∧ nodeType ∈ generationNodeTypes then
      some (mockGenerationResult nodeType inputs)
    else none
  | _ => none

/-- Only generation is mocked. -/
theorem maybeMockNodeResult_eq_none {nodeType : String} (htype : nodeType ∉ generationNodeTypes)
    (mockGenerationResult : String → JsonObject → NodeResult) (inputs snapshot : JsonObject) :
    maybeMockNodeResult mockGenerationResult nodeType inputs snapshot = none := by
  unfold maybeMockNodeResult
  split
  · rw [if_neg fun h ↦ htype h.2]
  · rfl

/-! ### Models -/

/-- A `dict`. -/
def readObject : Json → Option JsonObject
  | .obj fields => some fields
  | _ => none

/-- The result of a model that accepts, or its `ValidationError`. -/
def orInvalid {α : Type} (invalid : PyException) : Option α → Except PyException α
  | some value => .ok value
  | none => .error invalid

def validationError : PyException := { className := "ValidationError", message := "validation error" }

theorem readObject_eq_some_iff {value : Json} {fields : JsonObject} :
    readObject value = some fields ↔ value = .obj fields := by
  cases value <;> simp [readObject]

/-! ### Where the inputs come from -/

def upstreamOf (env : EngineEnv) (t : NodeTable) (nodeId : String) (nodeOutputs : JsonObject) :
    List JsonObject :=
  collectUpstreamOutputs ((env.graph.predecessors nodeId).map GraphEdge.source) nodeOutputs t

def resolveArgs (env : EngineEnv) (run : Run) (t : NodeTable) (graphNode : GraphNode) (impl : NodeImpl)
    (nodeOutputs initialInputs : JsonObject) : ResolveArgs where
  graphNode := graphNode
  triggerPayload := run.triggerPayload
  initialInputs := initialInputs
  upstreamOutputs := upstreamOf env t graphNode.id nodeOutputs
  runId := env.runId
  schemaVersion := if env.graph.schemaVersion = 0 then 1 else env.graph.schemaVersion
  graph := env.graph
  nodeOutputs := nodeOutputs.filter fun field ↦ field.2 matches .obj _
  inputPorts := impl.inputPorts
  runContext := run.contextSnapshot

/-- The resolved inputs with the item of the row, and with the sources of a merge. -/
def seededInputs (nodeType : String) (upstream : List JsonObject) (row : NodeRun) (resolved : JsonObject) :
    JsonObject :=
  if nodeType = "merge" then
    (seedInputs resolved row.inputJson).set "sources" (.arr (upstream.map Json.obj))
  else seedInputs resolved row.inputJson

/-- The execution key of an attempt: that of the row, else a new one. -/
def attemptKey (env : EngineEnv) (graphNode : GraphNode) (id : RowId) (row : NodeRun) : String :=
  (row.executionKey.filter (· ≠ "")).getD
    (buildExecutionKey env.runId graphNode.id graphNode.versionOrOne id.iterationKey)

theorem prepareInputs_cases
    (h : prepareInputs env run t graphNode id row nodeOutputs initialInputs = .ok prepared) :
    env.registry.get graphNode.type graphNode.version = some prepared.impl ∧
      prepared.executionKey = attemptKey env graphNode id row ∧
      ∃ resolved,
        env.resolveNodeInputs (resolveArgs env run t graphNode prepared.impl nodeOutputs initialInputs) =
          .ok resolved ∧
        prepared.nodeOutputs = extendOutputs resolved.added nodeOutputs ∧
        prepared.inputs = applySideEffectIdempotency graphNode.type
          (seededInputs graphNode.type (upstreamOf env t graphNode.id prepared.nodeOutputs) row resolved.inputs)
          prepared.executionKey := by
  have himpl := prepareInputs_impl h
  unfold prepareInputs EngineEnv.registryGet at h
  cases hload : env.loadGlobals prepareNames with
  | error exc =>
    rw [hload] at h
    exact absurd h (by simp [bind, Except.bind])
  | ok _ =>
    rw [hload, himpl] at h
    simp only [bind, Except.bind] at h
    split at h
    · simp at h
    · rename_i resolved hresolved
      cases hcircular : resolved.circular with
      | true =>
        rw [hcircular, if_pos rfl] at h
        cases h
      | false =>
        rw [hcircular, if_neg Bool.false_ne_true] at h
        rw [← Except.ok.inj h] at himpl ⊢
        exact ⟨himpl, rfl, resolved, hresolved, rfl, rfl⟩

/-- What an attempt runs with when its inputs have resolved. -/
def preparedWith (env : EngineEnv) (t : NodeTable) (graphNode : GraphNode) (id : RowId) (row : NodeRun)
    (nodeOutputs : JsonObject) (impl : NodeImpl) (resolved : ResolvedInputs) : Prepared where
  impl := impl
  inputs := applySideEffectIdempotency graphNode.type
    (seededInputs graphNode.type
      (upstreamOf env t graphNode.id (extendOutputs resolved.added nodeOutputs)) row resolved.inputs)
    (attemptKey env graphNode id row)
  executionKey := attemptKey env graphNode id row
  nodeOutputs := extendOutputs resolved.added nodeOutputs

variable {impl : NodeImpl} {result : NodeResult} {outcome : Except PyException NodeResult} {output : JsonObject}

/-- With the names bound and the type registered, inputs that resolve are prepared. -/
theorem prepareInputs_of_resolved (hglobals : env.globals = repairedGlobals)
    (himpl : env.registry.get graphNode.type graphNode.version = some impl) {resolved : ResolvedInputs}
    (hresolved : env.resolveNodeInputs (resolveArgs env run t graphNode impl nodeOutputs initialInputs) =
      .ok resolved) (hcircular : resolved.circular = false) :
    prepareInputs env run t graphNode id row nodeOutputs initialInputs =
      .ok (preparedWith env t graphNode id row nodeOutputs impl resolved) := by
  unfold prepareInputs EngineEnv.registryGet
  rw [loadGlobals_repaired hglobals _ (by decide), himpl]
  change (env.resolveNodeInputs (resolveArgs env run t graphNode impl nodeOutputs initialInputs) >>= _) = _
  rw [hresolved]
  simp only [bind, Except.bind, hcircular]
  rfl

/-! ### The attempt -/

/-- The row is there, it is neither over nor waiting, and its inputs are prepared. -/
structure Attempts (env : EngineEnv) (args : ExecuteArgs) (graphNode : GraphNode) (before : Executed)
    (initialInputs : JsonObject) (row : NodeRun) (prepared : Prepared) : Prop where
  globals : env.globals = repairedGlobals
  find : before.state.nodes.find args.row = some row
  active : ¬ (row.status = .succeeded ∨ row.status = .skipped ∨ row.status = .waiting)
  prepares : prepareInputs env before.state.run before.state.nodes graphNode args.row row before.nodeOutputs
    initialInputs = .ok prepared

/-- What `execute` of a node class comes to on the inputs and the configuration that its models accept. -/
def performs (impl : NodeImpl) (execute : JsonObject → JsonObject → Except PyException NodeResult)
    (inputs config : JsonObject) : Except PyException NodeResult := do
  let typedIn ← impl.validateInputs inputs
  let typedCfg ← impl.validateConfig config
  execute typedIn typedCfg

theorem Attempts.prepared_impl
    (h : Attempts env args graphNode before initialInputs row prepared)
    (himpl : env.registry.get graphNode.type graphNode.version = some impl) : prepared.impl = impl :=
  Option.some.inj ((prepareInputs_cases h.prepares).1.symm.trans himpl)

/-- The attempt of a registered class that is not mocked, when its models accept the inputs and the
configuration. -/
theorem Attempts.performs_accepted
    (h : Attempts env args graphNode before initialInputs row prepared)
    (himpl : env.registry.get graphNode.type graphNode.version = some impl) (hexecutable : impl.isExecutable)
    {mockGenerationResult : String → JsonObject → NodeResult}
    (hmock : env.maybeMockNodeResult = maybeMockNodeResult mockGenerationResult)
    (htype : graphNode.type ∉ generationNodeTypes) {typedIn typedCfg : JsonObject}
    (hinputs : impl.validateInputs prepared.inputs = .ok typedIn)
    (hconfig : impl.validateConfig (resolvedConfig before.state.run graphNode) = .ok typedCfg)
    (execute : JsonObject → JsonObject → Except PyException NodeResult) :
    performNode env before.state.run graphNode prepared
      (performs impl execute prepared.inputs (resolvedConfig before.state.run graphNode)) =
      (execute typedIn typedCfg).map some := by
  have hmocked : env.maybeMockNodeResult graphNode.type prepared.inputs before.state.run.contextSnapshot =
      none := by
    rw [hmock]
    exact maybeMockNodeResult_eq_none htype _ _ _
  unfold performNode performs
  rw [h.prepared_impl himpl, hinputs, hconfig, hmocked]
  simp only [bind, Except.bind, hexecutable, not_true_eq_false, if_false]
  cases execute typedIn typedCfg <;> rfl

/-- A node that returned something has had its inputs and its configuration accepted. -/
theorem performs_eq_ok {execute : JsonObject → JsonObject → Except PyException NodeResult}
    {inputs config : JsonObject} (h : performs impl execute inputs config = .ok result) :
    ∃ typedIn typedCfg, impl.validateInputs inputs = .ok typedIn ∧ impl.validateConfig config = .ok typedCfg ∧
      execute typedIn typedCfg = .ok result := by
  unfold performs at h
  cases hinputs : impl.validateInputs inputs with
  | error exc =>
    rw [hinputs] at h
    cases h
  | ok typedIn =>
    cases hconfig : impl.validateConfig config with
    | error exc =>
      rw [hinputs, hconfig] at h
      cases h
    | ok typedCfg =>
      rw [hinputs, hconfig] at h
      exact ⟨typedIn, typedCfg, rfl, rfl, h⟩

/-- What a model does not accept is not executed. -/
theorem performNode_of_refused (h : (∃ exc, prepared.impl.validateInputs prepared.inputs = .error exc) ∨
      ∃ exc, prepared.impl.validateConfig (resolvedConfig run graphNode) = .error exc) :
    ∃ exc, performNode env run graphNode prepared outcome = .error exc := by
  unfold performNode
  cases hinputs : prepared.impl.validateInputs prepared.inputs with
  | error exc => exact ⟨exc, rfl⟩
  | ok typedIn =>
    rcases h with ⟨exc, hrefused⟩ | ⟨exc, hrefused⟩
    · exact absurd (hinputs.symm.trans hrefused) (by simp)
    · rw [hrefused]
      exact ⟨exc, rfl⟩

theorem judgeNode_of_error (h : performNode env run graphNode prepared outcome = .error exc) :
    ∃ error errorClass, judgeNode env run graphNode prepared outcome = .ok (.failure error errorClass) := by
  unfold judgeNode
  rw [h]
  exact ⟨_, _, rfl⟩

theorem judgeNode_of_valid
    (h : performNode env run graphNode prepared outcome = .ok (some result)) (hstatus : result.status ≠ .failed)
    (hvalid : prepared.impl.validateOutput result.output = .ok output) :
    judgeNode env run graphNode prepared outcome = .ok (.result result output) := by
  unfold judgeNode
  rw [h]
  simp only [if_neg hstatus, hvalid]

/-- An output that does not pass its schema. -/
theorem judgeNode_of_invalid (hglobals : env.globals = repairedGlobals)
    (h : performNode env run graphNode prepared outcome = .ok (some result)) (hstatus : result.status ≠ .failed)
    (hinvalid : prepared.impl.validateOutput result.output = .error exc) :
    ∃ error errorClass, judgeNode env run graphNode prepared outcome = .ok (.failure error errorClass) := by
  unfold judgeNode
  rw [h]
  simp only [if_neg hstatus, hinvalid, loadGlobals_repaired hglobals ["_persist_failure"] (by decide)]
  exact ⟨_, _, rfl⟩

def attemptRow (now : Time) (args : ExecuteArgs) (before : Executed) (row : NodeRun) (prepared : Prepared) :
    NodeRun :=
  row.beginAttempt now prepared args.taskExecutionId before.state.nextToken

def begunState (now : Time) (args : ExecuteArgs) (before : Executed) (row : NodeRun) (prepared : Prepared) :
    Executed :=
  { before with
    state.nodes := before.state.nodes.put args.row (attemptRow now args before row prepared)
    state.nextToken := before.state.nextToken + 1
    nodeOutputs := prepared.nodeOutputs }

variable (now : Time) {args : ExecuteArgs} {before : Executed} {verdict : Verdict}

theorem executeReadyNode_of_verdict (h : Attempts env args graphNode before initialInputs row prepared)
    (hverdict : judgeNode env before.state.run graphNode prepared args.outcome = .ok verdict) :
    executeReadyNode env now args graphNode before initialInputs =
      .ok (handOn env now graphNode.type
        (recordOutcome env now args.draw args.row (attemptRow now args before row prepared)
          prepared.impl.retryPolicy (begunState now args before row prepared) verdict)) := by
  unfold executeReadyNode settleReadyNode
  rw [h.find]
  simp only [if_neg h.active, h.prepares, bind, Except.bind,
    loadGlobals_repaired h.globals attemptNames (by decide), hverdict]
  rfl

theorem find_begunState (h : Attempts env args graphNode before initialInputs row prepared) :
    (begunState now args before row prepared).state.nodes.find args.row =
      some (attemptRow now args before row prepared) :=
  find_put_self _ _ h.find

/-- A row that has finished is not changed when it is handed on. -/
theorem find_handOn_of_done {settled : Executed × Option Finish} {final : NodeRun}
    (hfind : settled.1.state.nodes.find id = some final) (hskippable : ¬ final.status.isSkippable)
    (nodeType : String) : (handOn env now nodeType settled).state.nodes.find id = some final := by
  obtain ⟨done, finish⟩ := settled
  cases finish with
  | none => exact hfind
  | some finish =>
    exact HandOff.find_apply env now
      { finish := finish, nodeType := some nodeType, nodes := done.state.nodes } hfind hskippable

theorem nodeOutputs_handOn (nodeType : String) (settled : Executed × Option Finish) :
    (handOn env now nodeType settled).nodeOutputs = settled.1.nodeOutputs := by
  unfold handOn
  split <;> rfl

theorem executeReadyNode_succeeded (h : Attempts env args graphNode before initialInputs row prepared)
    (hstatus : result.status = .succeeded)
    (hverdict : judgeNode env before.state.run graphNode prepared args.outcome = .ok (.result result output)) :
    ∃ done, executeReadyNode env now args graphNode before initialInputs = .ok done ∧
      done.state.nodes.find args.row =
        some ((attemptRow now args before row prepared).finish now .succeeded output) ∧
      done.nodeOutputs = storeOutput prepared.nodeOutputs args.row output := by
  refine ⟨_, executeReadyNode_of_verdict now h hverdict, ?_, ?_⟩
  · refine find_handOn_of_done now ?_ (by simp [NodeRun.finish, NodeStatus.isSkippable]) _
    simp only [recordOutcome, hstatus]
    exact find_put_self _ _ (find_begunState now h)
  · rw [nodeOutputs_handOn now]
    simp only [recordOutcome, hstatus]
    rfl

theorem executeReadyNode_failure (h : Attempts env args graphNode before initialInputs row prepared)
    {error : JsonObject} {errorClass : String}
    (hverdict : judgeNode env before.state.run graphNode prepared args.outcome =
      .ok (.failure error errorClass)) :
    ∃ done final, executeReadyNode env now args graphNode before initialInputs = .ok done ∧
      done.state.nodes.find args.row = some final ∧ final.status ≠ .succeeded ∧ final.status ≠ .waiting := by
  refine ⟨_, _, executeReadyNode_of_verdict now h hverdict, find_put_self _ _ (find_begunState now h), ?_⟩
  have hfailed : AttemptFailed prepared.impl (persistFailure env.render now args.draw prepared.impl.retryPolicy error
      errorClass (attemptRow now args before row prepared)) := persistFailure_attemptFailed _ _ _ _ _ _
  rcases hfailed with hfailed | ⟨hready, -⟩
  · rw [hfailed]
    exact ⟨by decide, by decide⟩
  · rw [hready]
    exact ⟨by decide, by decide⟩

def pausedRow (now : Time) (args : ExecuteArgs) (before : Executed) (row : NodeRun) (prepared : Prepared)
    (reason : Option String) (output : JsonObject) : NodeRun :=
  (attemptRow now args before row prepared).pause reason (before.state.nextToken + 1) output

theorem executeReadyNode_waiting (h : Attempts env args graphNode before initialInputs row prepared)
    (hstatus : result.status = .waiting)
    (hverdict : judgeNode env before.state.run graphNode prepared args.outcome = .ok (.result result output)) :
    let paused := pausedRow now args before row prepared result.waitingReason output
    let woken := persistWaitingNode env.render env.parseResumeAt env.isoFormat now args.row paused
      before.state.waits.length output result.waitingReason
    ∃ done, executeReadyNode env now args graphNode before initialInputs = .ok done ∧
      done.state.nodes.find args.row = some paused ∧
      done.state.waits = before.state.waits ++ woken.1 ∧
      done.state.outbox = before.state.outbox ++ woken.2 := by
  refine ⟨_, executeReadyNode_of_verdict now h hverdict, ?_, ?_, ?_⟩
  · refine find_handOn_of_done now ?_ (by simp [pausedRow, NodeRun.pause, NodeStatus.isSkippable]) _
    simp only [recordOutcome, hstatus]
    exact find_put_self _ _ (find_begunState now h)
  · simp only [recordOutcome, hstatus]
    rfl
  · simp only [recordOutcome, hstatus]
    rfl

theorem pausedRow_nodeType (args : ExecuteArgs) (before : Executed) (row : NodeRun) (prepared : Prepared)
    (reason : Option String) (output : JsonObject) :
    (pausedRow now args before row prepared reason output).nodeType = row.nodeType := by
  change (row.beginAttempt now prepared args.taskExecutionId before.state.nextToken).nodeType = row.nodeType
  exact (beginAttempt_frame now prepared args.taskExecutionId before.state.nextToken row).1

theorem pausedRow_resumeToken (args : ExecuteArgs) (before : Executed) (row : NodeRun) (prepared : Prepared)
    (reason : Option String) (output : JsonObject) :
    ∃ token, (pausedRow now args before row prepared reason output).resumeToken = some token := by
  change ∃ token, (attemptRow now args before row prepared).resumeToken.or (some (before.state.nextToken + 1)) =
    some token
  cases (attemptRow now args before row prepared).resumeToken with
  | none => exact ⟨_, rfl⟩
  | some token => exact ⟨token, rfl⟩

end ContentGenerator.Workflows
