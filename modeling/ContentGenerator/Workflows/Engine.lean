import ContentGenerator.Workflows.Execute

/-!
# The orchestrator

The operations on the durable state of one run: `start_run` and `advance` (`engine.py`),
`execute_claimed_node_run` (`engine_node_task.py`), `resume_waiting_node` (`engine_resume.py`),
`recover_stale_workflow_node_runs` (`node_recovery.py`), `wake_due_workflow_waits`
(`wait_recovery.py`), `cancel_run` (`workflow_cancellation.py`), `retry_node` and `retry_from_node`
(`operator_recovery.py`). Nodes run in workers: the inline mode of the test settings is not modelled.

Every operation is one transaction at one time and is rolled back when it raises. `Step` is one transaction of
the system: an `Op` called from outside, or the delivery of a message of the outbox, which is consumed whether
or not its operation raises.
-/

namespace ContentGenerator.Workflows

open Lib List

/-! ### Run status -/

def RunStatus.isTerminal (status : RunStatus) : Bool :=
  status = .succeeded ∨ status = .failed ∨ status = .cancelled

def finalizeRunStatus (render : Json → String) (now : Time) (run : Run) (t : NodeTable) : Run :=
  if run.status = .cancelled then { run with finishedAt := run.finishedAt.or (some now) }
  else if runHasFailure t then
    let failed := t.entries.find? fun entry ↦ entry.2.status = .failed
    let error := (failed.bind fun entry ↦ entry.2.errorJson).getD []
    { run with
      status := .failed
      errorMessage := some (firstTruthyText render error ["message"] "node failed")
      finishedAt := some now }
  else if runIsWaiting t then { run with status := .waiting, finishedAt := none }
  else if runAllComplete t then
    if t.entries.any fun entry ↦ entry.2.status = .cancelled then
      { run with
        status := .cancelled
        finishedAt := some now
        errorMessage := (run.errorMessage.filter (· ≠ "")).or (some "cancelled") }
    else { run with status := .succeeded, finishedAt := some now, errorMessage := none }
  else { run with status := .running }

def EngineState.finalize (env : EngineEnv) (now : Time) (st : EngineState) : EngineState :=
  { st with run := finalizeRunStatus env.render now st.run st.nodes }

/-! ### Advance -/

/-- The rows that are `READY`, in creation order. -/
def claimableRows (t : NodeTable) : List RowId :=
  (t.entries.filter fun entry ↦ entry.2.status = .ready).map Prod.fst

/-- Set the row of a node to `READY` when it is pending. -/
def promotePending (t : NodeTable) (nodeId : String) : NodeTable :=
  match t.get nodeId with
  | none => t
  | some current => if current.2.status = .pending then t.setStatus current.1 .ready else t

/-- The promotion of `advance`; the ready nodes are listed before the first one is promoted. -/
def promoteReady (g : WorkflowGraph) (t : NodeTable) : NodeTable :=
  (readyNodeIds g t).foldl promotePending t

def claimAndEnqueue (env : EngineEnv) (now : Time) (st : EngineState) (id : RowId) : EngineState :=
  match (st.nodes.find id).bind (claimReadyNode env.runId env.claimLease now st.nextToken id) with
  | none => st
  | some claimed =>
    { st with
      nodes := st.nodes.put id claimed
      outbox := st.outbox ++ [{ earliest := now, message := .execute id st.nextToken }]
      nextToken := st.nextToken + 1 }

/-- The claiming pass of `advance`. -/
def claimPass (env : EngineEnv) (now : Time) (st : EngineState) : EngineState :=
  let nodes :=
    if (claimableRows st.nodes).isEmpty then promoteReady env.graph st.nodes else st.nodes
  (claimableRows nodes).foldl (claimAndEnqueue env now) { st with nodes := nodes }

/-- `advance`: claim what is `READY` and enqueue it, then finalize the run. -/
def advance (env : EngineEnv) (now : Time) (st : EngineState) : EngineState :=
  if st.run.status.isTerminal then st
  else if runIsWaiting st.nodes ∨ runHasFailure st.nodes then st.finalize env now
  else (claimPass env now st).finalize env now

def EngineState.sendAdvance (earliest : Time) (st : EngineState) : EngineState :=
  { st with outbox := st.outbox ++ [{ earliest := earliest, message := .advance }] }

/-! ### Start -/

def startRow (g : WorkflowGraph) (node : GraphNode) : RowId × NodeRun :=
  (⟨node.id, ""⟩,
    { nodeType := node.type
      nodeVersion := node.version
      status := if node.id ∈ g.rootNodeIds then .ready else .pending })

/-- The rows of a new run; the insertion of a second row for one node id is left out. -/
def startTable (g : WorkflowGraph) : NodeTable :=
  g.nodes.foldl (fun t node ↦ t.insertNew (startRow g node).1 (startRow g node).2)
    { entries := [], nodupKeys := nodup_nil }

/-- Who claims the roots of a new run: the transaction that starts it, the message the scheduler
sends, or nobody (`advance=False` over the API). -/
inductive StartMode
  | inline | enqueued | idle
  deriving DecidableEq

/-- `start_run` on a graph that has been validated. -/
def startRun (env : EngineEnv) (now : Time) (mode : StartMode)
    (triggerPayload snapshot : JsonObject) : EngineState :=
  let created : EngineState :=
    { run :=
        { status := .running
          triggerPayload := triggerPayload
          contextSnapshot := snapshot
          startedAt := some now }
      nodes := startTable env.graph }
  match mode with
  | .inline => advance env now created
  | .enqueued => created.sendAdvance now
  | .idle => created

/-! ### Cancellation -/

/-- `_mark_node_cancelled`. -/
def NodeRun.markCancelled (now : Time) (reason : String) (row : NodeRun) : NodeRun :=
  { row.clearClaim with
    status := .cancelled
    finishedAt := some now
    waitingReason := none
    nextAttemptAt := none
    cancellationRequested := true
    errorJson := (row.errorJson.filter (¬ ·.isEmpty)).or
      (some [("code", .str "cancelled"), ("message", .str reason)]) }

/-- The loop body of `cancel_run`. -/
def NodeRun.cancel (now : Time) (row : NodeRun) : NodeRun :=
  match row.status with
  | .succeeded | .skipped => row
  | .cancelled => { row with cancellationRequested := true }
  | _ => row.markCancelled now "cancelled by operator"

def shouldAbortNode (row : NodeRun) (run : Run) : Bool :=
  run.status = .cancelled ∨ row.cancellationRequested

/-- `abort_node_for_cancellation` on the row. -/
def NodeRun.abort (now : Time) (token : Option ℕ) (row : NodeRun) : NodeRun :=
  let requested := { row with cancellationRequested := true }
  completeNode token
    (if row.status = .succeeded then requested else requested.markCancelled now "cancelled")

def cancelRun (now : Time) (st : EngineState) : Except PyException EngineState :=
  if st.run.status = .succeeded then
    .error (httpException 409 "Cannot cancel a succeeded run")
  else if st.run.status = .cancelled then .ok st
  else
    .ok { st with
      nodes := st.nodes.mapValues fun _ row ↦ row.cancel now
      waits := st.waits.map fun wait ↦
        if wait.status = .pending then
          { wait with
            status := .cancelled
            resolvedAt := some now
            resolvedOutcome := some "cancelled" }
        else wait
      run :=
        { st.run with
          status := .cancelled
          finishedAt := some now
          errorMessage := (st.run.errorMessage.filter (· ≠ "")).or
            (some "cancelled by operator") } }

/-! ### Executing a claimed row -/

/-- The guard of `execute_claimed_node_run` against a cancellation that came in while the node ran. -/
def NodeRun.honourCancellation (run : Run) (row : NodeRun) : NodeRun :=
  if row.status ≠ .succeeded ∧ shouldAbortNode row run then
    { row with
      cancellationRequested := true
      status := .cancelled
      errorJson := (row.errorJson.filter (¬ ·.isEmpty)).or
        (some [("code", .str "cancelled"), ("message", .str "cancelled")]) }
  else row

/-- The delay before the next attempt of a row, drawn anew. -/
def retryDelay (env : EngineEnv) (row : NodeRun) (draw : ℚ) : ℚ :=
  match env.registry.get row.nodeType (if row.nodeVersion = 0 then 1 else row.nodeVersion) with
  | some impl =>
    computeBackoffSeconds (if row.attempt = 0 then 1 else row.attempt) impl.retryPolicy draw
  | none => 2

/-- What follows an execution: a delayed advance after a scheduled retry, else an advance of a run
that goes on. -/
def followUp (env : EngineEnv) (now : Time) (draw : ℚ) (id : RowId) (st : EngineState) :
    EngineState :=
  match st.nodes.find id with
  | some row =>
    if row.status = .ready ∧ row.nextAttemptAt.isSome then
      st.sendAdvance (now + advanceCountdown (retryDelay env row draw) * 1000000)
    else if st.run.status = .running then advance env now st
    else st
  | none => if st.run.status = .running then advance env now st else st

/-- The end of `execute_claimed_node_run`: release the claim, store the outputs, finalize. -/
def completeExecution (env : EngineEnv) (now : Time) (token : ℕ) (id : RowId) (done : Executed) :
    EngineState :=
  let run := done.state.run
  { done.state with
    nodes := done.state.nodes.modify id fun row ↦
      completeNode (some token) (row.honourCancellation run)
    run :=
      { run with
        contextSnapshot := run.contextSnapshot.set "node_outputs"
          (.obj done.nodeOutputs) } }.finalize env now

/-- `execute_claimed_node_run`; `draw` is the second jitter, drawn for the message. -/
def executeClaimedNodeRun (env : EngineEnv) (now : Time) (args : ExecuteArgs) (token : ℕ)
    (workerTaskId : Option String) (draw : ℚ) (st : EngineState) :
    Except PyException EngineState :=
  if st.run.status.isTerminal then
    .ok { st with
      nodes := st.nodes.modify args.row fun row ↦
        if row.status = .queued ∨ row.status = .running ∨ row.status = .ready then
          row.abort now (if row.claimToken = some token then some token else none)
        else row }
  else
    match (st.nodes.find args.row).bind
        (beginNodeExecution env.claimLease now token workerTaskId args.taskExecutionId) with
    | none => .ok st
    | some begun =>
      let started : EngineState := { st with nodes := st.nodes.put args.row begun }
      if shouldAbortNode begun st.run then
        .ok ({ started with
          nodes := started.nodes.put args.row (begun.abort now (some token)) }.finalize env now)
      else
        match env.graph.node? args.row.nodeId with
        | none =>
          let message := s!"node {args.row.nodeId} missing"
          .ok ({ started with
            nodes := started.nodes.put args.row
              (failNode now [("code", .str "missing_graph_node"), ("message", .str message)]
                ErrorClass.permanent.value message begun) }.finalize env now)
        | some graphNode => do
          let snapshot := st.run.contextSnapshot
          let done ← executeReadyNode env now args graphNode
            { state := started, nodeOutputs := asDict (snapshot.get "node_outputs") }
            (asDict (snapshot.get "initial_inputs"))
          return followUp env now draw args.row (completeExecution env now token args.row done)

/-! ### Resuming a paused row -/

/-- `_SUCCESS_OUTCOMES`. -/
def successOutcomes : List String := ["approved", "elapsed", "received"]

/-- `_FAIL_OUTCOMES`. -/
def failOutcomes : List String := ["rejected", "expired"]

def NodeTable.byResumeToken (t : NodeTable) (token : ℕ) : Option (RowId × NodeRun) :=
  t.entries.find? fun entry ↦ entry.2.resumeToken = some token

/-- The row of a resumed node, without its error. -/
def NodeRun.resolve (now : Time) (status : NodeStatus) (output : JsonObject)
    (error : Option JsonObject) (row : NodeRun) : NodeRun :=
  { row with
    status := status
    outputJson := output
    errorJson := error
    finishedAt := some now
    waitingReason := none }

def resumedOutput (row : NodeRun) (outcome : String) (decision : JsonObject)
    (continues : Bool) : JsonObject :=
  let output := JsonObject.set (JsonObject.set (row.outputJson.update decision)
    "decision" (.str outcome)) "status" (.str outcome)
  if continues then output.set "status" (.str "timed_out") else output

/-- The table and the run status after a decision on a waiting row. -/
def decideRow (env : EngineEnv) (now : Time) (id : RowId) (row : NodeRun) (outcome : String)
    (output : JsonObject) (succeeds : Bool) (st : EngineState) : EngineState :=
  if succeeds then
    { st with
      nodes := (unlockAfterNodeSuccess env.graph now
        (st.nodes.put id (row.resolve now .succeeded output none)) id.nodeId output).nodes
      run := { st.run with status := .running } }
  else
    let codePrefix := if row.nodeType = "approval" then "approval" else "wait"
    { st with
      nodes := st.nodes.put id (row.resolve now .failed output
        (some [("code", .str s!"{codePrefix}_{outcome}"),
          ("message", .str s!"Wait/approval {outcome}")])) }

/-- Whether a decision lets the run go on after a timeout. -/
def continuesAfterTimeout (render : Json → String) (outcome : String) (decision : JsonObject) :
    Bool :=
  let onTimeout := ((decision.getTruthy "on_timeout").map (Json.text render)).getD "stop"
  outcome = "expired" ∧ onTimeout = "continue"

/-- The end of `resume_waiting_node`: store the output, finalize, advance. -/
def completeResume (env : EngineEnv) (now : Time) (id : RowId) (output : JsonObject)
    (advances : Bool) (waits : List Wait) (decided : EngineState) : EngineState :=
  let snapshot := decided.run.contextSnapshot
  let nodeOutputs := JsonObject.set (asDict (snapshot.get "node_outputs"))
    id.nodeId (.obj output)
  let resumed : EngineState :=
    { decided with
      waits := waits
      run :=
        { decided.run with
          contextSnapshot := snapshot.set "node_outputs" (.obj nodeOutputs) } }
  let finalized := resumed.finalize env now
  if advances ∧ finalized.run.status = .running then advance env now finalized else finalized

/-- The wait of a resumed row is resolved when its node type creates waits. -/
def markResumed (now : Time) (resumeToken : ℕ) (outcome : String) (decision : JsonObject)
    (row : NodeRun) (waits : List Wait) : Except PyException (List Wait) :=
  if row.nodeType ∈ ["delay", "wait", "approval"] then
    markWaitResolvedByResumeToken now resumeToken outcome
      (if decision.isEmpty then [] else [("decision", .obj decision)]) waits
  else .ok waits

/-- The part of `resume_waiting_node` for a row that is waiting. -/
def resumeRow (env : EngineEnv) (now : Time) (resumeToken : ℕ) (outcome : String)
    (decision : JsonObject) (advances : Bool) (id : RowId) (row : NodeRun) (st : EngineState) :
    Except PyException EngineState :=
  let continues := continuesAfterTimeout env.render outcome decision
  let output := resumedOutput row outcome decision continues
  let decided := decideRow env now id row outcome output
    (outcome ∈ successOutcomes ∨ continues) st
  match markResumed now resumeToken outcome decision row decided.waits with
  | .error exc => .error exc
  | .ok waits => .ok (completeResume env now id output advances waits decided)

def resumeWaitingNode (env : EngineEnv) (now : Time) (resumeToken : ℕ) (rawOutcome : String)
    (decision : JsonObject) (advances : Bool) (st : EngineState) :
    Except PyException EngineState :=
  let outcome := pyLower (pyStrip rawOutcome)
  if outcome ∉ successOutcomes ++ failOutcomes then
    .error (httpException 422 s!"Unsupported resume outcome '{rawOutcome}'")
  else
    match st.nodes.byResumeToken resumeToken with
    | none => .error (httpException 404 "Waiting node not found for resume token")
    | some entry =>
      if entry.2.status = .succeeded ∧ outcome ∈ successOutcomes then
        -- already resolved
        if advances ∧ ¬ st.run.status.isTerminal then .ok (advance env now st) else .ok st
      else if entry.2.status = .failed ∧ outcome ∈ failOutcomes then .ok st
      else if entry.2.status ≠ .waiting then
        .error (httpException 409 s!"Node is not waiting (status={entry.2.status.value})")
      else resumeRow env now resumeToken outcome decision advances entry.1 entry.2 st

/-- The decision `resume_run` passes on for an event: the payload of the event under its own key. -/
def eventDecision (decision : JsonObject) : JsonObject :=
  match decision.get "event_payload" with
  | some (.obj _) => decision
  | _ => if decision.isEmpty then decision else [("event_payload", .obj decision)]

/-- `resume_run` called with an event key: resolve the wait, then resume its node. -/
def resumeRun (env : EngineEnv) (now : Time) (eventKey : String) (decision : JsonObject)
    (advances : Bool) (st : EngineState) : Except PyException EngineState :=
  match resolveWaitByEventKey now eventKey decision st.waits with
  | .error exc => .error exc
  | .ok (none, _) => .error (httpException 404 "Pending wait not found for event_key")
  | .ok (some token, waits) =>
    resumeWaitingNode env now token "received" (eventDecision decision) advances
      { st with waits := waits }

/-! ### Periodic recovery -/

/-- The retry policy recovery uses for a row: a single attempt when its type is not registered. -/
def recoveryPolicy (env : EngineEnv) (row : NodeRun) : RetryPolicyDefaults :=
  match env.registry.get row.nodeType (if row.nodeVersion = 0 then 1 else row.nodeVersion) with
  | some impl => impl.retryPolicy
  | none => { maxAttempts := 1 }

def NodeRun.recover (env : EngineEnv) (now : Time) (draw : ℚ) (row : NodeRun) : NodeRun :=
  let policy := recoveryPolicy env row
  let errorClass := ErrorClass.transient.value
  if shouldRetry errorClass row.attempt policy then
    { releaseNodeClaim (some (nextAttemptAtFor row.attempt policy draw now)) row with
      lastError := some "Worker claim lease expired"
      errorClass := some errorClass
      errorJson := some [("code", .str "claim_lease_expired"),
        ("message", .str "Worker claim lease expired"), ("error_class", .str errorClass),
        ("attempt", .int row.attempt)] }
  else
    failNode now
      [("code", .str "claim_lease_expired"),
        ("message", .str "Worker claim lease expired after max attempts"),
        ("attempt", .int row.attempt), ("max_attempts", .int policy.maxAttempts),
        ("error_class", .str errorClass)]
      errorClass "Worker claim lease expired" row

/-- `recover_stale_workflow_node_runs` on this run; `draw` gives the jitter of each row. -/
def recoverStale (env : EngineEnv) (now : Time) (limit : ℕ) (draw : RowId → ℚ)
    (st : EngineState) : EngineState :=
  let stale := (listStaleClaimedNodes now limit st.nodes).map Prod.fst
  let nodes := stale.foldl (fun t id ↦ t.modify id (NodeRun.recover env now (draw id))) st.nodes
  if stale.isEmpty then st else { st with nodes := nodes }.sendAdvance now

/-- `wake_due_workflow_waits` on this run. -/
def wakeDueWaits (now : Time) (limit : ℕ) (st : EngineState) : EngineState :=
  let due := dueWaits now limit st.waits
  { st with
    waits := st.waits.map fun wait ↦
      if wait.id ∈ due.map Wait.id then wait.resolve now wait.dueOutcome [] else wait
    outbox := st.outbox ++ due.map fun wait ↦
      { earliest := now
        message := .resume wait.resumeToken wait.dueOutcome wait.dueDecision } }

/-! ### Operator retries -/

/-- `_reset_failed_to_ready` on a failed row. -/
def NodeRun.resetFailedToReady (row : NodeRun) : NodeRun :=
  { row.clearClaim with
    status := .ready
    errorJson := none
    lastError := none
    errorClass := none
    waitingReason := none
    finishedAt := none
    nextAttemptAt := none
    cancellationRequested := false }

def NodeRun.resetDescendantToPending (row : NodeRun) : NodeRun :=
  if row.status = .succeeded then row
  else
    { row.clearClaim with
      status := .pending
      errorJson := none
      lastError := none
      errorClass := none
      waitingReason := none
      resumeToken := none
      inputJson := []
      outputJson := []
      startedAt := none
      finishedAt := none
      nextAttemptAt := none
      cancellationRequested := false }

/-- `_reopen_run`. -/
def Run.reopen (run : Run) : Run :=
  { run with status := .running, errorMessage := none, finishedAt := none }

def checkRetry (run : Run) : Except PyException Unit :=
  if run.status = .cancelled then .error (httpException 409 "Cannot retry a cancelled run")
  else if run.status = .succeeded then .error (httpException 409 "Cannot retry a succeeded run")
  else .ok ()

/-- `retry_node`: the first row of the node, which must have failed. -/
def retryNode (env : EngineEnv) (now : Time) (nodeId : String) (st : EngineState) :
    Except PyException EngineState := do
  checkRetry st.run
  match st.nodes.entries.find? fun entry ↦ entry.1.nodeId = nodeId with
  | none => .error (httpException 404 s!"Node '{nodeId}' not found on run")
  | some (id, row) =>
    if row.status = .succeeded then .error (httpException 409 "Cannot retry a succeeded node")
    else if row.status ≠ .failed then
      .error (httpException 409
        s!"Node '{nodeId}' is {row.status.value}; only failed nodes can be retried")
    else
      .ok (advance env now
        { st with
          nodes := st.nodes.modify id NodeRun.resetFailedToReady
          run := st.run.reopen })

/-- `{n.node_id: n for n in nodes}.get(node_id)`: the last row of a node. -/
def NodeTable.lastRow (t : NodeTable) (nodeId : String) : Option (RowId × NodeRun) :=
  (t.entries.filter fun entry ↦ entry.1.nodeId = nodeId).getLast?

/-- The body of the queue loop of `retry_from_node`, on the ids seen and the table. -/
def resetBody (g : WorkflowGraph) (current : String) (acc : List String × NodeTable) :
    (List String × NodeTable) × List String :=
  if current ∈ acc.1 then (acc, [])
  else
    let nodes :=
      match acc.2.lastRow current with
      | none => acc.2
      | some entry => acc.2.modify entry.1 NodeRun.resetDescendantToPending
    ((current :: acc.1, nodes), (g.successors current).map GraphEdge.target)

/-- The descendants of a node reset to `PENDING`, with the entries the fuel did not reach. -/
def resetLoop (g : WorkflowGraph) (nodeId : String) (t : NodeTable) :
    (List String × NodeTable) × List String :=
  worklist (resetBody g) (2 * g.edges.length) ((g.successors nodeId).map GraphEdge.target) ([], t)

def retryFromNode (env : EngineEnv) (now : Time) (nodeId : String) (st : EngineState) :
    Except PyException EngineState := do
  checkRetry st.run
  match st.nodes.lastRow nodeId with
  | none => .error (httpException 404 s!"Node '{nodeId}' not found on run")
  | some (id, row) =>
    if row.status = .succeeded then
      .error (httpException 409 "Cannot retry from a succeeded node")
    else if row.status ≠ .failed then
      .error (httpException 409
        s!"Node '{nodeId}' is {row.status.value}; retry-from requires failed")
    else
      .ok (advance env now
        { st with
          nodes := (resetLoop env.graph nodeId
            (st.nodes.modify id NodeRun.resetFailedToReady)).1.2
          run := st.run.reopen })

/-! ### Steps of the system -/

/-- A transaction: its operation and the arguments that are not read from the state. -/
inductive Op
  | advance
  | execute (args : ExecuteArgs) (token : ℕ) (workerTaskId : Option String) (draw : ℚ)
  | resume (token : ℕ) (outcome : String) (decision : JsonObject) (advances : Bool)
  | resolveEvent (eventKey : String) (payload : JsonObject)
  | resumeRun (eventKey : String) (decision : JsonObject) (advances : Bool)
  | recover (limit : ℕ) (draw : RowId → ℚ)
  | wake (limit : ℕ)
  | cancel
  | retryNode (nodeId : String)
  | retryFromNode (nodeId : String)

def Op.apply (env : EngineEnv) (now : Time) : Op → EngineState → Except PyException EngineState
  | .advance, st => .ok (Workflows.advance env now st)
  | .execute args token worker draw, st => executeClaimedNodeRun env now args token worker draw st
  | .resume token outcome decision advances, st =>
    resumeWaitingNode env now token outcome decision advances st
  | .resolveEvent eventKey payload, st =>
    (resolveWaitByEventKey now eventKey payload st.waits).map fun resolved ↦
      { st with waits := resolved.2 }
  | .resumeRun eventKey decision advances, st =>
    Workflows.resumeRun env now eventKey decision advances st
  | .recover limit draw, st => .ok (recoverStale env now limit draw st)
  | .wake limit, st => .ok (wakeDueWaits now limit st)
  | .cancel, st => cancelRun now st
  | .retryNode nodeId, st => Workflows.retryNode env now nodeId st
  | .retryFromNode nodeId, st => Workflows.retryFromNode env now nodeId st

/-- The transaction of an operation: rolled back when it raises. -/
def Op.run (env : EngineEnv) (now : Time) (op : Op) (st : EngineState) : EngineState :=
  match op.apply env now st with
  | .ok st' => st'
  | .error _ => st

def Op.Handles : Op → Message → Prop
  | .advance, .advance => True
  | .execute args token _ _, .execute id claimToken => args.row = id ∧ token = claimToken
  | .resume token outcome decision advances, .resume resumeToken outcome' decision' =>
    token = resumeToken ∧ outcome = outcome' ∧ decision = decision' ∧ advances = true
  | _, _ => False

/-- One transaction: an operation called from outside, or one that consumes a message whose time
has come. `allowed` restricts the operations by the time and the state they are applied to. -/
inductive Step (env : EngineEnv) (allowed : Time → Op → EngineState → Prop) :
    EngineState → EngineState → Prop
  | call (now : Time) (op : Op) (st : EngineState) (h : allowed now op st) :
      Step env allowed st (op.run env now st)
  | deliver (now : Time) (op : Op) (st : EngineState) (i : Fin st.outbox.length)
      (hdue : (st.outbox.get i).earliest ≤ now) (hop : op.Handles (st.outbox.get i).message)
      (h : allowed now op { st with outbox := st.outbox.eraseIdx i }) :
      Step env allowed st (op.run env now { st with outbox := st.outbox.eraseIdx i })

/-- A state of a run: reached from a start by transactions that are allowed. -/
def Reachable (env : EngineEnv) (allowed : Time → Op → EngineState → Prop) (st : EngineState) :
    Prop :=
  ∃ now mode triggerPayload snapshot,
    Relation.ReflTransGen (Step env allowed) (startRun env now mode triggerPayload snapshot) st

/-! ### The queue of the resets -/

/-- The edges whose sources have not been seen: what the queue loop can still push. -/
def unseenEdges (g : WorkflowGraph) (seen : List String) : ℕ :=
  (g.edges.filter fun edge ↦ edge.source ∉ seen).length

theorem unseenEdges_cons (g : WorkflowGraph) {seen : List String} {nodeId : String}
    (h : nodeId ∉ seen) :
    unseenEdges g (nodeId :: seen) + (g.successors nodeId).length = unseenEdges g seen := by
  unfold unseenEdges WorkflowGraph.successors
  induction g.edges with
  | nil => rfl
  | cons edge rest ih =>
    by_cases hsource : edge.source = nodeId
    · simp [hsource, h] at ih ⊢
      omega
    · by_cases hseen : edge.source ∈ seen
      · simp [hsource, hseen] at ih ⊢
        omega
      · simp [hsource, hseen] at ih ⊢
        omega

/-- The queue of `retry_from_node` is empty when the loop ends: the fuel is enough. -/
theorem resetLoop_drained (g : WorkflowGraph) (nodeId : String) (t : NodeTable) :
    (resetLoop g nodeId t).2 = [] := by
  refine worklist_drained (fun acc : List String × NodeTable ↦ unseenEdges g acc.1) ?_ _ _ _ ?_
  · intro current acc
    unfold resetBody
    split_ifs with hseen
    · exact le_rfl
    · have hpaid := unseenEdges_cons g hseen
      simp only [length_map]
      omega
  · have hsuccessors : (g.successors nodeId).length ≤ g.edges.length := length_filter_le _ _
    have hunseen : unseenEdges g [] ≤ g.edges.length := length_filter_le _ _
    simp only [length_map]
    omega

end ContentGenerator.Workflows
