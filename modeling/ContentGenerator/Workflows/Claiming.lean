import ContentGenerator.Workflows.Retry

/-!
# Claims and durable waits

The conditional updates of `node_claiming.py` on the rows of a run, and the wait rows of
`wait_store.py` and `wait_persist.py`. A claim token is the value of the state's token counter, so no
two claims share one.

Every conditional update is a function on the row it may touch; `claimReadyNode` and
`beginNodeExecution` return `none` when the row does not match their filter.
-/

namespace ContentGenerator.Workflows

open Lib

/-! ### Claims -/

namespace NodeRun

/-- `_clear_claim_values`. -/
def clearClaim (row : NodeRun) : NodeRun :=
  { row with
    claimToken := none
    claimExpiresAt := none
    claimedAt := none
    workerTaskId := none
    lastHeartbeatAt := none }

/-- The `due` filter of `claim_ready_node`. -/
def isDue (now : Time) (row : NodeRun) : Bool :=
  match row.nextAttemptAt with
  | none => true
  | some due => due ≤ now

/-- The filter of `list_stale_claimed_nodes`. -/
def isStale (now : Time) (row : NodeRun) : Bool :=
  row.status.isClaimed && row.claimExpiresAt.any (· ≤ now)

/-- `task_execution_id` and the list that collects it. -/
def recordTaskExecution (taskExecutionId : Option ℕ) (row : NodeRun) : NodeRun :=
  match taskExecutionId with
  | none => row
  | some task =>
    { row with
      taskExecutionId := some task
      taskExecutionIds :=
        if task ∈ row.taskExecutionIds then row.taskExecutionIds
        else row.taskExecutionIds ++ [task] }

end NodeRun

def buildExecutionKey (runId nodeId : String) (nodeVersion : ℕ) (iterationKey : String) : String :=
  let base := s!"{runId}:{nodeId}:v{nodeVersion}"
  if iterationKey = "" then base else s!"{base}:{iterationKey}"

/-- `claim_ready_node` on one row: a due `READY` row becomes `QUEUED` under the token. -/
def claimReadyNode (runId : String) (lease : Time) (now : Time) (token : ℕ) (id : RowId)
    (row : NodeRun) : Option NodeRun :=
  if row.status = .ready ∧ row.isDue now then
    some { row with
      status := .queued
      claimToken := some token
      claimExpiresAt := some (now + lease)
      claimedAt := some now
      lastHeartbeatAt := some now
      nextAttemptAt := none
      executionKey := some (buildExecutionKey runId id.nodeId
        (if row.nodeVersion = 0 then 1 else row.nodeVersion) id.iterationKey) }
  else none

/-- `begin_node_execution` on one row. -/
def beginNodeExecution (lease : Time) (now : Time) (token : ℕ) (workerTaskId : Option String)
    (taskExecutionId : Option ℕ) (row : NodeRun) : Option NodeRun :=
  if row.claimToken = some token ∧ ¬ row.cancellationRequested ∧ row.status.isClaimed then
    some (NodeRun.recordTaskExecution taskExecutionId
      { row with
        status := .running
        claimExpiresAt := some (now + lease)
        lastHeartbeatAt := some now
        workerTaskId := (workerTaskId.filter (· ≠ "")).or row.workerTaskId })
  else none

/-- `complete_node`: the claim is cleared when the token matches, or when none is asked for. -/
def completeNode (token : Option ℕ) (row : NodeRun) : NodeRun :=
  if token = none ∨ row.claimToken = token then row.clearClaim else row

/-- `fail_node` on a row whose claim token is the caller's. -/
def failNode (now : Time) (error : JsonObject) (errorClass lastError : String) (row : NodeRun) :
    NodeRun :=
  { row.clearClaim with
    status := .failed
    errorJson := some error
    finishedAt := some now
    nextAttemptAt := none
    lastError := some (pyTake 2000 lastError)
    errorClass := some errorClass }

/-- `release_node_claim` with `requeue`. -/
def releaseNodeClaim (nextAttemptAt : Option Time) (row : NodeRun) : NodeRun :=
  { row.clearClaim with status := .ready, nextAttemptAt := nextAttemptAt }

/-- `renew_node_claim` on one row. -/
def renewNodeClaim (lease : Time) (now : Time) (token : ℕ) (workerTaskId : Option String)
    (row : NodeRun) : Option NodeRun :=
  if row.claimToken = some token ∧ row.status.isClaimed then
    some { row with
      claimExpiresAt := some (now + lease)
      lastHeartbeatAt := some now
      workerTaskId := workerTaskId.or row.workerTaskId }
  else none

/-- `release_node_claim` of a caller that holds a token: no filter on the status. -/
def releaseNodeClaimOf (token : ℕ) (requeue : Bool) (nextAttemptAt : Option Time) (row : NodeRun) :
    Option NodeRun :=
  if row.claimToken = some token then
    some (if requeue then releaseNodeClaim nextAttemptAt row else row.clearClaim)
  else none

/-- `fail_node` of a caller that holds a token: no filter on the status. -/
def failNodeOf (now : Time) (token : ℕ) (error : JsonObject) (errorClass lastError : String)
    (row : NodeRun) : Option NodeRun :=
  if row.claimToken = some token then some (failNode now error errorClass lastError row) else none

/-- `list_stale_claimed_nodes`: the stale rows of the run in the order their leases expired. The
batch is shared with other runs, so the number of rows it has room for is an argument. -/
def listStaleClaimedNodes (now : Time) (limit : ℕ) (t : NodeTable) : List (RowId × NodeRun) :=
  ((t.entries.filter fun entry ↦ entry.2.isStale now).insertionSort fun a b ↦
    a.2.claimExpiresAt.getD 0 ≤ b.2.claimExpiresAt.getD 0).take limit

/-! ### Waits -/

/-- `schedule_fast_wake`: a resume message with the whole seconds left as countdown. -/
def scheduleFastWake (now : Time) (resumeToken : ℕ) (wakeAt : Time) (outcome : String)
    (decision : JsonObject) : Envelope :=
  { earliest := now + (wakeAt - now) / 1000000 * 1000000
    message := .resume resumeToken outcome decision }

/-- `isinstance(timeout_seconds, int) and timeout_seconds > 0`: the timeout of a waiting output. The
boolean `True` is an `int` greater than zero. -/
def timeoutSeconds (output : JsonObject) : Option ℕ :=
  match output.get "timeout_seconds" with
  | some (.int seconds) => if 0 < seconds then some seconds.toNat else none
  | some (.bool true) => some 1
  | _ => none

def waitEventKey (render : Json → String) (output : JsonObject) : Option String :=
  match output.get "correlation_key" with
  | none | some .null => none
  | some value => (some (pyStrip (value.text render))).filter (· ≠ "")

/-- `str(output.get("on_timeout") or fallback)`. -/
def onTimeoutText (render : Json → String) (output : JsonObject) (fallback : String) : String :=
  ((output.getTruthy "on_timeout").map (Json.text render)).getD fallback

/-- `persist_waiting_node`: the wait row of a paused node and the messages that wake it.
`parseResumeAt` is `_parse_resume_at`, `isoFormat` renders a time. -/
def persistWaitingNode (render : Json → String) (parseResumeAt : Json → Option Time)
    (isoFormat : Time → String) (now : Time) (id : RowId) (row : NodeRun) (waitId : ℕ)
    (output : JsonObject) (waitingReason : Option String) : List Wait × List Envelope :=
  match row.resumeToken with
  | none => ([], [])
  | some token =>
    if row.nodeType = "delay" ∨ waitingReason = some "delay_until" then
      let resumeAt := ((output.get "resume_at").bind parseResumeAt).getD (now + 1000000)
      ([{ id := waitId, nodeRun := id, resumeToken := token, waitType := .delay
          wakeAt := some resumeAt, payload := [("resume_at", .str (isoFormat resumeAt))] }],
        [scheduleFastWake now token resumeAt "elapsed" []])
    else if row.nodeType = "wait" ∨ waitingReason = some "event_pending" then
      let wakeAt := (timeoutSeconds output).map fun seconds ↦ now + seconds * 1000000
      let timeoutAction := (timeoutSeconds output).map fun _ ↦ onTimeoutText render output "fail"
      let eventKey := waitEventKey render output
      ([{ id := waitId, nodeRun := id, resumeToken := token, waitType := .event
          wakeAt := wakeAt, eventKey := eventKey, timeoutAction := timeoutAction
          payload := [("event", (output.get "event").getD .null),
            ("correlation_key", (eventKey.map Json.str).getD .null)] }],
        (wakeAt.map fun due ↦ scheduleFastWake now token due "expired"
          [("on_timeout", .str ((timeoutAction.filter (· ≠ "")).getD "fail"))]).toList)
    else if row.nodeType = "approval" ∨ waitingReason = some "approval_pending" then
      let wakeAt := now + (timeoutSeconds output).getD 86400 * 1000000
      let onTimeout := onTimeoutText render output "stop"
      let requestId := (output.get "approval_request_id").getD .null
      ([{ id := waitId, nodeRun := id, resumeToken := token, waitType := .event
          wakeAt := some wakeAt
          eventKey := if requestId.truthy then some s!"approval:{requestId.text render}" else none
          timeoutAction := some (if onTimeout = "continue" then "continue" else "fail")
          payload := [("kind", .str "approval_timeout"), ("approval_request_id", requestId),
            ("on_timeout", .str onTimeout)] }],
        [scheduleFastWake now token wakeAt "expired" [("on_timeout", .str onTimeout)]])
    else ([], [])

/-- `mark_wait_resolved` on one wait. -/
def Wait.resolve (now : Time) (outcome : String) (payloadUpdate : JsonObject) (wait : Wait) :
    Wait :=
  { wait with
    status := .resolved
    resolvedAt := some now
    resolvedOutcome := some outcome
    payload := wait.payload.update payloadUpdate }

/-- `mark_wait_resolved_by_resume_token`: the query fails when two pending waits share the token. -/
def markWaitResolvedByResumeToken (now : Time) (resumeToken : ℕ) (outcome : String)
    (payloadUpdate : JsonObject) (waits : List Wait) : Except PyException (List Wait) :=
  let isPending (wait : Wait) : Bool := wait.resumeToken = resumeToken ∧ wait.status = .pending
  match waits.filter isPending with
  | [] => .ok waits
  | [pending] =>
    .ok (waits.map fun wait ↦
      if wait.id = pending.id then wait.resolve now outcome payloadUpdate else wait)
  | _ => .error
      { className := "MultipleResultsFound"
        message := "Multiple rows were found when one or none was required" }

/-- `resolve_wait_by_event_key` on the waits of this run, with the token of the wait it resolves: the
query fails when two pending waits share the key. -/
def resolveWaitByEventKey (now : Time) (eventKey : String) (payload : JsonObject)
    (waits : List Wait) : Except PyException (Option ℕ × List Wait) :=
  let isPending (wait : Wait) : Bool := wait.eventKey = some eventKey ∧ wait.status = .pending
  match waits.filter isPending with
  | [] => .ok (none, waits)
  | [pending] =>
    .ok (some pending.resumeToken, waits.map fun wait ↦
      if wait.id = pending.id then
        wait.resolve now "received" [("event_payload", .obj payload)]
      else wait)
  | _ => .error
      { className := "MultipleResultsFound"
        message := "Multiple rows were found when one or none was required" }

/-- The pending waits of the run whose time has come, in the order they are due. The batch is shared
with other runs, so the number of waits it has room for is an argument. -/
def dueWaits (now : Time) (limit : ℕ) (waits : List Wait) : List Wait :=
  ((waits.filter fun wait ↦ wait.status = .pending ∧ wait.wakeAt.any (· ≤ now)).insertionSort
    fun a b ↦ a.wakeAt.getD 0 ≤ b.wakeAt.getD 0).take limit

/-- The outcome `claim_due_waits` records. -/
def Wait.dueOutcome (wait : Wait) : String :=
  match wait.waitType with
  | .delay => "elapsed"
  | .event => "expired"

/-- The decision `wake_due_workflow_waits` sends with the resume message. -/
def Wait.dueDecision (wait : Wait) : JsonObject :=
  if wait.dueOutcome ≠ "expired" then []
  else
    let onTimeout := (wait.payload.getTruthy "on_timeout").or
      (wait.timeoutAction.map Json.str)
    match onTimeout with
    | none => []
    | some (.str action) =>
      if action = "fail" then [("on_timeout", .str "stop")]
      else if action = "" then [] else [("on_timeout", .str action)]
    | some other => if other.truthy then [("on_timeout", other)] else []

end ContentGenerator.Workflows
