import Mathlib.Data.List.Sort
import ContentGenerator.Lib.KeyedTable
import ContentGenerator.Workflows.Nodes

/-!
# Durable run state and its index

The rows of one workflow run (`run_models.py`) and the lookups of `NodeRunIndex`
(`engine_node_index.py`). The uniqueness constraint on `(node_id, iteration_key)` makes the pair the
key of a node row: the state holds the rows in a `KeyedTable`, in creation order, and the pair also
stands for the row's primary key. An empty iteration key is the non-iterated row of a node, its
placeholder once a fan-out has spawned iterations.

Times are in microseconds. Tokens and wait ids are natural numbers drawn from a counter, so no token
is handed out twice. The outbox holds the messages sent to the broker with the earliest time each may
be delivered.
-/

namespace ContentGenerator.Workflows

open Lib List Option

abbrev Time := ℕ

/-- `WorkflowRunStatus`. -/
inductive RunStatus
  | queued | running | waiting | succeeded | failed | cancelled
  deriving DecidableEq

/-- `WorkflowNodeRunStatus`. -/
inductive NodeStatus
  | pending | ready | queued | running | waiting | succeeded | failed | skipped | cancelled
  deriving DecidableEq

namespace NodeStatus

def value : NodeStatus → String
  | .pending => "pending"
  | .ready => "ready"
  | .queued => "queued"
  | .running => "running"
  | .waiting => "waiting"
  | .succeeded => "succeeded"
  | .failed => "failed"
  | .skipped => "skipped"
  | .cancelled => "cancelled"

/-- `_SUCCESS`: the row no longer holds its successors back. -/
def isSuccess (status : NodeStatus) : Bool := status = .succeeded ∨ status = .skipped

/-- `_OPEN`. -/
def isOpen (status : NodeStatus) : Bool :=
  status = .pending ∨ status = .ready ∨ status = .queued ∨ status = .running ∨ status = .waiting

/-- `_TERMINAL`. -/
def isTerminal (status : NodeStatus) : Bool :=
  status.isSuccess ∨ status = .failed ∨ status = .cancelled

/-- `_SKIPPABLE`: no worker has begun the row. -/
def isSkippable (status : NodeStatus) : Bool :=
  status = .pending ∨ status = .ready ∨ status = .queued

/-- `_ACTIVE_NODE`: the row is claimed. -/
def isClaimed (status : NodeStatus) : Bool := status = .queued ∨ status = .running

end NodeStatus

/-- The unique key of a node row within its run. -/
structure RowId where
  nodeId : String
  iterationKey : String
  deriving DecidableEq

/-- `WorkflowNodeRun`, without the key columns. -/
structure NodeRun where
  nodeType : String
  nodeVersion : ℕ
  status : NodeStatus
  attempt : ℕ := 0
  inputJson : JsonObject := []
  outputJson : JsonObject := []
  errorJson : Option JsonObject := none
  taskExecutionId : Option ℕ := none
  taskExecutionIds : List ℕ := []
  startedAt : Option Time := none
  finishedAt : Option Time := none
  waitingReason : Option String := none
  resumeToken : Option ℕ := none
  claimToken : Option ℕ := none
  claimExpiresAt : Option Time := none
  claimedAt : Option Time := none
  workerTaskId : Option String := none
  nextAttemptAt : Option Time := none
  lastHeartbeatAt : Option Time := none
  executionKey : Option String := none
  lastError : Option String := none
  errorClass : Option String := none
  cancellationRequested : Bool := false

/-- `WorkflowRun`. -/
structure Run where
  status : RunStatus := .queued
  triggerPayload : JsonObject := []
  contextSnapshot : JsonObject := []
  startedAt : Option Time := none
  finishedAt : Option Time := none
  errorMessage : Option String := none

/-- `WorkflowWaitStatus`. -/
inductive WaitStatus
  | pending | resolved | cancelled
  deriving DecidableEq

/-- `WorkflowWaitType`. -/
inductive WaitType
  | delay | event
  deriving DecidableEq

/-- `WorkflowWait`. -/
structure Wait where
  id : ℕ
  nodeRun : RowId
  resumeToken : ℕ
  waitType : WaitType
  eventKey : Option String := none
  wakeAt : Option Time := none
  status : WaitStatus := .pending
  timeoutAction : Option String := none
  payload : JsonObject := []
  resolvedAt : Option Time := none
  resolvedOutcome : Option String := none

inductive Message
  | advance
  | execute (nodeRun : RowId) (claimToken : ℕ)
  | resume (resumeToken : ℕ) (outcome : String) (decision : JsonObject)

/-- A message sent to the broker, with the earliest time it may be delivered. -/
structure Envelope where
  earliest : Time
  message : Message

abbrev NodeTable := KeyedTable RowId NodeRun

/-- The durable state of one run, with the messages in flight. -/
structure EngineState where
  run : Run
  nodes : NodeTable
  waits : List Wait := []
  outbox : List Envelope := []
  nextToken : ℕ := 0

namespace NodeTable

/-- `_by_node[node_id]`: the rows of a node in the order of their iteration keys. -/
def rowsOf (t : NodeTable) (nodeId : String) : List (RowId × NodeRun) :=
  (t.entries.filter fun entry ↦ entry.1.nodeId = nodeId).insertionSort
    fun a b ↦ a.1.iterationKey ≤ b.1.iterationKey

/-- `NodeRunIndex.get`: the non-iterated row of a node, else its first row. -/
def get (t : NodeTable) (nodeId : String) : Option (RowId × NodeRun) :=
  let rows := t.rowsOf nodeId
  (rows.find? fun entry ↦ entry.1.iterationKey = "").or rows.head?

def getIteration (t : NodeTable) (nodeId iterationKey : String) : Option NodeRun :=
  t.find ⟨nodeId, iterationKey⟩

/-- `NodeRunIndex.iterations`: the iteration rows when there are any, else the placeholder. -/
def iterations (t : NodeTable) (nodeId : String) : List (RowId × NodeRun) :=
  let real := (t.rowsOf nodeId).filter fun entry ↦ entry.1.iterationKey ≠ ""
  if real.isEmpty then (t.rowsOf nodeId).filter fun entry ↦ entry.1.iterationKey = "" else real

variable {t : NodeTable} {nodeId : String} {entry : RowId × NodeRun}

theorem mem_rowsOf :
    entry ∈ t.rowsOf nodeId ↔ t.find entry.1 = some entry.2 ∧ entry.1.nodeId = nodeId := by
  unfold rowsOf
  rw [(perm_insertionSort _ _).mem_iff, mem_filter, KeyedTable.find_eq_some_iff]
  simp

/-- The rows `iterations` returns: those with a key when one exists, else the one without. -/
theorem mem_iterations :
    entry ∈ t.iterations nodeId ↔ entry ∈ t.rowsOf nodeId ∧
      (entry.1.iterationKey = "" → ∀ other ∈ t.rowsOf nodeId, other.1.iterationKey = "") := by
  unfold iterations
  by_cases hreal : ((t.rowsOf nodeId).filter fun entry ↦ entry.1.iterationKey ≠ "").isEmpty
  · rw [if_pos hreal]
    have hnone : ∀ other ∈ t.rowsOf nodeId, other.1.iterationKey = "" := by
      simpa [List.isEmpty_iff, filter_eq_nil_iff] using hreal
    simp only [mem_filter, decide_eq_true_eq]
    exact ⟨fun h ↦ ⟨h.1, fun _ ↦ hnone⟩, fun h ↦ ⟨h.1, hnone _ h.1⟩⟩
  · rw [if_neg hreal]
    have hsome : ∃ other ∈ t.rowsOf nodeId, other.1.iterationKey ≠ "" := by
      simpa [List.isEmpty_iff, filter_eq_nil_iff] using hreal
    obtain ⟨other, hother, hkey⟩ := hsome
    simp only [mem_filter, decide_eq_true_eq]
    refine and_congr_right fun _ ↦ ⟨fun h hempty ↦ absurd hempty h, fun h hempty ↦ ?_⟩
    exact hkey (h hempty other hother)

theorem get_eq_some (h : t.get nodeId = some entry) : t.find entry.1 = some entry.2 ∧ entry.1.nodeId = nodeId := by
  unfold get at h
  rw [← mem_rowsOf]
  rcases or_eq_some_iff.mp h with hfound | ⟨-, hhead⟩
  · exact mem_of_find?_eq_some hfound
  · exact mem_of_mem_head? hhead

/-- A node with a non-iterated row is represented by it. -/
theorem get_of_find {row : NodeRun} (h : t.find ⟨nodeId, ""⟩ = some row) : t.get nodeId = some (⟨nodeId, ""⟩, row) := by
  have hmem : ((⟨nodeId, ""⟩, row) : RowId × NodeRun) ∈ t.rowsOf nodeId := mem_rowsOf.mpr ⟨h, rfl⟩
  have hsome : ((t.rowsOf nodeId).find? fun entry ↦ entry.1.iterationKey = "").isSome := by
    rw [find?_isSome]
    exact ⟨_, hmem, by simp⟩
  obtain ⟨found, hfound⟩ := isSome_iff_exists.mp hsome
  have hrow := mem_rowsOf.mp (mem_of_find?_eq_some hfound)
  have hkey : found.1.iterationKey = "" := by simpa using find?_some hfound
  have hid : found.1 = ⟨nodeId, ""⟩ := by
    obtain ⟨⟨foundNode, foundKey⟩, foundRow⟩ := found
    simp_all
  have hvalue : found = (⟨nodeId, ""⟩, row) := by
    refine Prod.ext hid ?_
    rw [hid, h] at hrow
    exact (Option.some.inj hrow.1).symm
  simp only [get, hfound, hvalue, some_or]

/-! ### Lookups after a rewrite of values -/

theorem rowsOf_mapValues (t : NodeTable) (f : RowId → NodeRun → NodeRun) (nodeId : String) :
    NodeTable.rowsOf (t.mapValues f) nodeId =
      (t.rowsOf nodeId).map fun entry ↦ (entry.1, f entry.1 entry.2) := by
  unfold rowsOf
  rw [map_insertionSort (fun a b : RowId × NodeRun ↦ a.1.iterationKey ≤ b.1.iterationKey)
    (fun a b : RowId × NodeRun ↦ a.1.iterationKey ≤ b.1.iterationKey)
    (fun entry ↦ (entry.1, f entry.1 entry.2)) _ (fun _ _ _ _ ↦ Iff.rfl)]
  simp only [KeyedTable.mapValues, List.filter_map]
  rfl

theorem get_mapValues (t : NodeTable) (f : RowId → NodeRun → NodeRun) (nodeId : String) :
    NodeTable.get (t.mapValues f) nodeId =
      (t.get nodeId).map fun entry ↦ (entry.1, f entry.1 entry.2) := by
  simp only [get, rowsOf_mapValues, find?_map, head?_map, Function.comp_def]
  cases (t.rowsOf nodeId).find? fun entry ↦ entry.1.iterationKey = "" <;> simp

theorem iterations_mapValues (t : NodeTable) (f : RowId → NodeRun → NodeRun) (nodeId : String) :
    NodeTable.iterations (t.mapValues f) nodeId =
      (t.iterations nodeId).map fun entry ↦ (entry.1, f entry.1 entry.2) := by
  simp only [iterations, rowsOf_mapValues, List.filter_map, Function.comp_def, isEmpty_map]
  split_ifs <;> rfl

theorem get_modify (t : NodeTable) (id : RowId) (f : NodeRun → NodeRun) (nodeId : String) :
    NodeTable.get (t.modify id f) nodeId =
      (t.get nodeId).map fun entry ↦ (entry.1, if entry.1 = id then f entry.2 else entry.2) :=
  get_mapValues t _ nodeId

/-- A rewrite of one row leaves the lookup of another node alone. -/
theorem get_modify_of_ne (t : NodeTable) {id : RowId} (f : NodeRun → NodeRun)
    (h : nodeId ≠ id.nodeId) : NodeTable.get (t.modify id f) nodeId = t.get nodeId := by
  rw [get_modify]
  cases hfound : t.get nodeId with
  | none => rfl
  | some entry =>
    have hnode := (get_eq_some hfound).2
    have hid : entry.1 ≠ id := by
      rintro rfl
      exact h hnode.symm
    simp [hid]

end NodeTable

end ContentGenerator.Workflows
