import ContentGenerator.Lib.PyValue

/-!
# Graphs and the node contract

The persisted graph format (`graph_schema.py`) and the contract of a registered node (`nodes/base.py`). A node
implementation is what the registry holds for a type and a version: its ports, its retry policy, and the three
Pydantic validators, which are functions supplied from outside. What `execute` does is not part of it: every
step of the engine takes its outcome as an argument.

`catalogue` lists the control-flow, approval, publishing and text nodes with the ports and flags of
their classes. Its validators accept what they are given, which is what the Pydantic models do on the
complete dictionaries the runs below use.
-/

namespace ContentGenerator.Workflows

open Lib

variable {nodeId : String}

/-! ### The graph -/

/-- Where a declarative input binding reads its value. -/
inductive BindingSource
  | trigger | workflowInput | constant | context | node
  deriving DecidableEq

/-- A declarative input source for a target port. -/
structure InputBinding where
  source : BindingSource
  path : Option String := none
  value : Json := .null
  nodeId : Option String := none
  port : Option String := none

structure GraphNode where
  id : String
  type : String
  version : ℕ := 1
  config : JsonObject := []
  inputBindings : List (String × InputBinding) := []

/-- An edge of the persisted graph; `condition` is the branch label. -/
structure GraphEdge where
  source : String
  target : String
  condition : Option String := none
  sourcePort : Option String := none
  targetPort : Option String := none
  deriving DecidableEq

structure WorkflowGraph where
  schemaVersion : ℕ := 1
  nodes : List GraphNode
  edges : List GraphEdge
  metadata : JsonObject := []

namespace WorkflowGraph

/-- `next((n for n in graph.nodes if n.id == node_id), None)`. -/
def node? (g : WorkflowGraph) (nodeId : String) : Option GraphNode :=
  g.nodes.find? fun node ↦ node.id = nodeId

/-- `predecessors(graph).get(node_id, [])`: the incoming edges in graph order. -/
def predecessors (g : WorkflowGraph) (nodeId : String) : List GraphEdge :=
  g.edges.filter fun edge ↦ edge.target = nodeId

/-- `successors(graph).get(node_id, [])`: the outgoing edges in graph order. -/
def successors (g : WorkflowGraph) (nodeId : String) : List GraphEdge :=
  g.edges.filter fun edge ↦ edge.source = nodeId

/-- `root_node_ids(graph)`. -/
def rootNodeIds (g : WorkflowGraph) : List String :=
  (g.nodes.map GraphNode.id).filter fun nodeId ↦ nodeId ∉ g.edges.map GraphEdge.target

theorem mem_predecessors {g : WorkflowGraph} {edge : GraphEdge} :
    edge ∈ g.predecessors nodeId ↔ edge ∈ g.edges ∧ edge.target = nodeId := by
  simp [predecessors]

theorem mem_successors {g : WorkflowGraph} {edge : GraphEdge} :
    edge ∈ g.successors nodeId ↔ edge ∈ g.edges ∧ edge.source = nodeId := by
  simp [successors]

theorem node?_isSome_iff {g : WorkflowGraph} :
    (g.node? nodeId).isSome ↔ nodeId ∈ g.nodes.map GraphNode.id := by
  simp [node?, List.find?_isSome]

theorem id_of_node? {g : WorkflowGraph} {node : GraphNode}
    (h : g.node? nodeId = some node) : node.id = nodeId := by
  simpa using List.find?_some h

/-- `target` is reached from `source` along at least one edge. -/
def Ancestor (g : WorkflowGraph) (source target : String) : Prop :=
  Relation.TransGen (fun a b ↦ ∃ edge ∈ g.edges, edge.source = a ∧ edge.target = b) source target

end WorkflowGraph

/-! ### Node results and implementations -/

/-- An exception as the engine sees it: class name, message, the HTTP status of an
`HTTPException`, and the two classes the retry classification tests for. -/
structure PyException where
  className : String
  message : String
  statusCode : Option ℕ := none
  isTimeoutError : Bool := false
  isOsError : Bool := false

/-- `HTTPException(status_code, detail)`; its text has both. -/
def httpException (statusCode : ℕ) (detail : String) : PyException :=
  { className := "HTTPException", message := toString statusCode ++ ": " ++ detail, statusCode := some statusCode }

/-- `NodeResult.status`. -/
inductive NodeResultStatus
  | succeeded | failed | waiting | skipped
  deriving DecidableEq

/-- What `execute` returns. -/
structure NodeResult where
  status : NodeResultStatus
  output : JsonObject := []
  error : Option JsonObject := none
  waitingReason : Option String := none

structure NodePort where
  name : String
  dataType : String
  required : Bool := true

structure RetryPolicyDefaults where
  maxAttempts : ℕ := 3
  backoffSeconds : ℚ := 2
  maxBackoffSeconds : ℚ := 300
  retryOn : List String := ["transient", "rate_limited", "timeout", "provider_unavailable"]

inductive NodeImplementationStatus
  | stable | beta | unavailable
  deriving DecidableEq

def NodeImplementationStatus.value : NodeImplementationStatus → String
  | .stable => "stable"
  | .beta => "beta"
  | .unavailable => "unavailable"

structure NodeImpl where
  type : String
  version : ℕ := 1
  category : String
  implementationStatus : NodeImplementationStatus := .stable
  inputPorts : List NodePort := []
  outputPorts : List NodePort := []
  requiredCapabilities : List String := []
  mayPause : Bool := false
  retryPolicy : RetryPolicyDefaults := {}
  validateConfig : JsonObject → Except PyException JsonObject := .ok
  validateInputs : JsonObject → Except PyException JsonObject := .ok
  validateOutput : JsonObject → Except PyException JsonObject := .ok

def NodeImpl.isExecutable (impl : NodeImpl) : Bool :=
  impl.implementationStatus ≠ .unavailable

/-- The registry: at most one implementation is looked up per type and version. -/
structure WorkflowNodeRegistry where
  nodes : List NodeImpl

/-- `WorkflowNodeRegistry.get` with an explicit version. -/
def WorkflowNodeRegistry.get (registry : WorkflowNodeRegistry) (type : String) (version : ℕ) :
    Option NodeImpl :=
  registry.nodes.find? fun impl ↦ impl.type = type ∧ impl.version = version

/-! ### The catalogue -/

/-- The node classes the runs below use, with the ports and flags of their source. -/
def catalogue : WorkflowNodeRegistry where
  nodes :=
    [{ type := "manual_trigger", category := "triggers"
       inputPorts := [⟨"payload", "object", false⟩]
       outputPorts := [⟨"payload", "object", true⟩, ⟨"trigger_type", "string", true⟩] },
     { type := "summarize", category := "ai_content"
       requiredCapabilities := ["llm"]
       inputPorts := [⟨"text", "string", true⟩]
       outputPorts := [⟨"text", "string", true⟩, ⟨"provider", "string", true⟩] },
     { type := "condition", category := "control"
       inputPorts := [⟨"value", "any", false⟩, ⟨"payload", "object", false⟩]
       outputPorts := [⟨"branch", "string", true⟩, ⟨"matched", "boolean", true⟩,
         ⟨"evaluated_value", "any", false⟩] },
     { type := "fan_out", category := "control"
       inputPorts := [⟨"items", "array", false⟩, ⟨"social_account_ids", "array", false⟩]
       outputPorts := [⟨"items", "array", true⟩, ⟨"count", "number", true⟩,
         ⟨"mode", "string", true⟩] },
     { type := "merge", category := "control"
       inputPorts := [⟨"sources", "array", false⟩, ⟨"bag", "object", false⟩]
       outputPorts := [⟨"merged", "object", true⟩, ⟨"sources", "array", true⟩,
         ⟨"source_count", "number", true⟩] },
     { type := "delay", category := "control", mayPause := true
       outputPorts := [⟨"resume_at", "string", true⟩, ⟨"scheduled", "boolean", true⟩,
         ⟨"status", "string", true⟩] },
     { type := "wait", category := "control", mayPause := true
       inputPorts := [⟨"correlation_key", "string", false⟩, ⟨"payload", "object", false⟩]
       outputPorts := [⟨"status", "string", true⟩, ⟨"event", "string", true⟩,
         ⟨"event_payload", "object", false⟩] },
     { type := "approval", category := "human", mayPause := true
       inputPorts := [⟨"content_job_id", "uuid", true⟩]
       outputPorts := [⟨"approval_request_id", "uuid", false⟩, ⟨"status", "string", true⟩,
         ⟨"channels", "array", true⟩, ⟨"content_job_id", "uuid", false⟩,
         ⟨"revision_count", "number", false⟩] },
     { type := "publish", category := "distribution"
       requiredCapabilities := ["publish"]
       inputPorts := [⟨"content_job_id", "uuid", true⟩, ⟨"social_account_ids", "array", false⟩,
         ⟨"content_variant_ids", "array", false⟩, ⟨"approval_request_id", "uuid", false⟩]
       outputPorts := [⟨"job_ids", "array", true⟩, ⟨"statuses", "array", true⟩,
         ⟨"dry_run", "boolean", true⟩, ⟨"content_variant_ids", "array", true⟩] }]

end ContentGenerator.Workflows
