import Mathlib.Data.List.Sort
import ContentGenerator.Workflows.Nodes

/-!
# The graph compiler

`WorkflowCompiler.validate_graph` and its checks (`compiler.py`, `compiler_checks.py`,
`compiler_control.py`, `compiler_semantics.py`) on a parsed graph. A graph is valid when no check
reports an error, and only valid graphs are published or run.

The depth-first cycle search and the breadth-first searches take a fuel argument; the fuel given at
the call is the bound on the number of calls, respectively of queue pops, that the search can make.

The capability tags of the selected accounts (`enrich_compile_context`,
`_available_capability_tags`) are a function of the compile context supplied from outside.
-/

namespace ContentGenerator.Workflows

open Lib Prod

structure WorkflowCompileError where
  code : String
  message : String
  nodeId : Option String := none
  nodeType : Option String := none

/-- The compile-time binding of a graph to accounts and policy flags. -/
structure CompileContext where
  socialAccountIds : List String := []
  accountCapabilities : List (String × List String) := []
  accountPlatformCapabilities : List (String × JsonObject) := []
  accountPlatforms : List (String × String) := []
  accountStatuses : List (String × String) := []
  requirePublishTargets : Bool := true
  allowMultipleTriggers : Bool := false
  requireApprovalBeforePublish : Bool := true
  requireCapabilityCheck : Bool := false

/-- The implementations resolved for the nodes of a graph, keyed by node id. -/
abbrev Resolved := List (String × NodeImpl)

/-- `resolved[node_id] = impl`. -/
def Resolved.assign (resolved : Resolved) (nodeId : String) (impl : NodeImpl) : Resolved :=
  if resolved.any fun entry ↦ entry.1 = nodeId then
    resolved.map fun entry ↦ if entry.1 = nodeId then (nodeId, impl) else entry
  else resolved ++ [(nodeId, impl)]

/-- `resolved.get(node_id)`. -/
def Resolved.get (resolved : Resolved) (nodeId : String) : Option NodeImpl :=
  (resolved.find? fun entry ↦ entry.1 = nodeId).map snd

namespace Compiler

/-! ### Structural checks -/

/-- `find_duplicate_node_ids`, with the ids seen so far. -/
def findDuplicateNodeIds : List String → List GraphNode → List WorkflowCompileError
  | _, [] => []
  | seen, node :: rest =>
    if node.id ∈ seen then
      { code := "duplicate_node_id", message := s!"duplicate node id '{node.id}'"
        nodeId := some node.id, nodeType := some node.type } :: findDuplicateNodeIds seen rest
    else findDuplicateNodeIds (node.id :: seen) rest

def validateEdges (g : WorkflowGraph) (nodeIds : List String) : List WorkflowCompileError :=
  g.edges.flatMap fun edge ↦
    (if edge.source ∉ nodeIds then
      [{ code := "dangling_edge_source", message := s!"edge source '{edge.source}' does not exist"
         nodeId := some edge.source }]
    else []) ++
    (if edge.target ∉ nodeIds then
      [{ code := "dangling_edge_target", message := s!"edge target '{edge.target}' does not exist"
         nodeId := some edge.target }]
    else []) ++
    (if edge.source ≠ "" ∧ edge.target ≠ "" ∧ edge.source = edge.target then
      [{ code := "self_edge"
         message := s!"edge cannot connect node '{edge.source}' to itself"
         nodeId := some edge.source }]
    else [])

/-- The adjacency lists over declared nodes, in edge order. -/
def adjacency (nodeIds : List String) (edges : List GraphEdge) (nodeId : String) : List String :=
  (edges.filter fun edge ↦
    edge.source = nodeId ∧ edge.source ∈ nodeIds ∧ edge.target ∈ nodeIds).map GraphEdge.target

/-- The state of the cycle search: the nodes finished so far and the errors reported. -/
structure DfsState where
  visited : List String := []
  errors : List WorkflowCompileError := []

/-- `_dfs`. The set `visiting` is the set of nodes on the stack. -/
def dfs (next : String → List String) : ℕ → List String → String → DfsState → DfsState
  | 0, _, _, state => state
  | fuel + 1, stack, nodeId, state =>
    if nodeId ∈ stack then
      let cycle := " -> ".intercalate (stack.dropWhile (· ≠ nodeId) ++ [nodeId])
      { state with errors := state.errors ++
          [{ code := "cycle_detected", message := s!"workflow graph contains a cycle: {cycle}"
             nodeId := some nodeId }] }
    else if nodeId ∈ state.visited then state
    else
      let explored := (next nodeId).foldl
        (fun acc successor ↦ dfs next fuel (stack ++ [nodeId]) successor acc) state
      { explored with visited := explored.visited ++ [nodeId] }

/-- The search of `detect_cycles` from every node in turn. -/
def searchCycles (nodeIds : List String) (edges : List GraphEdge) : DfsState :=
  (nodeIds.insertionSort (· ≤ ·)).foldl (fun acc nodeId ↦
    if nodeId ∈ acc.visited then acc
    else dfs (adjacency nodeIds edges) (nodeIds.length + 1) [] nodeId acc) {}

def detectCycles (nodeIds : List String) (edges : List GraphEdge) : List WorkflowCompileError :=
  (searchCycles nodeIds edges).errors

/-- The breadth-first search of `find_unreachable`: the nodes seen from a queue. -/
def bfs (next : String → List String) : ℕ → List String → List String → List String
  | 0, _, seen => seen
  | _ + 1, [], seen => seen
  | fuel + 1, current :: queue, seen =>
    if current ∈ seen then bfs next fuel queue seen
    else
      let seen := seen ++ [current]
      bfs next fuel (queue ++ (next current).filter (· ∉ seen)) seen

def findUnreachable (nodeIds : List String) (edges : List GraphEdge) (roots : List String) :
    List WorkflowCompileError :=
  if nodeIds.isEmpty then []
  else if roots.isEmpty then
    [{ code := "unreachable_nodes", message := "no trigger/root nodes; all nodes are unreachable" }]
  else
    let seen := bfs (adjacency nodeIds edges) (roots.length + edges.length + 1)
      (roots.insertionSort (· ≤ ·)) []
    ((nodeIds.insertionSort (· ≤ ·)).filter (· ∉ seen)).map fun nodeId ↦
      { code := "unreachable_node", message := s!"node '{nodeId}' is unreachable from trigger roots"
        nodeId := some nodeId }

/-- The aliases of `types_compatible`. -/
def typeAlias (name : String) : String :=
  if name = "str" ∨ name = "text" then "string"
  else if name = "int" ∨ name = "float" then "number"
  else if name = "bool" then "boolean"
  else if name = "list" then "array"
  else name

def typesCompatible (sourceType targetType : String) : Bool :=
  let src := pyLower (pyStrip sourceType)
  let dst := pyLower (pyStrip targetType)
  if src ∈ ["any", "object"] ∨ dst ∈ ["any", "object"] then true
  else if src = dst then true
  else if typeAlias src = typeAlias dst then true
  else if typeAlias src ∈ ["string", "uuid"] ∧ typeAlias dst ∈ ["string", "uuid"] then true
  else typeAlias src = "array" ∧ "array".toList.isPrefixOf (typeAlias dst).toList

def anyCompatible (outputs inputs : List NodePort) : Bool :=
  outputs.any fun out ↦ inputs.any fun inp ↦ typesCompatible out.dataType inp.dataType

/-- The port check of one edge between resolved nodes. -/
def portErrors (edge : GraphEdge) (source target : NodeImpl) : List WorkflowCompileError :=
  if source.outputPorts.isEmpty ∨ target.inputPorts.isEmpty then []
  else
    let named (name : Option String) (ports : List NodePort) : List NodePort :=
      match name.filter (· ≠ "") with
      | none => ports
      | some portName => ports.filter fun port ↦ port.name = portName
    let outPorts := named edge.sourcePort source.outputPorts
    let inPorts := named edge.targetPort target.inputPorts
    if outPorts.isEmpty then
      [{ code := "unknown_source_port"
         message :=
          let port := edge.sourcePort.getD ""
          s!"source port '{port}' not on '{edge.source}'"
         nodeId := some edge.source, nodeType := some source.type }]
    else if inPorts.isEmpty then
      [{ code := "unknown_target_port"
         message :=
          let port := edge.targetPort.getD ""
          s!"target port '{port}' not on '{edge.target}'"
         nodeId := some edge.target, nodeType := some target.type }]
    else
      let required := inPorts.filter NodePort.required
      let requiredInputs := if required.isEmpty then inPorts else required
      if anyCompatible outPorts requiredInputs then []
      else
        [{ code := "incompatible_ports"
           message := s!"no compatible port types from '{edge.source}' ({source.type}) " ++
             s!"to '{edge.target}' ({target.type})"
           nodeId := some edge.target, nodeType := some target.type }]

def validatePortCompatibility (edges : List GraphEdge) (resolved : Resolved) :
    List WorkflowCompileError :=
  edges.flatMap fun edge ↦
    match resolved.get edge.source, resolved.get edge.target with
    | some source, some target => portErrors edge source target
    | _, _ => []

def bindingErrors (nodeIds : List String) (node : GraphNode) (portNames : List String)
    (targetPort : String) (binding : InputBinding) : List WorkflowCompileError :=
  let report (code message : String) : WorkflowCompileError :=
    { code := code, message := message, nodeId := some node.id, nodeType := some node.type }
  (if ¬ portNames.isEmpty ∧ targetPort ∉ portNames then
    [report "unknown_binding_target"
      s!"input binding target '{targetPort}' is not an input port on '{node.id}'"]
  else []) ++
  (if binding.source = .node then
    match binding.nodeId.filter (· ≠ "") with
    | none => [report "invalid_binding" s!"binding '{targetPort}' missing node_id"]
    | some nodeId =>
      if nodeId ∉ nodeIds then
        [report "invalid_binding" s!"binding '{targetPort}' references unknown node '{nodeId}'"]
      else []
  else []) ++
  (if binding.source = .constant ∧ (binding.value matches .null) ∧
      (binding.path.filter (· ≠ "")).isNone then
    [report "invalid_binding" s!"constant binding '{targetPort}' requires value"]
  else [])

def validateInputBindings (g : WorkflowGraph) (resolved : Resolved) : List WorkflowCompileError :=
  g.nodes.flatMap fun node ↦
    let portNames := ((resolved.get node.id).map fun impl ↦
      impl.inputPorts.map NodePort.name).getD []
    node.inputBindings.flatMap fun entry ↦
      bindingErrors (g.nodes.map GraphNode.id) node portNames entry.1 entry.2

/-! ### Control flow and semantics -/

def conditionErrors (nodeId : String) (outs : List GraphEdge) : List WorkflowCompileError :=
  let report (code message : String) : WorkflowCompileError :=
    { code := code, message := message, nodeId := some nodeId, nodeType := some "condition" }
  if outs.length < 2 then
    [report "condition_requires_branches"
      s!"condition '{nodeId}' requires at least two outgoing edges"]
  else
    let labels := outs.map GraphEdge.condition
    let stripped := labels.filterMap fun label ↦ (label.filter (· ≠ "")).map pyStrip
    (if labels.any fun label ↦ pyStrip (label.getD "") = "" then
      [report "condition_edge_labels_required"
        s!"condition '{nodeId}' outgoing edges must each set condition labels"]
    else []) ++
    (if ¬ stripped.Nodup then
      [report "condition_duplicate_labels"
        s!"condition '{nodeId}' has duplicate edge condition labels"]
    else [])

def controlFlowErrors (g : WorkflowGraph) (nodeId : String) (impl : NodeImpl) :
    List WorkflowCompileError :=
  if impl.type = "condition" then conditionErrors nodeId (g.successors nodeId)
  else if impl.type = "merge" then
    if (g.predecessors nodeId).length < 1 then
      [{ code := "merge_requires_inputs"
         message := s!"merge '{nodeId}' requires at least one incoming edge"
         nodeId := some nodeId, nodeType := some "merge" }]
    else []
  else if impl.type = "fan_out" then
    match g.successors nodeId with
    | [out] =>
      if out.condition.isSome then
        [{ code := "fan_out_unconditional_edge"
           message := s!"fan_out '{nodeId}' outgoing edge must be unconditional"
           nodeId := some nodeId, nodeType := some "fan_out" }]
      else []
    | _ =>
      [{ code := "fan_out_single_successor"
         message := s!"fan_out '{nodeId}' must have exactly one outgoing edge " ++
           "(spawns one WorkflowNodeRun per item on that successor)"
         nodeId := some nodeId, nodeType := some "fan_out" }]
  else []

def validateControlFlow (g : WorkflowGraph) (resolved : Resolved) : List WorkflowCompileError :=
  resolved.flatMap fun entry ↦ controlFlowErrors g entry.1 entry.2

def isTrigger (impl : NodeImpl) : Bool :=
  impl.category = "triggers" ∨ "_trigger".toList.isSuffixOf impl.type.toList

/-- The trigger nodes of `collect_trigger_errors`. -/
def triggers (resolved : Resolved) : List String :=
  (resolved.filter fun entry ↦ isTrigger entry.2).map fst

/-- The errors of `collect_trigger_errors`. -/
def collectTriggerErrors (resolved : Resolved) (edges : List GraphEdge) (allowMultiple : Bool) :
    List WorkflowCompileError :=
  let found := resolved.filter fun entry ↦ isTrigger entry.2
  (found.filter fun entry ↦ entry.1 ∈ edges.map GraphEdge.target).map (fun entry ↦
    { code := "trigger_has_incoming_edge"
      message := s!"trigger '{entry.1}' must not have incoming edges"
      nodeId := some entry.1, nodeType := some entry.2.type }) ++
  (if found.isEmpty then
    [{ code := "missing_trigger", message := "workflow must include at least one trigger node" }]
  else if 1 < found.length ∧ ¬ allowMultiple then
    [{ code := "multiple_triggers"
       message := "multiple trigger roots are not allowed (" ++
         ", ".intercalate ((found.map fst).insertionSort (· ≤ ·)) ++ ")" }]
  else [])

/-- The breadth-first search of `_reachable`, which stops when a successor is the goal. -/
def reachableFrom (next : String → List String) (goal : String) :
    ℕ → List String → List String → Bool
  | 0, _, _ => false
  | _ + 1, [], _ => false
  | fuel + 1, current :: queue, seen =>
    if current ∈ seen then reachableFrom next goal fuel queue seen
    else if goal ∈ next current then true
    else
      let seen := seen ++ [current]
      reachableFrom next goal fuel (queue ++ (next current).filter (· ∉ seen)) seen

def reachable (edges : List GraphEdge) (start goal : String) : Bool :=
  start = goal ∨
    reachableFrom
      (fun nodeId ↦ (edges.filter fun edge ↦ edge.source = nodeId).map GraphEdge.target) goal
      (edges.length + 2) [start] []

def validateApprovalPlacement (resolved : Resolved) (edges : List GraphEdge)
    (requireBeforePublish : Bool) : List WorkflowCompileError :=
  let approvals := (resolved.filter fun entry ↦ entry.2.type = "approval").map fst
  let publishes := (resolved.filter fun entry ↦ entry.2.type = "publish").map fst
  publishes.flatMap fun publishId ↦ approvals.flatMap fun approvalId ↦
    if reachable edges publishId approvalId then
      [{ code := "approval_after_publish"
         message := s!"approval '{approvalId}' is downstream of publish '{publishId}'"
         nodeId := some approvalId, nodeType := some "approval" }]
    else if requireBeforePublish ∧ ¬ reachable edges approvalId publishId then
      [{ code := "approval_not_before_publish"
         message := s!"approval '{approvalId}' must precede publish '{publishId}' on some path"
         nodeId := some approvalId, nodeType := some "approval" }]
    else []

def validatePublishTargets (resolved : Resolved) (context : CompileContext) :
    List WorkflowCompileError :=
  if ¬ (resolved.any fun entry ↦ entry.2.type = "publish") then []
  else if ¬ context.requirePublishTargets then []
  else if ¬ context.socialAccountIds.isEmpty then []
  else
    [{ code := "missing_publish_targets"
       message := "Publish node requires one or more social_account_ids in compile context"
       nodeType := some "publish" }]

def hardRequired (capabilities : List String) : List String :=
  capabilities.filter (· ∉ ["chess"])

/-- `validate_capabilities`; `available` is the tag set of the enriched context. -/
def validateCapabilities (resolved : Resolved) (context : CompileContext)
    (available : List String) : List WorkflowCompileError :=
  if context.socialAccountIds.isEmpty then []
  else
    let hasMediaNodes := resolved.any fun entry ↦
      (hardRequired entry.2.requiredCapabilities).any
        (· ∈ ["video", "image", "audio", "tts", "text", "thread"])
    if available.isEmpty then
      if ¬ (context.requireCapabilityCheck ∨ hasMediaNodes) then []
      else
        [{ code := "unknown_capabilities"
           message := "selected accounts have unresolved platform capabilities; " ++
             "cannot validate media/runtime requirements" }]
    else
      (resolved.filter fun entry ↦
        ¬ (hardRequired entry.2.requiredCapabilities).all (· ∈ available)).map fun entry ↦
          let missing := (hardRequired entry.2.requiredCapabilities).filter (· ∉ available)
          { code := "incompatible_capabilities"
            message := s!"node '{entry.1}' requires capabilities [" ++ ", ".intercalate missing ++
              "] not provided by selected accounts"
            nodeId := some entry.1, nodeType := some entry.2.type }

def validateNodeExecutability (resolved : Resolved) : List WorkflowCompileError :=
  (resolved.filter fun entry ↦ ¬ entry.2.isExecutable).map fun entry ↦
    { code := "node_not_executable"
      message := s!"node '{entry.1}' ({entry.2.type}) is " ++
        entry.2.implementationStatus.value ++ " and cannot be published, run, or scheduled"
      nodeId := some entry.1, nodeType := some entry.2.type }

/-! ### The whole compilation -/

/-- The nodes whose type and version the registry knows. -/
def resolveNodes (registry : WorkflowNodeRegistry) (nodes : List GraphNode) : Resolved :=
  nodes.foldl (fun resolved node ↦
    match registry.get node.type node.version with
    | some impl => resolved.assign node.id impl
    | none => resolved) []

def resolutionErrors (registry : WorkflowNodeRegistry) (nodes : List GraphNode) :
    List WorkflowCompileError :=
  nodes.flatMap fun node ↦
    match registry.get node.type node.version with
    | none =>
      -- `str` of the registry's `KeyError` puts its message in quotes
      let known := registry.nodes.any fun impl ↦ impl.type = node.type
      [{ code := "unknown_node_type"
         message :=
           if known then s!"'Unknown workflow node type/version: {node.type}@v{node.version}'"
           else s!"'Unknown workflow node type: {node.type}'"
         nodeId := some node.id, nodeType := some node.type }]
    | some impl =>
      match impl.validateConfig node.config with
      | .ok _ => []
      | .error exception =>
        [{ code := "invalid_config", message := exception.message
           nodeId := some node.id, nodeType := some node.type }]

end Compiler

open Compiler in
/-- `WorkflowCompiler.validate_graph` on a parsed graph: the list of errors. -/
def validateGraph (registry : WorkflowNodeRegistry)
    (availableTags : CompileContext → List String) (g : WorkflowGraph)
    (context : CompileContext) : List WorkflowCompileError :=
  let nodeIds := g.nodes.map GraphNode.id
  let resolved := resolveNodes registry g.nodes
  findDuplicateNodeIds [] g.nodes ++
    validateEdges g nodeIds ++
    resolutionErrors registry g.nodes ++
    detectCycles nodeIds.dedup g.edges ++
    collectTriggerErrors resolved g.edges context.allowMultipleTriggers ++
    findUnreachable nodeIds.dedup g.edges (triggers resolved) ++
    validatePortCompatibility g.edges resolved ++
    validateInputBindings g resolved ++
    validateApprovalPlacement resolved g.edges context.requireApprovalBeforePublish ++
    validatePublishTargets resolved context ++
    validateCapabilities resolved context (availableTags context) ++
    validateNodeExecutability resolved ++
    validateControlFlow g resolved

/-- `WorkflowCompileResult.valid`. -/
def graphValid (registry : WorkflowNodeRegistry) (availableTags : CompileContext → List String)
    (g : WorkflowGraph) (context : CompileContext) : Bool :=
  (validateGraph registry availableTags g context).isEmpty

end ContentGenerator.Workflows
