import ContentGenerator.Workflows.GraphSchema

/-!
# The canvas

`graphToFlow` makes the nodes and edges of the canvas from a stored graph and a node catalog, `flowToGraph` makes
a graph from them again, which the backend validates when it is saved. The canvas does not know the schema
version and the input bindings, and it draws an edge without a port on the first port of the catalog.

Main results: `modelValidate_stringify`, what the backend reads; `canvas_preserves_iff`, when that is the
graph that has been opened; `canvas_drops_bindings`, one for which it is not.
-/

namespace ContentGenerator.Workflows

open Lib List Option GraphEdge
open WorkflowGraph (mk modelValidate modelValidate_wellFormed)

/-! ### The catalog -/

structure WorkflowNodePort where
  name : String
  dataType : String

/-- `WorkflowNodeDefinition`, as far as the canvas reads it. -/
structure WorkflowNodeDefinition where
  type : String
  category : String
  displayName : String
  implementationStatus : Option String := none
  executable : Option Bool := none
  mayPause : Bool := false
  inputPorts : Option (List WorkflowNodePort) := none
  outputPorts : Option (List WorkflowNodePort) := none

structure GraphToFlowOptions where
  displayNames : List (String × String) := []
  catalog : List WorkflowNodeDefinition := []
  invalidNodeIds : List String := []
  runStatuses : List (String × String) := []

/-- The definition of a type; a later one replaces an earlier one. -/
def GraphToFlowOptions.byType (options : GraphToFlowOptions) (type : String) : Option WorkflowNodeDefinition :=
  (options.catalog.filter fun item ↦ item.type = type).getLast?

/-! ### Nodes and edges of the canvas -/

/-- The position of a node, whose coordinates may be missing. -/
structure Position where
  x : Option Json
  y : Option Json

structure WorkflowNodeData where
  type : String
  version : ℕ
  config : JsonObject
  displayName : Option String
  label : String
  category : Option String
  implementationStatus : Option String
  executable : Option Bool
  mayPause : Option Bool
  inputPorts : List WorkflowNodePort
  outputPorts : List WorkflowNodePort
  invalid : Bool
  unavailable : Bool
  runStatus : Option String

structure FlowNode where
  id : String
  position : Position
  data : WorkflowNodeData

/-- What an edge of the canvas carries along. -/
structure FlowEdgeData where
  condition : Option String
  sourcePort : Option String
  targetPort : Option String

structure FlowEdge where
  id : String
  source : String
  target : String
  sourceHandle : Option String
  targetHandle : Option String
  label : Option String
  data : FlowEdgeData

/-- `DEFAULT_HANDLE_ID`. -/
def defaultHandleId : String := "__default__"

def readLayout (metadata : JsonObject) : JsonObject :=
  match metadata.get "layout" with
  | some (.obj layout) => layout
  | _ => []

def defaultPosition (index : ℕ) : Position where
  x := some (.int (80 + index % 4 * 260))
  y := some (.int (80 + index / 4 * 140))

def member (value : Json) (key : String) : Option Json :=
  match value with
  | .obj fields => JsonObject.get fields key
  | _ => none

def positionOf (layout : JsonObject) (id : String) (index : ℕ) : Position :=
  match layout.get id with
  | none | some .null => defaultPosition index
  | some value => ⟨member value "x", member value "y"⟩

def handleIdForPort (portName : Option String) (ports : List WorkflowNodePort) : String :=
  match portName.filter (· ≠ "") with
  | some name => name
  | none =>
    match ports with
    | [] => defaultHandleId
    | first :: _ => first.name

def portNameFromHandle (handleId : Option String) : Option String :=
  handleId.filter fun handle ↦ handle ≠ "" ∧ handle ≠ defaultHandleId

def flowNode (options : GraphToFlowOptions) (layout : JsonObject) (index : ℕ) (node : GraphNode) : FlowNode :=
  let definition := options.byType node.type
  let displayName :=
    ((options.displayNames.find? fun entry ↦ entry.1 = node.type).map Prod.snd).or
      (definition.map (·.displayName))
  { id := node.id
    position := positionOf layout node.id index
    data :=
      { type := node.type
        version := node.version
        config := node.config
        displayName
        label := displayName.getD node.type
        category := definition.map (·.category)
        implementationStatus := definition.bind (·.implementationStatus)
        executable := definition.bind (·.executable)
        mayPause := definition.map (·.mayPause)
        inputPorts := (definition.bind (·.inputPorts)).getD []
        outputPorts := (definition.bind (·.outputPorts)).getD []
        invalid := node.id ∈ options.invalidNodeIds
        unavailable := definition.bind (·.executable) = some false ∨
          definition.bind (·.implementationStatus) = some "unavailable"
        runStatus := (options.runStatuses.find? fun entry ↦ entry.1 = node.id).map Prod.snd } }

/-- The definition of the node with an id; a later node replaces an earlier one. -/
def defByNodeId (options : GraphToFlowOptions) (g : WorkflowGraph) (id : String) : Option WorkflowNodeDefinition :=
  ((g.nodes.filter fun node ↦ node.id = id).getLast?).bind fun node ↦ options.byType node.type

def sourcePorts (options : GraphToFlowOptions) (g : WorkflowGraph) (edge : GraphEdge) : List WorkflowNodePort :=
  ((defByNodeId options g edge.source).bind (·.outputPorts)).getD []

def targetPorts (options : GraphToFlowOptions) (g : WorkflowGraph) (edge : GraphEdge) : List WorkflowNodePort :=
  ((defByNodeId options g edge.target).bind (·.inputPorts)).getD []

def flowEdge (options : GraphToFlowOptions) (g : WorkflowGraph) (index : ℕ) (edge : GraphEdge) : FlowEdge :=
  let sourceHandle := handleIdForPort edge.sourcePort (sourcePorts options g edge)
  let targetHandle := handleIdForPort edge.targetPort (targetPorts options g edge)
  { id := "e-" ++ edge.source ++ "-" ++ edge.target ++ "-" ++ sourceHandle ++ "-" ++ targetHandle ++ "-" ++
      toString index
    source := edge.source
    target := edge.target
    sourceHandle := some sourceHandle
    targetHandle := some targetHandle
    label := edge.condition
    data := ⟨edge.condition, edge.sourcePort, edge.targetPort⟩ }

def graphToFlow (g : WorkflowGraph) (options : GraphToFlowOptions) : List FlowNode × List FlowEdge :=
  (g.nodes.mapIdx (flowNode options (readLayout g.metadata)), g.edges.mapIdx (flowEdge options g))

/-! ### The way back -/

/-- `WorkflowGraphNode`, the node as the frontend knows it. -/
structure WorkflowGraphNode where
  id : String
  type : String
  version : ℕ
  config : JsonObject

structure FrontendGraph where
  nodes : List WorkflowGraphNode
  edges : List GraphEdge
  metadata : JsonObject

/-- The object of a position, without the coordinates that are missing. -/
def Position.toJson (position : Position) : Json :=
  .obj (((position.x.map fun x ↦ ("x", x)).toList) ++ (position.y.map fun y ↦ ("y", y)).toList)

def layoutOf (nodes : List FlowNode) : JsonObject :=
  nodes.foldl (fun layout node ↦ layout.set node.id node.position.toJson) []

def flowToGraph (nodes : List FlowNode) (edges : List FlowEdge) (prevMetadata : Option JsonObject) :
    FrontendGraph where
  nodes := nodes.map fun node ↦ ⟨node.id, node.data.type, node.data.version, node.data.config⟩
  edges := edges.map fun edge ↦
    { source := edge.source
      target := edge.target
      condition := edge.data.condition
      sourcePort := (portNameFromHandle edge.sourceHandle).or edge.data.sourcePort
      targetPort := (portNameFromHandle edge.targetHandle).or edge.data.targetPort }
  metadata := (prevMetadata.getD []).set "layout" (.obj (layoutOf nodes))

def WorkflowGraphNode.stringify (node : WorkflowGraphNode) : Json :=
  .obj [("id", .str node.id), ("type", .str node.type), ("version", .int node.version), ("config", .obj node.config)]

def FrontendGraph.stringify (graph : FrontendGraph) : Json :=
  .obj
    [("nodes", .arr (graph.nodes.map WorkflowGraphNode.stringify)),
      ("edges", .arr (graph.edges.map modelDump)), ("metadata", .obj graph.metadata)]

def moveNodes (move : ℕ → Position → Position) (nodes : List FlowNode) : List FlowNode :=
  nodes.mapIdx fun index node ↦ { node with position := move index node.position }

/-- A graph is opened, nodes are moved, and it is pushed back. -/
def pushGraph (g : WorkflowGraph) (options : GraphToFlowOptions) (move : ℕ → Position → Position) :
    FrontendGraph :=
  flowToGraph (moveNodes move (graphToFlow g options).1) (graphToFlow g options).2 (some g.metadata)

/-- Only the layout differs. -/
structure SameWorkflow (g g' : WorkflowGraph) : Prop where
  schemaVersion : g'.schemaVersion = g.schemaVersion
  nodes : g'.nodes = g.nodes
  edges : g'.edges = g.edges
  metadata : ∀ key, key ≠ "layout" → g'.metadata.get key = g.metadata.get key

/-- The backend reads the graph that is pushed back as the one that has been opened, except for the layout. -/
def CanvasPreserves (intOfText : String → Option ℤ) (g : WorkflowGraph) (options : GraphToFlowOptions)
    (move : ℕ → Position → Position) : Prop :=
  ∃ g', modelValidate intOfText (pushGraph g options move).stringify = some g' ∧ SameWorkflow g g'

/-! ### What the backend reads -/

def portThrough (port : Option String) (ports : List WorkflowNodePort) : Option String :=
  (portNameFromHandle (some (handleIdForPort port ports))).or port

def edgeThrough (options : GraphToFlowOptions) (g : WorkflowGraph) (edge : GraphEdge) : GraphEdge :=
  { edge with
    sourcePort := portThrough edge.sourcePort (sourcePorts options g edge)
    targetPort := portThrough edge.targetPort (targetPorts options g edge) }

/-- The graph after the way through the canvas, with the defaults for what the canvas does not know. -/
def throughCanvas (g : WorkflowGraph) (options : GraphToFlowOptions) (metadata : JsonObject) : WorkflowGraph where
  schemaVersion := 1
  nodes := g.nodes.map fun node ↦ { node with inputBindings := [] }
  edges := g.edges.map (edgeThrough options g)
  metadata := metadata

variable {intOfText : String → Option ℤ} {g : WorkflowGraph} {options : GraphToFlowOptions}
  {move : ℕ → Position → Position}

/-- A list that is mapped with its indices and then without them. -/
theorem map_mapIdx_of {α β γ : Type} {f : ℕ → α → β} {k : β → γ} {h : α → γ} (hk : ∀ i a, k (f i a) = h a)
    (items : List α) : (items.mapIdx f).map k = items.map h := by
  refine ext_getElem? fun i ↦ ?_
  rw [getElem?_map, getElem?_mapIdx, getElem?_map, Option.map_map]
  exact congrArg (Option.map · _) (funext (hk i))

theorem nodes_pushGraph :
    (pushGraph g options move).nodes = g.nodes.map fun node ↦ ⟨node.id, node.type, node.version, node.config⟩ := by
  change map _ (mapIdx _ (mapIdx _ g.nodes)) = _
  rw [mapIdx_mapIdx]
  refine map_mapIdx_of (fun index node ↦ ?_) g.nodes
  rfl

theorem edges_pushGraph : (pushGraph g options move).edges = g.edges.map (edgeThrough options g) := by
  change map _ (mapIdx _ g.edges) = _
  refine map_mapIdx_of (fun index edge ↦ ?_) g.edges
  rfl

/-- A node that is sent without its bindings is read without any. -/
theorem modelValidate_stringify_node {node : GraphNode} (h : node.WellFormed) :
    GraphNode.modelValidate intOfText
      (WorkflowGraphNode.stringify ⟨node.id, node.type, node.version, node.config⟩) =
        some { node with inputBindings := [] } := by
  change ((strippedText (some (.str node.id))).bind fun id ↦
    (strippedText (some (.str node.type))).bind fun type ↦
      (versionField intOfText (some (.int node.version))).bind fun version ↦
        some (GraphNode.mk id type version node.config [])) = some { node with inputBindings := [] }
  rw [strippedText_str h.id.1 h.id.2, strippedText_str h.type.1 h.type.2, versionField_int h.version]
  rfl

/-- The backend reads a graph of the first schema version without input bindings, with the ports of the canvas. -/
theorem modelValidate_stringify (h : g.WellFormed) :
    modelValidate intOfText (pushGraph g options move).stringify =
      some (throughCanvas g options (pushGraph g options move).metadata) := by
  have hnodes : ((pushGraph g options move).nodes.map WorkflowGraphNode.stringify).mapM
      (GraphNode.modelValidate intOfText) = some (g.nodes.map fun node ↦ { node with inputBindings := [] }) := by
    have hdump : (pushGraph g options move).nodes.map WorkflowGraphNode.stringify =
        (g.nodes.map fun node ↦ { node with inputBindings := [] }).map fun node : GraphNode ↦
          WorkflowGraphNode.stringify ⟨node.id, node.type, node.version, node.config⟩ := by
      rw [nodes_pushGraph, List.map_map, List.map_map]
      rfl
    rw [hdump]
    refine mapM_map _ fun node hnode ↦ ?_
    obtain ⟨stored, hstored, rfl⟩ := List.mem_map.mp hnode
    obtain ⟨hid, htype, hversion⟩ := h.nodes stored hstored
    exact modelValidate_stringify_node ⟨hid, htype, hversion⟩
  have hedges : ((pushGraph g options move).edges.map modelDump).mapM GraphEdge.modelValidate =
      some (g.edges.map (edgeThrough options g)) := by
    rw [edges_pushGraph]
    refine mapM_map _ fun edge hedge ↦ modelValidate_modelDump ?_
    obtain ⟨stored, hstored, rfl⟩ := List.mem_map.mp hedge
    exact h.edges stored hstored
  change (((pushGraph g options move).nodes.map WorkflowGraphNode.stringify).mapM
      (GraphNode.modelValidate intOfText)).bind (fun nodes ↦
    (((pushGraph g options move).edges.map modelDump).mapM GraphEdge.modelValidate).bind fun edges ↦
      some (mk 1 nodes edges (pushGraph g options move).metadata)) = _
  rw [hnodes, hedges]
  rfl

/-! ### When it is the graph that has been opened -/

/-- The port is stored, or the canvas has no port to draw the edge on. -/
def KeepsPort (port : Option String) (ports : List WorkflowNodePort) : Prop :=
  (port.filter (· ≠ "")).isSome ∨ ∀ first ∈ ports.head?, first.name = "" ∨ first.name = defaultHandleId

structure KnownToCanvas (g : WorkflowGraph) (options : GraphToFlowOptions) : Prop where
  schemaVersion : g.schemaVersion = 1
  bindings : ∀ node ∈ g.nodes, node.inputBindings = []
  ports : ∀ edge ∈ g.edges, KeepsPort edge.sourcePort (sourcePorts options g edge) ∧
    KeepsPort edge.targetPort (targetPorts options g edge)

theorem portThrough_eq_self_iff {port : Option String} {ports : List WorkflowNodePort} :
    portThrough port ports = port ↔ KeepsPort port ports := by
  unfold portThrough handleIdForPort KeepsPort
  cases hname : port.filter (· ≠ "") with
  | some name =>
    obtain rfl : port = some name := (filter_eq_some_iff.mp hname).1
    refine iff_of_true ?_ (.inl rfl)
    dsimp only
    cases hhandle : portNameFromHandle (some name) with
    | none => rfl
    | some handle => rw [(filter_eq_some_iff.mp hhandle).1, some_or]
  | none =>
    have hblank : ∀ name, port = some name → name = "" := by
      rintro name rfl
      simpa using hname
    cases ports with
    | nil =>
      have hnone : portNameFromHandle (some defaultHandleId) = none := by decide
      refine iff_of_true ?_ (.inr fun first hfirst ↦ absurd hfirst.symm (some_ne_none first))
      dsimp only
      rw [hnone, none_or]
    | cons first rest =>
      by_cases hfirst : first.name = "" ∨ first.name = defaultHandleId
      · refine iff_of_true ?_ (.inr fun other hother ↦ ?_)
        · have hnone : portNameFromHandle (some first.name) = none :=
            filter_eq_none_iff.mpr fun handle hhandle hdrawn ↦ by
              cases hhandle
              rcases hfirst with hempty | hdefault
              · exact (of_decide_eq_true hdrawn).1 hempty
              · exact (of_decide_eq_true hdrawn).2 hdefault
          dsimp only
          rw [hnone, none_or]
        · rw [← Option.some.inj hother]
          exact hfirst
      · have hdrawn : portNameFromHandle (some first.name) = some first.name :=
          filter_eq_some_iff.mpr ⟨rfl, decide_eq_true (not_or.mp hfirst)⟩
        refine iff_of_false ?_ ?_
        · dsimp only
          rw [hdrawn, some_or]
          exact fun heq ↦ hfirst (.inl (hblank first.name heq.symm))
        · rintro (hsome | hall)
          · simp at hsome
          · exact hfirst (hall first rfl)

/-- A map that changes no item. -/
theorem map_eq_self_iff {α : Type} {f : α → α} {items : List α} :
    items.map f = items ↔ ∀ item ∈ items, f item = item := by
  conv_lhs => rw [← List.map_id items, List.map_map]
  exact map_inj_left

/-- Opening a graph and pushing it back with nodes moved preserves it if and only if the canvas knows everything of
it. -/
theorem canvas_preserves_iff (intOfText : String → Option ℤ) (doc : Json) (g : WorkflowGraph)
    (h : modelValidate intOfText doc = some g) (options : GraphToFlowOptions)
    (move : ℕ → Position → Position) :
    CanvasPreserves intOfText g options move ↔ KnownToCanvas g options := by
  have hread : modelValidate intOfText (pushGraph g options move).stringify =
      some (throughCanvas g options (pushGraph g options move).metadata) :=
    modelValidate_stringify (modelValidate_wellFormed h)
  constructor
  · rintro ⟨g', hvalidate, hsame⟩
    obtain rfl := mem_unique hread hvalidate
    refine ⟨hsame.schemaVersion.symm, fun node hnode ↦ ?_, fun edge hedge ↦ ?_⟩
    · exact congrArg GraphNode.inputBindings (map_eq_self_iff.mp hsame.nodes node hnode).symm
    · have hedge' := map_eq_self_iff.mp hsame.edges edge hedge
      exact ⟨portThrough_eq_self_iff.mp (congrArg GraphEdge.sourcePort hedge'),
        portThrough_eq_self_iff.mp (congrArg GraphEdge.targetPort hedge')⟩
  · intro hknown
    refine ⟨_, hread, hknown.schemaVersion.symm, map_eq_self_iff.mpr fun node hnode ↦ ?_,
      map_eq_self_iff.mpr fun edge hedge ↦ ?_, fun key hkey ↦ ?_⟩
    · rw [← hknown.bindings node hnode]
    · obtain ⟨hsource, htarget⟩ := hknown.ports edge hedge
      unfold edgeThrough
      rw [portThrough_eq_self_iff.mpr hsource, portThrough_eq_self_iff.mpr htarget]
    · exact JsonObject.get_set_of_ne _ _ hkey

/-- Two nodes of the first schema version, with an edge between two ports. -/
def portedGraph : WorkflowGraph where
  nodes := [{ id := "gen", type := "generate_text" }, { id := "appr", type := "approval" }]
  edges := [{ source := "gen", target := "appr", sourcePort := some "text", targetPort := some "content_job_id" }]

/-- The graph comes back as it was, with its nodes put to the origin. -/
theorem canvas_preserves_ported : CanvasPreserves (fun _ ↦ none) portedGraph {}
    fun _ _ ↦ ⟨some (.int 0), some (.int 0)⟩ := by
  have hvalidate : modelValidate (fun _ ↦ none) portedGraph.modelDump = some portedGraph := by
    rfl
  refine (canvas_preserves_iff (fun _ ↦ none) portedGraph.modelDump portedGraph hvalidate {} _).mpr
    ⟨rfl, fun node hnode ↦ ?_, fun edge hedge ↦ ?_⟩
  · rcases mem_cons.mp hnode with rfl | hsecond
    · rfl
    · obtain rfl := mem_singleton.mp hsecond
      rfl
  · obtain rfl := mem_singleton.mp hedge
    exact ⟨.inl (by decide), .inl (by decide)⟩

/-- A graph of the second schema version, whose second node takes an input from the first one by a binding. -/
def boundGraph : WorkflowGraph where
  schemaVersion := 2
  nodes :=
    [{ id := "gen", type := "generate_text" },
      { id := "appr", type := "approval"
        inputBindings := [("content_job_id", { source := .node, nodeId := some "gen", port := some "text" })] }]
  edges := [{ source := "gen", target := "appr" }]

/-- The backend accepts the graph, and reads another one after it has been opened and pushed back: the version is 1
and the binding is gone. -/
theorem canvas_drops_bindings :
    modelValidate (fun _ ↦ none) boundGraph.modelDump = some boundGraph ∧
      ¬ CanvasPreserves (fun _ ↦ none) boundGraph {} fun _ position ↦ position := by
  have hvalidate : modelValidate (fun _ ↦ none) boundGraph.modelDump = some boundGraph := by
    rfl
  refine ⟨hvalidate, ?_⟩
  rintro ⟨g', hread, hsame⟩
  rw [modelValidate_stringify (modelValidate_wellFormed hvalidate)] at hread
  cases hread
  exact absurd hsame.schemaVersion (by decide)

end ContentGenerator.Workflows
