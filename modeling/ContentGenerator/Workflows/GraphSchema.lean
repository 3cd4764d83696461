import ContentGenerator.Workflows.Nodes

/-!
# Graphs as JSON

A graph is stored as the value `model_dump(mode="json")` makes of it, and read back by `model_validate`,
which refuses keys the models do not declare, fills in defaults and strips the ids and types of the
nodes. The conversion of a text to an integer is given from outside.

Main results: `modelValidate_wellFormed`, what is read is well formed; `modelValidate_modelDump`, what is
well formed is read back as it was stored.
-/

namespace ContentGenerator.Workflows

open Lib List Option

/-! ### Dumping -/

def dumpText : Option String → Json
  | none => .null
  | some text => .str text

def BindingSource.value : BindingSource → String
  | .trigger => "trigger"
  | .workflowInput => "workflow_input"
  | .constant => "constant"
  | .context => "context"
  | .node => "node"

def InputBinding.modelDump (binding : InputBinding) : Json :=
  .obj
    [("source", .str binding.source.value), ("path", dumpText binding.path), ("value", binding.value),
      ("node_id", dumpText binding.nodeId), ("port", dumpText binding.port)]

def GraphNode.modelDump (node : GraphNode) : Json :=
  .obj
    [("id", .str node.id), ("type", .str node.type), ("version", .int node.version),
      ("config", .obj node.config),
      ("input_bindings", .obj (node.inputBindings.map fun entry ↦ (entry.1, entry.2.modelDump)))]

def GraphEdge.modelDump (edge : GraphEdge) : Json :=
  .obj
    [("source", .str edge.source), ("target", .str edge.target), ("condition", dumpText edge.condition),
      ("source_port", dumpText edge.sourcePort), ("target_port", dumpText edge.targetPort)]

def WorkflowGraph.modelDump (g : WorkflowGraph) : Json :=
  .obj
    [("schema_version", .int g.schemaVersion), ("nodes", .arr (g.nodes.map GraphNode.modelDump)),
      ("edges", .arr (g.edges.map GraphEdge.modelDump)), ("metadata", .obj g.metadata)]

/-! ### Validating -/

/-- `extra="forbid"`. -/
def hasOnly (d : JsonObject) (names : List String) : Bool := d.all fun field ↦ field.1 ∈ names

/-- `str | None`, with the default `None`. -/
def optionalText : Option Json → Option (Option String)
  | none => some none
  | some .null => some none
  | some (.str text) => some (some text)
  | some _ => none

/-- `str` of at least one and at most 128 characters. -/
def shortText : Option Json → Option String
  | some (.str text) => if 1 ≤ text.length ∧ text.length ≤ 128 then some text else none
  | _ => none

/-- `shortText`, stripped and not empty then. -/
def strippedText (value : Option Json) : Option String :=
  (shortText value).bind fun text ↦ if pyStrip text = "" then none else some (pyStrip text)

/-- `dict[str, Any]`, with an empty default. -/
def objectField : Option Json → Option JsonObject
  | none => some []
  | some (.obj fields) => some fields
  | some _ => none

def listField : Option Json → Option (List Json)
  | none => some []
  | some (.arr items) => some items
  | some _ => none

/-- An `int`: a boolean, an integral number and the text of an integer are converted. -/
def laxInt (intOfText : String → Option ℤ) : Json → Option ℤ
  | .int value => some value
  | .bool value => some (if value then 1 else 0)
  | .float value => if value.den = 1 then some value.num else none
  | .str text => intOfText text
  | _ => none

/-- An `int` of at least 1, with the default 1. -/
def versionField (intOfText : String → Option ℤ) : Option Json → Option ℕ
  | none => some 1
  | some value => (laxInt intOfText value).bind fun n ↦ if 1 ≤ n then some n.toNat else none

def BindingSource.parse : Option Json → Option BindingSource
  | some (.str "trigger") => some .trigger
  | some (.str "workflow_input") => some .workflowInput
  | some (.str "constant") => some .constant
  | some (.str "context") => some .context
  | some (.str "node") => some .node
  | _ => none

def InputBinding.modelValidate : Json → Option InputBinding
  | .obj d =>
    if hasOnly d ["source", "path", "value", "node_id", "port"] then do
      let source ← BindingSource.parse (JsonObject.get d "source")
      let path ← optionalText (JsonObject.get d "path")
      let nodeId ← optionalText (JsonObject.get d "node_id")
      let port ← optionalText (JsonObject.get d "port")
      return { source, path, value := (JsonObject.get d "value").getD .null, nodeId, port }
    else none
  | _ => none

def GraphNode.modelValidate (intOfText : String → Option ℤ) : Json → Option GraphNode
  | .obj d =>
    if hasOnly d ["id", "type", "version", "config", "input_bindings"] then do
      let id ← strippedText (JsonObject.get d "id")
      let type ← strippedText (JsonObject.get d "type")
      let version ← versionField intOfText (JsonObject.get d "version")
      let config ← objectField (JsonObject.get d "config")
      let bindings ← objectField (JsonObject.get d "input_bindings")
      let inputBindings ← bindings.mapM fun entry ↦
        (InputBinding.modelValidate entry.2).map fun binding ↦ (entry.1, binding)
      return { id, type, version, config, inputBindings }
    else none
  | _ => none

def GraphEdge.modelValidate : Json → Option GraphEdge
  | .obj d =>
    if hasOnly d ["source", "target", "condition", "source_port", "target_port"] then do
      let source ← shortText (JsonObject.get d "source")
      let target ← shortText (JsonObject.get d "target")
      let condition ← optionalText (JsonObject.get d "condition")
      let sourcePort ← optionalText (JsonObject.get d "source_port")
      let targetPort ← optionalText (JsonObject.get d "target_port")
      return { source, target, condition, sourcePort, targetPort }
    else none
  | _ => none

def WorkflowGraph.modelValidate (intOfText : String → Option ℤ) : Json → Option WorkflowGraph
  | .obj d =>
    if hasOnly d ["schema_version", "nodes", "edges", "metadata"] then do
      let schemaVersion ← versionField intOfText (JsonObject.get d "schema_version")
      let nodeItems ← listField (JsonObject.get d "nodes")
      let nodes ← nodeItems.mapM (GraphNode.modelValidate intOfText)
      let edgeItems ← listField (JsonObject.get d "edges")
      let edges ← edgeItems.mapM GraphEdge.modelValidate
      let metadata ← objectField (JsonObject.get d "metadata")
      return { schemaVersion, nodes, edges, metadata }
    else none
  | _ => none

/-! ### Well-formed graphs -/

def IsShort (text : String) : Prop := 1 ≤ text.length ∧ text.length ≤ 128

structure GraphNode.WellFormed (node : GraphNode) : Prop where
  id : IsShort node.id ∧ pyStrip node.id = node.id
  type : IsShort node.type ∧ pyStrip node.type = node.type
  version : 1 ≤ node.version

structure WorkflowGraph.WellFormed (g : WorkflowGraph) : Prop where
  schemaVersion : 1 ≤ g.schemaVersion
  nodes : ∀ node ∈ g.nodes, node.WellFormed
  edges : ∀ edge ∈ g.edges, IsShort edge.source ∧ IsShort edge.target

variable {intOfText : String → Option ℤ}

theorem shortText_eq_some {value : Option Json} {text : String} (h : shortText value = some text) :
    IsShort text := by
  unfold shortText at h
  split at h
  · split_ifs at h with hshort
    cases h
    exact hshort
  · simp at h

/-- What has been stripped is short and has nothing more to strip. -/
theorem strippedText_eq_some {value : Option Json} {text : String} (h : strippedText value = some text) :
    IsShort text ∧ pyStrip text = text := by
  obtain ⟨raw, hraw, hstrip⟩ := bind_eq_some_iff.mp h
  split_ifs at hstrip with hempty
  cases hstrip
  refine ⟨⟨?_, (length_pyStrip_le raw).trans (shortText_eq_some hraw).2⟩, pyStrip_pyStrip raw⟩
  rw [Nat.one_le_iff_ne_zero]
  intro hzero
  exact hempty (String.length_eq_zero_iff.mp hzero)

theorem versionField_eq_some {value : Option Json} {version : ℕ}
    (h : versionField intOfText value = some version) : 1 ≤ version := by
  unfold versionField at h
  split at h
  · cases h
    exact le_rfl
  · obtain ⟨n, -, hn⟩ := bind_eq_some_iff.mp h
    split_ifs at hn with hone
    cases hn
    omega

theorem forall_of_mapM {α β : Type} {f : α → Option β} {P : β → Prop}
    (hf : ∀ a b, f a = some b → P b) {items : List α} {read : List β} (h : items.mapM f = some read) :
    ∀ b ∈ read, P b := by
  induction items generalizing read with
  | nil =>
    obtain rfl : read = [] := by simpa using h.symm
    intro b hb
    simp at hb
  | cons a rest ih =>
    rw [mapM_cons] at h
    obtain ⟨b, hb, h⟩ := bind_eq_some_iff.mp h
    obtain ⟨tail, htail, h⟩ := bind_eq_some_iff.mp h
    cases h
    intro b' hb'
    rcases mem_cons.mp hb' with rfl | hb'
    · exact hf a _ hb
    · exact ih htail b' hb'

/-- Items that are read back one by one are read back as a list. -/
theorem mapM_map {α β : Type} {dump : β → α} {f : α → Option β} (items : List β)
    (h : ∀ b ∈ items, f (dump b) = some b) : (items.map dump).mapM f = some items := by
  induction items with
  | nil => rfl
  | cons b rest ih =>
    rw [map_cons, mapM_cons, h b mem_cons_self,
      ih fun b' hb' ↦ h b' (mem_cons_of_mem b hb')]
    rfl

theorem GraphNode.modelValidate_wellFormed {doc : Json} {node : GraphNode}
    (h : GraphNode.modelValidate intOfText doc = some node) : node.WellFormed := by
  unfold GraphNode.modelValidate at h
  split at h
  · split_ifs at h
    obtain ⟨id, hid, h⟩ := bind_eq_some_iff.mp h
    obtain ⟨type, htype, h⟩ := bind_eq_some_iff.mp h
    obtain ⟨version, hversion, h⟩ := bind_eq_some_iff.mp h
    obtain ⟨config, -, h⟩ := bind_eq_some_iff.mp h
    obtain ⟨bindings, -, h⟩ := bind_eq_some_iff.mp h
    obtain ⟨inputBindings, -, h⟩ := bind_eq_some_iff.mp h
    cases h
    exact ⟨strippedText_eq_some hid, strippedText_eq_some htype, versionField_eq_some hversion⟩
  · simp at h

theorem GraphEdge.modelValidate_short {doc : Json} {edge : GraphEdge}
    (h : GraphEdge.modelValidate doc = some edge) : IsShort edge.source ∧ IsShort edge.target := by
  unfold GraphEdge.modelValidate at h
  split at h
  · split_ifs at h
    obtain ⟨source, hsource, h⟩ := bind_eq_some_iff.mp h
    obtain ⟨target, htarget, h⟩ := bind_eq_some_iff.mp h
    obtain ⟨condition, -, h⟩ := bind_eq_some_iff.mp h
    obtain ⟨sourcePort, -, h⟩ := bind_eq_some_iff.mp h
    obtain ⟨targetPort, -, h⟩ := bind_eq_some_iff.mp h
    cases h
    exact ⟨shortText_eq_some hsource, shortText_eq_some htarget⟩
  · simp at h

theorem WorkflowGraph.modelValidate_wellFormed {doc : Json} {g : WorkflowGraph}
    (h : WorkflowGraph.modelValidate intOfText doc = some g) : g.WellFormed := by
  unfold WorkflowGraph.modelValidate at h
  split at h
  · split_ifs at h
    obtain ⟨schemaVersion, hschema, h⟩ := bind_eq_some_iff.mp h
    obtain ⟨nodeItems, -, h⟩ := bind_eq_some_iff.mp h
    obtain ⟨nodes, hnodes, h⟩ := bind_eq_some_iff.mp h
    obtain ⟨edgeItems, -, h⟩ := bind_eq_some_iff.mp h
    obtain ⟨edges, hedges, h⟩ := bind_eq_some_iff.mp h
    obtain ⟨metadata, -, h⟩ := bind_eq_some_iff.mp h
    cases h
    exact ⟨versionField_eq_some hschema,
      forall_of_mapM (fun _ _ hnode ↦ GraphNode.modelValidate_wellFormed hnode) hnodes,
      forall_of_mapM (fun _ _ hedge ↦ GraphEdge.modelValidate_short hedge) hedges⟩
  · simp at h

/-! ### Reading back what has been stored -/

theorem optionalText_dumpText (text : Option String) : optionalText (some (dumpText text)) = some text := by
  cases text <;> rfl

theorem shortText_str {text : String} (h : IsShort text) : shortText (some (.str text)) = some text :=
  if_pos h

theorem strippedText_str {text : String} (h : IsShort text) (hstrip : pyStrip text = text) :
    strippedText (some (.str text)) = some text := by
  unfold strippedText
  rw [shortText_str h, bind_some, hstrip, if_neg]
  rintro rfl
  exact absurd h.1 (by decide)

theorem versionField_int {version : ℕ} (h : 1 ≤ version) :
    versionField intOfText (some (.int version)) = some version := by
  have hone : (1 : ℤ) ≤ version := by exact_mod_cast h
  change (if (1 : ℤ) ≤ (version : ℤ) then some (version : ℤ).toNat else none) = some version
  rw [if_pos hone, Int.toNat_natCast]

theorem InputBinding.modelValidate_modelDump (binding : InputBinding) :
    InputBinding.modelValidate binding.modelDump = some binding := by
  have hsource : BindingSource.parse (some (.str binding.source.value)) = some binding.source := by
    cases binding.source <;> rfl
  change ((BindingSource.parse (some (.str binding.source.value))).bind fun source ↦
    (optionalText (some (dumpText binding.path))).bind fun path ↦
      (optionalText (some (dumpText binding.nodeId))).bind fun nodeId ↦
        (optionalText (some (dumpText binding.port))).bind fun port ↦
          some (InputBinding.mk source path binding.value nodeId port)) = some binding
  rw [hsource, optionalText_dumpText, optionalText_dumpText, optionalText_dumpText]
  rfl

theorem GraphNode.modelValidate_modelDump {node : GraphNode} (h : node.WellFormed) :
    GraphNode.modelValidate intOfText node.modelDump = some node := by
  have hbindings : (node.inputBindings.map fun entry ↦ (entry.1, entry.2.modelDump)).mapM
      (fun entry ↦ (InputBinding.modelValidate entry.2).map fun binding ↦ (entry.1, binding)) =
        some node.inputBindings := by
    refine mapM_map node.inputBindings fun entry _ ↦ ?_
    rw [InputBinding.modelValidate_modelDump]
    rfl
  change ((strippedText (some (.str node.id))).bind fun id ↦
    (strippedText (some (.str node.type))).bind fun type ↦
      (versionField intOfText (some (.int node.version))).bind fun version ↦
        ((node.inputBindings.map fun entry ↦ (entry.1, entry.2.modelDump)).mapM
          (fun entry ↦ (InputBinding.modelValidate entry.2).map fun binding ↦ (entry.1, binding))).bind
            fun inputBindings ↦ some (GraphNode.mk id type version node.config inputBindings)) = some node
  rw [strippedText_str h.id.1 h.id.2, strippedText_str h.type.1 h.type.2, versionField_int h.version,
    hbindings]
  rfl

theorem GraphEdge.modelValidate_modelDump {edge : GraphEdge}
    (h : IsShort edge.source ∧ IsShort edge.target) :
    GraphEdge.modelValidate edge.modelDump = some edge := by
  change ((shortText (some (.str edge.source))).bind fun source ↦
    (shortText (some (.str edge.target))).bind fun target ↦
      (optionalText (some (dumpText edge.condition))).bind fun condition ↦
        (optionalText (some (dumpText edge.sourcePort))).bind fun sourcePort ↦
          (optionalText (some (dumpText edge.targetPort))).bind fun targetPort ↦
            some (GraphEdge.mk source target condition sourcePort targetPort)) = some edge
  rw [shortText_str h.1, shortText_str h.2, optionalText_dumpText, optionalText_dumpText,
    optionalText_dumpText]
  rfl

/-- A well-formed graph is read back as it was stored. -/
theorem WorkflowGraph.modelValidate_modelDump {g : WorkflowGraph} (h : g.WellFormed) :
    WorkflowGraph.modelValidate intOfText g.modelDump = some g := by
  have hnodes : (g.nodes.map GraphNode.modelDump).mapM (GraphNode.modelValidate intOfText) =
      some g.nodes :=
    mapM_map g.nodes fun node hnode ↦ GraphNode.modelValidate_modelDump (h.nodes node hnode)
  have hedges : (g.edges.map GraphEdge.modelDump).mapM GraphEdge.modelValidate = some g.edges :=
    mapM_map g.edges fun edge hedge ↦ GraphEdge.modelValidate_modelDump (h.edges edge hedge)
  change ((versionField intOfText (some (.int g.schemaVersion))).bind fun schemaVersion ↦
    ((g.nodes.map GraphNode.modelDump).mapM (GraphNode.modelValidate intOfText)).bind fun nodes ↦
      ((g.edges.map GraphEdge.modelDump).mapM GraphEdge.modelValidate).bind fun edges ↦
        some (WorkflowGraph.mk schemaVersion nodes edges g.metadata)) = some g
  rw [versionField_int h.schemaVersion, hnodes, hedges]
  rfl

end ContentGenerator.Workflows
