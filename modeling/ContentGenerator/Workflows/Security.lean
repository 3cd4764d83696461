import ContentGenerator.Lib.JsonKeys
import ContentGenerator.Workflows.GraphSchema
import ContentGenerator.Workflows.Versioning

/-!
# Scrubbing and checksums of graphs

`save_draft` and `publish` drop secret-looking keys from the configurations of the nodes and from the
metadata, and publishing stores the checksum that the compiler takes of the graph.

Main results: `stored_secretFree_iff`, what is stored has no secret-looking key exactly when the input
bindings have none; `checksum_names_stored_iff`, the checksum is that of the stored graph exactly when
publishing has nothing to change.
-/

namespace ContentGenerator.Workflows

open Lib List Option Json
open WorkflowGraph (modelValidate modelValidate_modelDump modelValidate_wellFormed)
open WorkflowVersion (draft publish publishedGraph)

variable {context : CompileContext}

/-! ### Secret-looking keys -/

/-- `_SECRET_FRAGMENTS`. -/
def secretFragments : List String :=
  ["token", "secret", "password", "api_key", "apikey", "credential", "private_key", "refresh", "oauth",
    "bearer"]

def isSecretKey (key : String) : Bool :=
  let lowered := String.ofList ((pyLower key).toList.map fun c ↦ if c = '-' then '_' else c)
  secretFragments.any fun fragment ↦ pyIn fragment lowered

def stripSecrets : Json → Json := dropKeys isSecretKey

/-- `sanitize_mapping` on a `dict`. -/
def sanitizeMapping : JsonObject → JsonObject := dropFields isSecretKey

/-- No object inside the value has a secret-looking key. -/
def SecretFree (value : Json) : Prop := avoidsKeys isSecretKey value

def SecretFreeFields (fields : JsonObject) : Prop := avoidsFields isSecretKey fields

instance (value : Json) : Decidable (SecretFree value) := inferInstanceAs (Decidable (_ = true))

instance (fields : JsonObject) : Decidable (SecretFreeFields fields) :=
  inferInstanceAs (Decidable (_ = true))

/-! ### Scrubbed graphs -/

/-- The node `sanitize_workflow_graph` puts together. -/
def GraphNode.scrub (node : GraphNode) : GraphNode :=
  { node with config := sanitizeMapping node.config }

/-- The graph `sanitize_workflow_graph` puts together. -/
def WorkflowGraph.scrub (g : WorkflowGraph) : WorkflowGraph :=
  { g with
    nodes := g.nodes.map GraphNode.scrub
    metadata := sanitizeMapping g.metadata }

def sanitizeWorkflowGraph (intOfText : String → Option ℤ) (doc : Json) : Option WorkflowGraph :=
  (modelValidate intOfText doc).bind fun parsed ↦
    modelValidate intOfText parsed.scrub.modelDump

variable {intOfText : String → Option ℤ} {digest : Json → String} {doc : Json} {g parsed : WorkflowGraph}

theorem WorkflowGraph.WellFormed.scrub (h : g.WellFormed) : g.scrub.WellFormed where
  schemaVersion := h.schemaVersion
  nodes := by
    intro node hnode
    obtain ⟨source, hsource, rfl⟩ := List.mem_map.mp hnode
    exact ⟨(h.nodes source hsource).id, (h.nodes source hsource).type, (h.nodes source hsource).version⟩
  edges := h.edges

/-- What `sanitize_workflow_graph` returns for a document it can read. -/
theorem sanitizeWorkflowGraph_eq (h : modelValidate intOfText doc = some parsed) :
    sanitizeWorkflowGraph intOfText doc = some parsed.scrub := by
  rw [sanitizeWorkflowGraph, h, bind_some]
  exact modelValidate_modelDump (modelValidate_wellFormed h).scrub

/-- What has been scrubbed once has nothing more to scrub. -/
@[simp] theorem WorkflowGraph.scrub_scrub (g : WorkflowGraph) : g.scrub.scrub = g.scrub := by
  have hnode : ∀ node : GraphNode, node.scrub.scrub = node.scrub := fun node ↦ by
    simp [GraphNode.scrub, sanitizeMapping]
  simp only [WorkflowGraph.scrub, List.map_map, sanitizeMapping, dropFields_dropFields,
    Function.comp_def, hnode]

/-! ### The service on real graphs -/

/-- `graph_checksum`; `digest` stands for the SHA-256 of the text of a value. -/
def graphChecksum (digest : Json → String) (g : WorkflowGraph) : String :=
  digest (sortKeys g.modelDump)

/-- `WorkflowCompiler.validate_graph`, with the messages the schema has for a document it refuses. -/
def compile (intOfText : String → Option ℤ) (digest : Json → String) (refusals : Json → List String)
    (registry : WorkflowNodeRegistry) (availableTags : CompileContext → List String) (doc : Json)
    (context : CompileContext) : WorkflowCompileResult Json :=
  match modelValidate intOfText doc with
  | none =>
    { valid := false
      errors := (refusals doc).map fun message ↦ { code := "invalid_graph", message := message } }
  | some parsed =>
    let errors := validateGraph registry availableTags parsed context
    { valid := errors.isEmpty
      errors := errors
      normalizedGraph := if errors.isEmpty then some parsed.modelDump else none
      checksum := if errors.isEmpty then some (graphChecksum digest parsed) else none }

/-- The parts `save_draft` and `publish` call. -/
def versioningEnv (intOfText : String → Option ℤ) (digest : Json → String)
    (refusals : Json → List String) (registry : WorkflowNodeRegistry)
    (availableTags : CompileContext → List String) : VersioningEnv Json WorkflowGraph where
  sanitizeWorkflowGraph := sanitizeWorkflowGraph intOfText
  modelDump := WorkflowGraph.modelDump
  schemaVersion := WorkflowGraph.schemaVersion
  withSchemaVersion := fun schemaVersion g ↦ { g with schemaVersion := schemaVersion }
  sanitizeMapping := fun value ↦
    match value with
    | some (.obj fields) => .obj (sanitizeMapping fields)
    | _ => .obj []
  isTruthy := truthy
  validateGraph := compile intOfText digest refusals registry availableTags

/-- The graph `publish` stores for a parsed draft. -/
def WorkflowGraph.toPublish (g : WorkflowGraph) : WorkflowGraph :=
  { g.scrub with schemaVersion := max g.schemaVersion 2 }

/-- The schema version of new publishes. -/
theorem raise_eq (hone : 1 ≤ g.schemaVersion) :
    (if max g.schemaVersion 1 < 2 then { g with schemaVersion := 2 } else g) =
      { g with schemaVersion := max g.schemaVersion 2 } := by
  split_ifs with hlow
  · rw [max_eq_right (by omega)]
  · rw [max_eq_left (by omega)]

theorem WorkflowGraph.WellFormed.toPublish (h : g.WellFormed) : g.toPublish.WellFormed :=
  ⟨le_max_of_le_left h.schemaVersion, h.scrub.nodes, h.scrub.edges⟩

variable {refusals : Json → List String} {registry : WorkflowNodeRegistry}
  {availableTags : CompileContext → List String}

/-- What the compiler returns for a graph it finds valid. -/
theorem compile_valid
    (h : (compile intOfText digest refusals registry availableTags doc context).valid) :
    ∃ parsed, modelValidate intOfText doc = some parsed ∧
      (compile intOfText digest refusals registry availableTags doc context).normalizedGraph =
        some parsed.modelDump ∧
      (compile intOfText digest refusals registry availableTags doc context).checksum =
        some (graphChecksum digest parsed) := by
  unfold compile at h ⊢
  cases hparsed : modelValidate intOfText doc with
  | none =>
    rw [hparsed] at h
    simp at h
  | some parsed =>
    rw [hparsed] at h
    have hvalid : (validateGraph registry availableTags parsed context).isEmpty := h
    refine ⟨parsed, rfl, ?_, ?_⟩
    · exact if_pos hvalid
    · exact if_pos hvalid

theorem publish_stores {now : ℕ} {version new : WorkflowVersion Json}
    (h : version.publish (versioningEnv intOfText digest refusals registry availableTags) now context =
      .ok new) :
    ∃ parsed, modelValidate intOfText version.graphJson = some parsed ∧
      new.graphJson = parsed.toPublish.modelDump ∧ new.checksum = some (graphChecksum digest parsed) := by
  unfold publish at h
  dsimp only at h
  split_ifs at h with hpublished hvalid
  obtain ⟨parsed, hparsed, hnormalized, hchecksum⟩ := compile_valid hvalid
  have hread : modelValidate intOfText parsed.modelDump = some parsed :=
    modelValidate_modelDump (modelValidate_wellFormed hparsed)
  have hgraph : version.publishedGraph (versioningEnv intOfText digest refusals registry availableTags)
      (some parsed.modelDump) = .ok parsed.toPublish.modelDump := by
    unfold publishedGraph
    dsimp only [versioningEnv]
    rw [sanitizeWorkflowGraph_eq hread]
    have hone : 1 ≤ parsed.scrub.schemaVersion :=
      (modelValidate_wellFormed hparsed).schemaVersion
    exact congrArg (fun g : WorkflowGraph ↦ Except.ok g.modelDump) (raise_eq hone)
  split at h
  · simp at h
  · simp at h
  · rename_i checksum graphJson hsum hstored
    have hsame := hchecksum.symm.trans hsum
    cases hsame
    have hstored' := (congrArg _ hnormalized).symm.trans hstored
    rw [hgraph] at hstored'
    cases hstored'
    cases h
    exact ⟨parsed, hparsed, rfl, rfl⟩

/-! ### What is stored -/

/-- The keys the models themselves declare. -/
def schemaKeys : List String :=
  ["schema_version", "nodes", "edges", "metadata", "id", "type", "version", "config", "input_bindings",
    "source", "target", "condition", "source_port", "target_port", "path", "value", "node_id", "port"]

theorem isSecretKey_schemaKeys : ∀ key ∈ schemaKeys, isSecretKey key = false := by decide +kernel

/-- No target of an input binding is secret-looking, and no constant holds a secret-looking key. -/
def GraphNode.BindingsSecretFree (node : GraphNode) : Prop :=
  ∀ entry ∈ node.inputBindings, isSecretKey entry.1 = false ∧ SecretFree entry.2.value

instance (node : GraphNode) : Decidable node.BindingsSecretFree :=
  inferInstanceAs (Decidable (∀ entry ∈ node.inputBindings,
    isSecretKey entry.1 = false ∧ SecretFree entry.2.value))

/-- The parts of the graph that scrubbing changes have no secret-looking key. -/
def WorkflowGraph.Scrubbed (g : WorkflowGraph) : Prop :=
  (∀ node ∈ g.nodes, SecretFreeFields node.config) ∧ SecretFreeFields g.metadata

instance (g : WorkflowGraph) : Decidable g.Scrubbed :=
  inferInstanceAs (Decidable ((∀ node ∈ g.nodes, SecretFreeFields node.config) ∧
    SecretFreeFields g.metadata))

theorem secretFree_dumpText (text : Option String) : SecretFree (dumpText text) := by
  cases text <;> rfl

/-- An object whose keys are those of a model. -/
theorem secretFree_obj {fields : JsonObject} (hkeys : ∀ field ∈ fields, field.1 ∈ schemaKeys) :
    SecretFree (.obj fields) ↔ ∀ field ∈ fields, SecretFree field.2 := by
  unfold SecretFree
  rw [avoidsKeys, avoidsFields_iff]
  exact forall₂_congr fun field hfield ↦ and_iff_right (isSecretKey_schemaKeys _ (hkeys field hfield))

theorem InputBinding.secretFree_modelDump (binding : InputBinding) :
    SecretFree binding.modelDump ↔ SecretFree binding.value := by
  have hliteral : SecretFree (.str binding.source.value) := rfl
  rw [InputBinding.modelDump, secretFree_obj (by simp [schemaKeys])]
  simp [hliteral, secretFree_dumpText]

theorem GraphNode.secretFree_modelDump (node : GraphNode) :
    SecretFree node.modelDump ↔ SecretFreeFields node.config ∧ node.BindingsSecretFree := by
  have hbindings : SecretFree
      (.obj (node.inputBindings.map fun entry ↦ (entry.1, entry.2.modelDump))) ↔
        node.BindingsSecretFree := by
    unfold SecretFree GraphNode.BindingsSecretFree
    rw [avoidsKeys, avoidsFields_iff, List.forall_mem_map]
    exact forall₂_congr fun entry _ ↦ and_congr_right fun _ ↦ entry.2.secretFree_modelDump
  have hid : SecretFree (.str node.id) := rfl
  have htype : SecretFree (.str node.type) := rfl
  have hversion : SecretFree (.int node.version) := rfl
  have hconfig : SecretFree (.obj node.config) ↔ SecretFreeFields node.config := by
    rw [SecretFree, avoidsKeys, SecretFreeFields]
  rw [GraphNode.modelDump, secretFree_obj (by simp [schemaKeys])]
  simp [hid, htype, hversion, hconfig, hbindings]

theorem GraphEdge.secretFree_modelDump (edge : GraphEdge) : SecretFree edge.modelDump := by
  have hsource : SecretFree (.str edge.source) := rfl
  have htarget : SecretFree (.str edge.target) := rfl
  rw [GraphEdge.modelDump, secretFree_obj (by simp [schemaKeys])]
  simp [hsource, htarget, secretFree_dumpText]

/-- The places of a graph at which a secret-looking key can stand. -/
theorem WorkflowGraph.secretFree_modelDump (g : WorkflowGraph) :
    SecretFree g.modelDump ↔ g.Scrubbed ∧ ∀ node ∈ g.nodes, node.BindingsSecretFree := by
  have hversion : SecretFree (.int g.schemaVersion) := rfl
  have hnodes : SecretFree (.arr (g.nodes.map GraphNode.modelDump)) ↔
      ∀ node ∈ g.nodes, SecretFreeFields node.config ∧ node.BindingsSecretFree := by
    unfold SecretFree
    rw [avoidsKeys, avoidsItems_iff, List.forall_mem_map]
    exact forall₂_congr fun node _ ↦ node.secretFree_modelDump
  have hedges : SecretFree (.arr (g.edges.map GraphEdge.modelDump)) := by
    unfold SecretFree
    rw [avoidsKeys, avoidsItems_iff, List.forall_mem_map]
    exact fun edge _ ↦ edge.secretFree_modelDump
  have hmetadata : SecretFree (.obj g.metadata) ↔ SecretFreeFields g.metadata := by
    rw [SecretFree, avoidsKeys, SecretFreeFields]
  rw [WorkflowGraph.modelDump, secretFree_obj (by simp [schemaKeys])]
  simp only [forall_mem_cons, hversion, true_and, hnodes, hedges,
    hmetadata, Scrubbed, forall_and]
  tauto

theorem WorkflowGraph.scrubbed_scrub (g : WorkflowGraph) : g.scrub.Scrubbed := by
  refine ⟨fun node hnode ↦ ?_, avoidsFields_dropFields isSecretKey g.metadata⟩
  obtain ⟨source, -, rfl⟩ := List.mem_map.mp hnode
  exact avoidsFields_dropFields isSecretKey source.config

/-- After scrubbing, only the input bindings decide. -/
theorem WorkflowGraph.secretFree_scrub (g : WorkflowGraph) :
    SecretFree g.scrub.modelDump ↔ ∀ node ∈ g.nodes, node.BindingsSecretFree := by
  rw [WorkflowGraph.secretFree_modelDump, and_iff_right g.scrubbed_scrub, WorkflowGraph.scrub,
    List.forall_mem_map]
  rfl

/-- Raising the schema version does not matter for the keys. -/
theorem WorkflowGraph.secretFree_toPublish (g : WorkflowGraph) :
    SecretFree g.toPublish.modelDump ↔ SecretFree g.scrub.modelDump := by
  rw [WorkflowGraph.secretFree_modelDump, WorkflowGraph.secretFree_modelDump]
  rfl

/-- What `save_draft` stores for a graph, and what `publish` stores for a draft, has no secret-looking key
at any depth if and only if the input bindings of the graph have none. -/
theorem stored_secretFree_iff (hparsed : modelValidate intOfText doc = some parsed) :
    (∀ graph inputSchemaJson outputSchemaJson, sanitizeWorkflowGraph intOfText doc = some graph →
      (∀ latest : WorkflowVersion Json,
        SecretFree (latest.edit (versioningEnv intOfText digest refusals registry availableTags) graph
          inputSchemaJson outputSchemaJson).graphJson ↔ ∀ node ∈ parsed.nodes, node.BindingsSecretFree) ∧
      ∀ versionNumber,
        SecretFree (draft (versioningEnv intOfText digest refusals registry availableTags)
          graph inputSchemaJson outputSchemaJson versionNumber).graphJson ↔
            ∀ node ∈ parsed.nodes, node.BindingsSecretFree) ∧
    ∀ now context (version new : WorkflowVersion Json), version.graphJson = doc →
      version.publish (versioningEnv intOfText digest refusals registry availableTags) now context =
        .ok new →
      (SecretFree new.graphJson ↔ ∀ node ∈ parsed.nodes, node.BindingsSecretFree) := by
  refine ⟨fun graph inputSchemaJson outputSchemaJson hgraph ↦ ?_,
    fun now context version new hdoc hpublish ↦ ?_⟩
  · obtain rfl := mem_unique (sanitizeWorkflowGraph_eq hparsed) hgraph
    exact ⟨fun _ ↦ parsed.secretFree_scrub, fun _ ↦ parsed.secretFree_scrub⟩
  · obtain ⟨own, hown, hstored, -⟩ := publish_stores hpublish
    rw [hdoc, hparsed] at hown
    cases hown
    rw [hstored, WorkflowGraph.secretFree_toPublish]
    exact parsed.secretFree_scrub

/-- A draft whose only node takes its payload from a constant. -/
def constantDraft (payload : Json) : Json :=
  .obj
    [("schema_version", .int 2),
      ("nodes", .arr
        [.obj
          [("id", .str "start"), ("type", .str "manual_trigger"),
            ("input_bindings", .obj
              [("payload", .obj [("source", .str "constant"), ("value", payload)])])]])]

/-- A graph that holds an API key in a constant binding. -/
def keyDraft : Json := constantDraft (.obj [("api_key", .str "sk-live")])

/-- The platform with the node catalogue; texts are not read as integers. -/
def catalogueVersioning : VersioningEnv Json WorkflowGraph :=
  versioningEnv (fun _ ↦ none) (fun _ ↦ "sha256") (fun _ ↦ []) catalogue fun _ ↦ []

/-- The key is in the draft `save_draft` stores, and in the version `publish` stores. -/
theorem keyDraft_keeps_key :
    (sanitizeWorkflowGraph (fun _ ↦ none) keyDraft).map (fun graph ↦
        decide (SecretFree (draft catalogueVersioning graph none none 1).graphJson)) =
      some false ∧
    ((publish catalogueVersioning 0 {}
        { version := 1, graphJson := keyDraft, inputSchemaJson := .obj [],
          outputSchemaJson := .obj [] }).toOption.map fun new ↦ decide (SecretFree new.graphJson)) =
      some false := by
  decide +kernel

/-- A graph whose only node takes a title from a constant. -/
def titleGraph : WorkflowGraph where
  schemaVersion := 2
  nodes :=
    [{ id := "start", type := "manual_trigger"
       inputBindings := [("payload", { source := .constant, value := .obj [("title", .str "x")] })] }]
  edges := []

theorem titleGraph_read :
    modelValidate (fun _ ↦ none) (constantDraft (.obj [("title", .str "x")])) =
      some titleGraph :=
  rfl

/-- A constant without such a key is stored without one. -/
theorem titleGraph_stored :
    SecretFree (draft catalogueVersioning titleGraph none none 1).graphJson :=
  (((stored_secretFree_iff titleGraph_read).1 titleGraph none none
    rfl).2 1).mpr (by decide +kernel)

/-! ### Checksums -/

/-- Scrubbing leaves a node fewer keys, or as many when there is none to drop. -/
theorem GraphNode.keyCount_scrub (node : GraphNode) :
    keyCount node.scrub.modelDump ≤ keyCount node.modelDump ∧
      (keyCount node.scrub.modelDump = keyCount node.modelDump →
        SecretFreeFields node.config) := by
  obtain ⟨hle, hfree⟩ := fieldCount_dropFields isSecretKey node.config
  simp only [GraphNode.modelDump, GraphNode.scrub, sanitizeMapping, keyCount, fieldCount]
  exact ⟨by omega, fun heq ↦ hfree (by omega)⟩

theorem keyCount_scrubbed_nodes (nodes : List GraphNode) :
    itemCount ((nodes.map GraphNode.scrub).map GraphNode.modelDump) ≤
        itemCount (nodes.map GraphNode.modelDump) ∧
      (itemCount ((nodes.map GraphNode.scrub).map GraphNode.modelDump) =
          itemCount (nodes.map GraphNode.modelDump) →
        ∀ node ∈ nodes, SecretFreeFields node.config) := by
  induction nodes with
  | nil => simp
  | cons node rest ih =>
    obtain ⟨hnode, hfree⟩ := node.keyCount_scrub
    obtain ⟨hrest, hall⟩ := ih
    simp only [map_cons, itemCount, forall_mem_cons]
    exact ⟨by omega, fun heq ↦ ⟨hfree (by omega), hall (by omega)⟩⟩

theorem WorkflowGraph.scrubbed_of_keyCount
    (h : keyCount g.toPublish.modelDump = keyCount g.modelDump) : g.Scrubbed := by
  obtain ⟨hnodes, hall⟩ := keyCount_scrubbed_nodes g.nodes
  obtain ⟨hmetadata, hfree⟩ := fieldCount_dropFields isSecretKey g.metadata
  simp only [WorkflowGraph.modelDump, WorkflowGraph.toPublish, WorkflowGraph.scrub, sanitizeMapping,
    keyCount, fieldCount] at h
  exact ⟨hall (by omega), hfree (by omega)⟩

/-- The fields of a graph in the order the checksum has them. -/
theorem WorkflowGraph.sortKeys_modelDump (g : WorkflowGraph) :
    sortKeys g.modelDump =
      .obj
        [("edges", sortKeys (.arr (g.edges.map GraphEdge.modelDump))),
          ("metadata", sortKeys (.obj g.metadata)),
          ("nodes", sortKeys (.arr (g.nodes.map GraphNode.modelDump))),
          ("schema_version", .int g.schemaVersion)] := by
  have horder : "metadata" ≤ "schema_version" ∧ "edges" ≤ "metadata" ∧ "edges" ≤ "nodes" ∧
      ¬ "nodes" ≤ "edges" ∧ "nodes" ≤ "schema_version" ∧ ¬ "nodes" ≤ "metadata" ∧
      ¬ "schema_version" ≤ "edges" ∧ ¬ "schema_version" ≤ "metadata" ∧ ¬ "schema_version" ≤ "nodes" := by
    decide
  simp [WorkflowGraph.modelDump, sortKeys, sortFields, horder]

theorem WorkflowGraph.toPublish_eq (hschema : 2 ≤ g.schemaVersion) (hscrubbed : g.Scrubbed) :
    g.toPublish = g := by
  have hnodes : g.nodes.map GraphNode.scrub = g.nodes := by
    refine (map_congr_left fun node hnode ↦ ?_).trans g.nodes.map_id
    have hconfig := dropFields_of_avoidsFields isSecretKey _ (hscrubbed.1 node hnode)
    rw [GraphNode.scrub, sanitizeMapping, hconfig]
    rfl
  have hmetadata := dropFields_of_avoidsFields isSecretKey _ hscrubbed.2
  rw [WorkflowGraph.toPublish, WorkflowGraph.scrub, hnodes, sanitizeMapping, hmetadata,
    max_eq_left hschema]

/-- Publishing changes nothing that the checksum sees exactly when it changes nothing. -/
theorem WorkflowGraph.sortKeys_toPublish_iff (g : WorkflowGraph) :
    sortKeys g.toPublish.modelDump = sortKeys g.modelDump ↔
      2 ≤ g.schemaVersion ∧ g.Scrubbed := by
  refine ⟨fun h ↦ ⟨?_, ?_⟩, fun h ↦ by rw [WorkflowGraph.toPublish_eq h.1 h.2]⟩
  · rw [WorkflowGraph.sortKeys_modelDump, WorkflowGraph.sortKeys_modelDump] at h
    simp only [obj.injEq, List.cons.injEq, Prod.mk.injEq, int.injEq, true_and, and_true] at h
    have hversion : ((max g.schemaVersion 2 : ℕ) : ℤ) = (g.schemaVersion : ℤ) := h.2.2.2
    omega
  · refine WorkflowGraph.scrubbed_of_keyCount ?_
    rw [← keyCount_sortKeys g.toPublish.modelDump, h, keyCount_sortKeys]

/-- A published version stores the checksum of its graph, and runs of it snapshot the same, if and only if
the draft had the schema version of new publishes and nothing to scrub. The one hypothesis is that the
draft and the stored graph are not two different values with the same digest. -/
theorem checksum_names_stored_iff {now : ℕ} {context : CompileContext}
    {version new : WorkflowVersion Json}
    (hparsed : modelValidate intOfText version.graphJson = some parsed)
    (hcollision : graphChecksum digest parsed.toPublish = graphChecksum digest parsed →
      sortKeys parsed.toPublish.modelDump = sortKeys parsed.modelDump)
    (hpublish : version.publish (versioningEnv intOfText digest refusals registry availableTags) now
      context = .ok new) :
    (∃ stored, modelValidate intOfText new.graphJson = some stored ∧
        new.checksum = some (graphChecksum digest stored) ∧
        ∀ runContext,
          (compile intOfText digest refusals registry availableTags new.graphJson runContext).valid →
          (compile intOfText digest refusals registry availableTags new.graphJson runContext).checksum =
            new.checksum) ↔
      2 ≤ parsed.schemaVersion ∧ parsed.Scrubbed := by
  obtain ⟨own, hown, hstored, hchecksum⟩ := publish_stores hpublish
  obtain rfl := mem_unique hparsed hown
  have hread : modelValidate intOfText new.graphJson = some parsed.toPublish := by
    rw [hstored]
    exact modelValidate_modelDump
      (modelValidate_wellFormed hparsed).toPublish
  rw [← WorkflowGraph.sortKeys_toPublish_iff]
  constructor
  · rintro ⟨stored, hstored', hsame, -⟩
    obtain rfl := mem_unique hread hstored'
    exact hcollision (mem_unique hsame hchecksum)
  · intro hsort
    have hsame : graphChecksum digest parsed.toPublish = graphChecksum digest parsed :=
      congrArg digest hsort
    refine ⟨parsed.toPublish, hread, by rw [hchecksum, hsame], fun runContext hvalid ↦ ?_⟩
    obtain ⟨again, hagain, -, hrun⟩ := compile_valid hvalid
    obtain rfl := mem_unique hread hagain
    rw [hrun, hchecksum, hsame]

/-- A draft in the schema version drafts have by default. -/
def oldDraft : Json := .obj [("nodes", .arr [.obj [("id", .str "start"), ("type", .str "manual_trigger")]])]

def versionDigest : Json → String
  | .obj fields =>
    match JsonObject.get fields "schema_version" with
    | some (.int n) => if n = 1 then "digest of version 1" else "digest of version 2"
    | _ => ""
  | _ => ""

def digestEnv : VersioningEnv Json WorkflowGraph :=
  versioningEnv (fun _ ↦ none) versionDigest (fun _ ↦ []) catalogue fun _ ↦ []

def draftOf (doc : Json) : WorkflowVersion Json :=
  { version := 1, graphJson := doc, inputSchemaJson := .obj [], outputSchemaJson := .obj [] }

/-- The draft is published under the checksum of a graph in schema version 1, the stored graph has another
one, and it is that one a run of it snapshots. -/
theorem oldDraft_checksum :
    ((draftOf oldDraft).publish digestEnv 0 {}).toOption.map (fun new ↦
        (new.checksum,
          (modelValidate (fun _ ↦ none) new.graphJson).map (graphChecksum versionDigest),
          (digestEnv.validateGraph new.graphJson {}).valid,
          (digestEnv.validateGraph new.graphJson {}).checksum)) =
      some (some "digest of version 1", some "digest of version 2", true,
        some "digest of version 2") := by
  decide +kernel

/-- A draft that publishing need not change is published under the checksum of what is stored. -/
theorem titleGraph_checksum :
    ∃ new, (draftOf (constantDraft (.obj [("title", .str "x")]))).publish digestEnv 0 {} = .ok new ∧
      ∃ stored, modelValidate (fun _ ↦ none) new.graphJson = some stored ∧
        new.checksum = some (graphChecksum versionDigest stored) ∧
        ∀ runContext, (digestEnv.validateGraph new.graphJson runContext).valid →
          (digestEnv.validateGraph new.graphJson runContext).checksum = new.checksum := by
  obtain ⟨new, hnew⟩ : ∃ new,
      (draftOf (constantDraft (.obj [("title", .str "x")]))).publish digestEnv 0 {} = .ok new :=
    ⟨_, rfl⟩
  have hread : modelValidate (fun _ ↦ none)
      (draftOf (constantDraft (.obj [("title", .str "x")]))).graphJson = some titleGraph :=
    titleGraph_read
  exact ⟨new, hnew, (checksum_names_stored_iff hread (fun _ ↦ rfl) hnew).mpr
    ⟨le_rfl, by decide +kernel⟩⟩

end ContentGenerator.Workflows
