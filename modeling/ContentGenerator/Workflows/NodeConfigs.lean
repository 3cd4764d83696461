import ContentGenerator.Workflows.Security

/-!
# Node configurations

The configuration models of the registered node types, as lists of typed fields, and what becomes of a
configuration that is scrubbed before it is stored. How texts and numbers are read as values of another
type is given from outside.

Main result: `persisted_config_iff`, a stored configuration has the settings that were submitted exactly
when no declared setting had a name, or held a key, that looks like a secret.
-/

namespace ContentGenerator.Workflows

open Lib List Option WorkflowGraph

/-! ### Typed fields -/

structure LaxMode where
  intOfText : String → Option ℤ
  floatOfText : String → Option ℚ
  boolOfText : String → Option Bool
  datetimeOfText : String → Option String
  datetimeOfNumber : ℚ → Option String

inductive ConfigType
  | bool
  | text (pattern : Option (List String)) (maxLength : Option ℕ)
  | int (ge le : Option ℤ)
  | float (gt ge le : Option ℚ)
  | textList
  | datetime
  | any
  deriving DecidableEq

structure ConfigField where
  name : String
  type : ConfigType
  optional : Bool := false
  default : Json
  deriving DecidableEq

/-- A configuration model: its fields, `extra="forbid"`, and its validator of the whole. -/
structure ConfigSchema where
  fields : List ConfigField := []
  forbidExtra : Bool := false
  check : JsonObject → Bool := fun _ ↦ true

/-- A bound of a constraint holds, or there is none. -/
def withinBound {α : Type} (within : α → Bool) (bound : Option α) : Bool := (bound.map within).getD true

def isText : Json → Bool
  | .str _ => true
  | _ => false

/-- A `float`. -/
def laxFloat (lax : LaxMode) : Json → Option ℚ
  | .float value => some value
  | .int value => some value
  | .bool value => some (if value then 1 else 0)
  | .str text => lax.floatOfText text
  | _ => none

/-- A `bool`. -/
def laxBool (lax : LaxMode) : Json → Option Bool
  | .bool value => some value
  | .int value => if value = 0 then some false else if value = 1 then some true else none
  | .float value => if value = 0 then some false else if value = 1 then some true else none
  | .str text => lax.boolOfText text
  | _ => none

/-- A `datetime`, as the text it is dumped as. -/
def laxDatetime (lax : LaxMode) : Json → Option String
  | .str text => lax.datetimeOfText text
  | .int value => lax.datetimeOfNumber value
  | .float value => lax.datetimeOfNumber value
  | _ => none

def ConfigType.read (lax : LaxMode) : ConfigType → Json → Option Json
  | .bool, value => (laxBool lax value).map .bool
  | .text pattern maxLength, .str word =>
    if withinBound (word ∈ ·) pattern ∧ withinBound (word.length ≤ ·) maxLength then some (.str word)
    else none
  | .text _ _, _ => none
  | .int ge le, value =>
    (laxInt lax.intOfText value).bind fun n ↦
      if withinBound (· ≤ n) ge ∧ withinBound (n ≤ ·) le then some (.int n) else none
  | .float gt ge le, value =>
    (laxFloat lax value).bind fun x ↦
      if withinBound (· < x) gt ∧ withinBound (· ≤ x) ge ∧ withinBound (x ≤ ·) le then some (.float x)
      else none
  | .textList, .arr items => if items.all isText then some (.arr items) else none
  | .textList, _ => none
  | .datetime, value => (laxDatetime lax value).map .str
  | .any, value => some value

/-- What a field is read as: a missing one has its default, and an optional one may be `None`. -/
def ConfigField.read (lax : LaxMode) (field : ConfigField) : Option Json → Option Json
  | none => some field.default
  | some value =>
    if field.optional ∧ value = .null then some .null else field.type.read lax value

def ConfigSchema.modelValidate (lax : LaxMode) (schema : ConfigSchema) (config : JsonObject) :
    Option JsonObject :=
  if schema.forbidExtra ∧ ¬ hasOnly config (schema.fields.map ConfigField.name) then none
  else do
    let values ← schema.fields.mapM fun field ↦
      (field.read lax (config.get field.name)).map fun value ↦ (field.name, value)
    if schema.check values then some values else none

/-! ### The models -/

def emptyModel : ConfigSchema := { forbidExtra := true }

def manualTriggerConfig : ConfigSchema where
  fields := [{ name := "label", type := .text none none, optional := true, default := .null }]

def webhookTriggerNodeConfig : ConfigSchema where
  fields :=
    [{ name := "label", type := .text none none, optional := true, default := .null },
      { name := "expected_endpoint_id", type := .text none (some 64), optional := true, default := .null }]

def researchSourcesConfig : ConfigSchema := {}

/-- `max_tokens` of `GenerateTextConfig`. -/
def maxTokens : ConfigField :=
  { name := "max_tokens", type := .int (some 16) (some 8000), default := .int 800 }

def generateTextConfig : ConfigSchema where
  fields :=
    [maxTokens,
      { name := "temperature", type := .float none (some 0) (some 2), default := .float (7 / 10) },
      { name := "task", type := .text none none, default := .str "default" },
      { name := "tone", type := .text none none, optional := true, default := .null }]

def generateCanonicalContentConfig : ConfigSchema := {}

def summarizeConfig : ConfigSchema where
  fields := [{ name := "max_words", type := .int (some 10) (some 2000), default := .int 120 }]

def generateScriptConfig : ConfigSchema where
  fields :=
    [{ name := "tone", type := .text none none, default := .str "urgent" },
      { name := "max_words", type := .int (some 20) (some 500), default := .int 120 }]

def factReviewConfig : ConfigSchema where
  fields :=
    [{ name := "mode", type := .text (some ["topic", "package"]) none, default := .str "topic" },
      { name := "content_vertical", type := .text none none, default := .str "general" },
      { name := "topic_risk_level", type := .text none none, default := .str "medium" }]

def generateImageConfig : ConfigSchema where
  fields := [{ name := "platform", type := .text none none, default := .str "default" }]

def generateTTSConfig : ConfigSchema where
  fields :=
    [{ name := "platform", type := .text none none, default := .str "default" },
      { name := "cta_default", type := .text none none, default := .str "Follow for more updates." }]

def generateVideoConfig : ConfigSchema where
  fields :=
    [{ name := "mode", type := .text (some ["script_pipeline", "full_pipeline"]) none
       default := .str "script_pipeline" },
      { name := "tone", type := .text none none, default := .str "urgent" }]

def generateChessVideoConfig : ConfigSchema where
  fields :=
    [{ name := "input_format", type := .text (some ["pgn", "san", "uci", "auto"]) none
       default := .str "auto" },
      { name := "orientation", type := .text (some ["white", "black"]) none, default := .str "white" },
      { name := "render_preset"
        type := .text (some ["economy_vertical", "social_vertical", "square", "horizontal"]) none
        default := .str "economy_vertical" },
      { name := "board_theme"
        type := .text
          (some ["classic_wood", "tournament_green", "midnight_blue", "slate", "high_contrast"]) none
        default := .str "classic_wood" },
      { name := "seconds_per_move", type := .float none (some (1 / 5)) (some 10), default := .float 1 },
      { name := "include_coordinates", type := .bool, default := .bool true },
      { name := "include_move_text", type := .bool, default := .bool true },
      { name := "sync", type := .bool, default := .bool false }]

def retrieveChessPuzzleConfig : ConfigSchema where
  fields := [{ name := "use_daily", type := .bool, default := .bool false }]

def analyzeChessGameConfig : ConfigSchema where
  fields :=
    [{ name := "depth", type := .int (some 1) (some 40), optional := true, default := .null },
      { name := "time_limit_seconds", type := .float (some 0) none (some 60), optional := true
        default := .null },
      { name := "sync", type := .bool, default := .bool false }]

def selectCriticalMomentConfig : ConfigSchema where
  fields :=
    [{ name := "min_confidence", type := .float none (some 0) (some 1), default := .float (7 / 10) },
      { name := "classifications", type := .textList, default := .arr [] },
      { name := "limit", type := .int (some 1) (some 50), default := .int 5 }]

def approvalConfig : ConfigSchema where
  fields :=
    [{ name := "required", type := .bool, default := .bool true },
      { name := "channels", type := .textList, default := .arr [.str "in_app", .str "telegram"] },
      { name := "timeout_seconds", type := .int (some 60) none, default := .int 86400 },
      { name := "on_timeout", type := .text none none, default := .str "stop" },
      { name := "allow_revision", type := .bool, default := .bool true },
      { name := "recipient", type := .text none none, optional := true, default := .null }]

/-- `compare_to` of `ConditionConfig`. -/
def compareTo : ConfigField := { name := "compare_to", type := .any, optional := true, default := .null }

def conditionConfig : ConfigSchema where
  fields :=
    [{ name := "field", type := .text none none, default := .str "value" },
      { name := "operator", type := .text (some ["truthy", "eq", "neq", "gt", "gte", "lt", "lte"]) none
        default := .str "truthy" },
      compareTo,
      { name := "true_branch", type := .text none none, default := .str "true" },
      { name := "false_branch", type := .text none none, default := .str "false" }]

def fanOutConfig : ConfigSchema where
  fields := [{ name := "mode", type := .text (some ["list", "account_ids"]) none, default := .str "list" }]

def mergeConfig : ConfigSchema where
  fields := [{ name := "mode", type := .text (some ["all", "any"]) none, default := .str "all" }]

def waitConfig : ConfigSchema where
  fields :=
    [{ name := "event", type := .text (some ["manual", "webhook"]) none, default := .str "manual" },
      { name := "timeout_seconds", type := .int (some 60) (some 604800), optional := true
        default := .null },
      { name := "on_timeout", type := .text (some ["fail", "continue"]) none, default := .str "fail" }]

/-- `DelayConfig`; its validator wants one of the two schedules. -/
def delayConfig : ConfigSchema where
  fields :=
    [{ name := "duration_seconds", type := .int (some 1) (some 604800), optional := true
       default := .int 60 },
      { name := "until", type := .datetime, optional := true, default := .null }]
  check := fun values ↦
    values.get "until" ≠ some .null ∨ values.get "duration_seconds" ≠ some .null

def platformTransformConfig : ConfigSchema where
  fields := [{ name := "include_hashtags", type := .bool, default := .bool true }]

def publishConfig : ConfigSchema where
  fields :=
    [{ name := "dry_run", type := .bool, default := .bool true },
      { name := "platforms", type := .textList, optional := true, default := .null }]

def fetchMetricsConfig : ConfigSchema where
  fields := [{ name := "sync", type := .bool, default := .bool true }]

/-- The configuration models of `ALL_NODE_TYPES`. -/
def configSchemas : List (String × ConfigSchema) :=
  [("manual_trigger", manualTriggerConfig), ("schedule_trigger", emptyModel),
    ("webhook_trigger", webhookTriggerNodeConfig), ("research_sources", researchSourcesConfig),
    ("generate_text", generateTextConfig),
    ("generate_canonical_content", generateCanonicalContentConfig), ("summarize", summarizeConfig),
    ("generate_script", generateScriptConfig), ("fact_review", factReviewConfig),
    ("generate_image", generateImageConfig), ("generate_tts", generateTTSConfig),
    ("generate_video", generateVideoConfig), ("generate_chess_video", generateChessVideoConfig),
    ("retrieve_chess_game", emptyModel), ("retrieve_chess_puzzle", retrieveChessPuzzleConfig),
    ("analyze_chess_game", analyzeChessGameConfig),
    ("select_critical_moment", selectCriticalMomentConfig), ("score_chess_content", emptyModel),
    ("generate_chess_narrative", emptyModel), ("approval", approvalConfig),
    ("condition", conditionConfig), ("fan_out", fanOutConfig), ("merge", mergeConfig),
    ("wait", waitConfig), ("delay", delayConfig), ("platform_transform", platformTransformConfig),
    ("publish", publishConfig), ("fetch_metrics", fetchMetricsConfig)]

/-! ### Scrubbed configurations -/

variable {lax : LaxMode} {config values : JsonObject} {schema : ConfigSchema}

/-- A value that is read as something other than itself holds no object, so there is nothing to strip. -/
theorem stripSecrets_of_read {type : ConfigType} {value read : Json} (hany : type ≠ .any)
    (h : type.read lax value = some read) : stripSecrets value = value := by
  cases value with
  | obj fields => cases type <;> simp_all [ConfigType.read, laxBool, laxInt, laxFloat, laxDatetime]
  | arr items =>
    cases type with
    | textList =>
      have htexts : items.all isText := by
        by_contra hno
        simp [ConfigType.read, hno] at h
      refine Json.dropKeys_of_avoidsKeys isSecretKey _ ?_
      rw [Json.avoidsKeys, Json.avoidsItems_iff]
      intro item hitem
      have htext : isText item := List.all_eq_true.mp htexts item hitem
      cases item <;> first | rfl | exact absurd htext (by simp [isText])
    | _ => simp_all [ConfigType.read, laxBool, laxInt, laxFloat, laxDatetime]
  | _ => rfl

/-- The setting survives scrubbing: a field with a secret-looking name reads as its default, and the value
of a field that takes anything holds no secret-looking key. -/
def ConfigField.Survives (lax : LaxMode) (field : ConfigField) (config : JsonObject) : Prop :=
  (isSecretKey field.name →
    field.read lax (config.get field.name) = some field.default) ∧
  (isSecretKey field.name = false → field.type = .any →
    ∀ value, config.get field.name = some value → SecretFree value)

/-- A field that takes anything. -/
theorem ConfigField.read_any {field : ConfigField} (hany : field.type = .any) (value : Json) :
    field.read lax (some value) = some value := by
  unfold ConfigField.read
  dsimp only
  rw [hany]
  split_ifs with hnull
  · rw [hnull.2]
  · rfl

theorem ConfigField.read_sanitizeMapping_iff {field : ConfigField} {value : Json}
    (h : field.read lax (config.get field.name) = some value) :
    field.read lax ((sanitizeMapping config).get field.name) = some value ↔
      field.Survives lax config := by
  unfold ConfigField.Survives sanitizeMapping
  cases hsecret : isSecretKey field.name with
  | true =>
    rw [Json.get_dropFields_of_unwanted isSecretKey hsecret, h]
    simp only [true_imp_iff, Bool.true_eq_false, false_imp_iff, and_true]
    exact eq_comm
  | false =>
    rw [Json.get_dropFields isSecretKey hsecret]
    simp only [Bool.false_eq_true, false_imp_iff, true_and, true_imp_iff]
    cases hget : config.get field.name with
    | none =>
      rw [hget] at h
      simp [h]
    | some submitted =>
      rw [hget] at h
      rw [map_some]
      by_cases hany : field.type = .any
      · rw [ConfigField.read_any hany] at h ⊢
        cases h
        simp only [Option.some.injEq, hany, true_imp_iff, forall_eq']
        exact Json.dropKeys_eq_self_iff isSecretKey
      · have hstrip : Json.dropKeys isSecretKey submitted = submitted := by
          unfold ConfigField.read at h
          dsimp only at h
          split_ifs at h with hnull
          · rw [hnull.2]
            rfl
          · exact stripSecrets_of_read hany h
        rw [hstrip, h]
        exact iff_of_true rfl fun hyes ↦ absurd hyes hany

/-- Two readers of a list agree on the result when they agree on every item. -/
theorem mapM_eq_some_iff {α β : Type} {f f' : α → Option β} {items : List α} {read : List β}
    (h : items.mapM f = some read) : items.mapM f' = some read ↔ ∀ item ∈ items, f' item = f item := by
  induction items generalizing read with
  | nil => simpa using h
  | cons item rest ih =>
    rw [mapM_cons] at h
    obtain ⟨head, hhead, h⟩ := bind_eq_some_iff.mp h
    obtain ⟨tail, htail, h⟩ := bind_eq_some_iff.mp h
    cases h
    rw [mapM_cons, forall_mem_cons, ← ih htail, hhead]
    constructor
    · intro hread
      obtain ⟨head', hhead', hread⟩ := bind_eq_some_iff.mp hread
      obtain ⟨tail', htail', hread⟩ := bind_eq_some_iff.mp hread
      obtain ⟨rfl, rfl⟩ := List.cons.inj (Option.some.inj hread)
      exact ⟨hhead', htail'⟩
    · rintro ⟨hhead', htail'⟩
      rw [hhead', htail']
      rfl

theorem exists_of_mapM {α β : Type} {f : α → Option β} {items : List α} {read : List β}
    (h : items.mapM f = some read) : ∀ item ∈ items, ∃ b, f item = some b := by
  induction items generalizing read with
  | nil => simp
  | cons item rest ih =>
    rw [mapM_cons] at h
    obtain ⟨head, hhead, h⟩ := bind_eq_some_iff.mp h
    obtain ⟨tail, htail, -⟩ := bind_eq_some_iff.mp h
    exact forall_mem_cons.mpr ⟨⟨head, hhead⟩, ih htail⟩

/-- Dropping fields leaves no new ones. -/
theorem hasOnly_sanitizeMapping {names : List String} (h : hasOnly config names) :
    hasOnly (sanitizeMapping config) names := by
  unfold hasOnly sanitizeMapping at *
  induction config with
  | nil => rfl
  | cons field rest ih =>
    obtain ⟨name, value⟩ := field
    rw [all_cons, Bool.and_eq_true] at h
    unfold Json.dropFields
    split_ifs with hsecret
    · exact ih h.2
    · rw [all_cons, Bool.and_eq_true]
      exact ⟨h.1, ih h.2⟩

/-- A scrubbed configuration is validated to the same values exactly when every declared setting survives
scrubbing. -/
theorem ConfigSchema.modelValidate_sanitizeMapping_iff
    (h : schema.modelValidate lax config = some values) :
    schema.modelValidate lax (sanitizeMapping config) = some values ↔
      ∀ field ∈ schema.fields, field.Survives lax config := by
  unfold ConfigSchema.modelValidate at h ⊢
  split_ifs at h with hextra
  have hextra' : ¬ (schema.forbidExtra ∧
      ¬ hasOnly (sanitizeMapping config) (schema.fields.map ConfigField.name)) := by
    rintro ⟨hforbid, hmore⟩
    exact hmore (hasOnly_sanitizeMapping (by_contra fun hno ↦ hextra ⟨hforbid, hno⟩))
  rw [if_neg hextra']
  obtain ⟨read, hread, h⟩ := bind_eq_some_iff.mp h
  split_ifs at h with hcheck
  obtain rfl := Option.some.inj h
  have hsame : (∀ field ∈ schema.fields,
      (field.read lax ((sanitizeMapping config).get field.name)).map (field.name, ·) =
        (field.read lax (config.get field.name)).map (field.name, ·)) ↔
          ∀ field ∈ schema.fields, field.Survives lax config := by
    refine forall₂_congr fun field hfield ↦ ?_
    obtain ⟨entry, hentry⟩ := exists_of_mapM hread field hfield
    obtain ⟨value, hvalue, -⟩ := map_eq_some_iff.mp hentry
    rw [← ConfigField.read_sanitizeMapping_iff hvalue, hvalue]
    exact (map_injective (Prod.mk_right_injective field.name)).eq_iff
  rw [← hsame, ← mapM_eq_some_iff hread]
  constructor
  · intro hagain
    obtain ⟨again, hmapM, hagain⟩ := bind_eq_some_iff.mp hagain
    split_ifs at hagain with hcheck'
    exact Option.some.inj hagain ▸ hmapM
  · intro hmapM
    exact bind_eq_some_iff.mpr ⟨read, hmapM, if_pos hcheck⟩

/-! ### The settings that are at stake -/

/-- `max_tokens` of a text node has its default, and what a condition compares to holds no secret-looking
key. -/
def SettingsSurvive (lax : LaxMode) (type : String) (config : JsonObject) : Prop :=
  (type = "generate_text" →
    maxTokens.read lax (config.get maxTokens.name) = some maxTokens.default) ∧
  (type = "condition" → ∀ value, config.get compareTo.name = some value → SecretFree value)

/-- No other declared field has a secret-looking name, and no other one takes anything. -/
theorem configSchemas_fields : ∀ entry ∈ configSchemas, ∀ field ∈ entry.2.fields,
    (isSecretKey field.name → entry.1 = "generate_text" ∧ field = maxTokens) ∧
      (field.type = .any → entry.1 = "condition" ∧ field = compareTo) := by
  decide +kernel

theorem maxTokens_mem : ∀ entry ∈ configSchemas,
    (entry.1 = "generate_text" → maxTokens ∈ entry.2.fields) ∧
      (entry.1 = "condition" → compareTo ∈ entry.2.fields) := by
  decide +kernel

theorem isSecretKey_maxTokens : isSecretKey maxTokens.name ∧ isSecretKey compareTo.name = false := by
  decide +kernel

/-- Every declared setting of a registered node type survives exactly when the two at stake do. -/
theorem survives_iff {type : String} (hentry : (type, schema) ∈ configSchemas) :
    (∀ field ∈ schema.fields, field.Survives lax config) ↔ SettingsSurvive lax type config := by
  obtain ⟨hsecret, hplain⟩ := isSecretKey_maxTokens
  obtain ⟨hmax, hcompare⟩ := maxTokens_mem _ hentry
  constructor
  · intro hall
    exact ⟨fun htext ↦ (hall maxTokens (hmax htext)).1 hsecret,
      fun hcondition ↦ (hall compareTo (hcompare hcondition)).2 hplain rfl⟩
  · rintro ⟨htext, hcondition⟩ field hfield
    have hboth := configSchemas_fields (type, schema) hentry field hfield
    refine ⟨fun hlooks ↦ ?_, fun _ htakes ↦ ?_⟩
    · rw [(hboth.1 hlooks).2]
      exact htext (hboth.1 hlooks).1
    · rw [(hboth.2 htakes).2]
      exact hcondition (hboth.2 htakes).1

/-! ### Stored configurations -/

variable {intOfText : String → Option ℤ} {digest : Json → String} {doc : Json}
  {g parsed : WorkflowGraph} {refusals : Json → List String} {registry : WorkflowNodeRegistry}
  {availableTags : CompileContext → List String}

def storedConfig (intOfText : String → Option ℤ) (graphJson : Json) (position : ℕ) : Option JsonObject :=
  (modelValidate intOfText graphJson).bind fun g ↦
    g.nodes[position]?.map GraphNode.config

/-- The stored configuration of a node is validated to the values. -/
def KeepsSettings (lax : LaxMode) (schema : ConfigSchema) (graphJson : Json) (position : ℕ)
    (values : JsonObject) : Prop :=
  ((storedConfig lax.intOfText graphJson position).bind (schema.modelValidate lax)) = some values

/-- A graph whose nodes have been scrubbed. -/
theorem storedConfig_scrubbed {position : ℕ} {node : GraphNode} (hwell : g.WellFormed)
    (hnodes : g.nodes = parsed.nodes.map GraphNode.scrub) (hnode : parsed.nodes[position]? = some node) :
    storedConfig intOfText g.modelDump position = some (sanitizeMapping node.config) := by
  unfold storedConfig
  rw [modelValidate_modelDump hwell, bind_some, hnodes, getElem?_map, hnode]
  rfl

/-- A configuration that its model accepts is validated to the same settings when `save_draft` has stored
it, and when `publish` has stored it again, if and only if the two settings at stake survive. -/
theorem persisted_config_iff {type : String} (hentry : (type, schema) ∈ configSchemas) {position : ℕ}
    {node : GraphNode} {graph : WorkflowGraph} {inputSchemaJson outputSchemaJson : Option Json}
    {draft : WorkflowVersion Json}
    (hparsed : modelValidate lax.intOfText doc = some parsed)
    (hnode : parsed.nodes[position]? = some node) (htype : node.type = type)
    (haccepted : schema.modelValidate lax node.config = some values)
    (hgraph : sanitizeWorkflowGraph lax.intOfText doc = some graph)
    (hdraft : (∃ latest : WorkflowVersion Json,
        draft = latest.edit (versioningEnv lax.intOfText digest refusals registry availableTags) graph
          inputSchemaJson outputSchemaJson) ∨
      ∃ versionNumber,
        draft = .draft (versioningEnv lax.intOfText digest refusals registry availableTags) graph
          inputSchemaJson outputSchemaJson versionNumber) :
    (KeepsSettings lax schema draft.graphJson position values ∧
        ∀ now context new,
          draft.publish (versioningEnv lax.intOfText digest refusals registry availableTags) now context =
            .ok new →
          KeepsSettings lax schema new.graphJson position values) ↔
      SettingsSurvive lax node.type node.config := by
  obtain rfl := mem_unique (sanitizeWorkflowGraph_eq hparsed) hgraph
  have hwell := modelValidate_wellFormed hparsed
  have hstored : draft.graphJson = parsed.scrub.modelDump := by
    rcases hdraft with ⟨latest, rfl⟩ | ⟨versionNumber, rfl⟩
    · rfl
    · rfl
  have hkeeps : ∀ g : WorkflowGraph, g.WellFormed → g.nodes = parsed.nodes.map GraphNode.scrub →
      (KeepsSettings lax schema g.modelDump position values ↔ SettingsSurvive lax node.type node.config) := by
    intro g hg hnodes
    unfold KeepsSettings
    rw [storedConfig_scrubbed hg hnodes hnode, bind_some,
      ConfigSchema.modelValidate_sanitizeMapping_iff haccepted, htype]
    exact survives_iff hentry
  rw [hstored, hkeeps parsed.scrub hwell.scrub rfl]
  refine and_iff_left_of_imp fun hsurvive now context new hpublish ↦ ?_
  obtain ⟨again, hagain, hnew, -⟩ := publish_stores hpublish
  rw [hstored, modelValidate_modelDump hwell.scrub] at hagain
  cases hagain
  rw [hnew]
  refine (hkeeps _ hwell.scrub.toPublish ?_).mpr hsurvive
  exact congrArg WorkflowGraph.nodes parsed.scrub_scrub

def plainMode : LaxMode where
  intOfText := fun _ ↦ none
  floatOfText := fun _ ↦ none
  boolOfText := fun _ ↦ none
  datetimeOfText := fun _ ↦ none
  datetimeOfNumber := fun _ ↦ none

def textGraph (config : JsonObject) : WorkflowGraph where
  nodes := [{ id := "write", type := "generate_text", config := config }]
  edges := []

/-- A limit of 64 tokens is accepted, and stored as one of 800. -/
theorem maxTokens_lost :
    (generateTextConfig.modelValidate plainMode [("max_tokens", .int 64)]).bind
        (fun values ↦ values.get "max_tokens") = some (.int 64) ∧
    ((sanitizeWorkflowGraph (fun _ ↦ none) (textGraph [("max_tokens", .int 64)]).modelDump).bind
      fun graph ↦
        (storedConfig (fun _ ↦ none) (WorkflowVersion.draft catalogueVersioning graph none none 1).graphJson
          0).bind fun config ↦
            (generateTextConfig.modelValidate plainMode config).bind fun values ↦
              values.get "max_tokens") = some (.int 800) := by
  decide +kernel

/-- The values a text node with a tone is validated to. -/
def calmValues : JsonObject :=
  [("max_tokens", .int 800), ("temperature", .float (7 / 10)), ("task", .str "default"),
    ("tone", .str "calm")]

theorem tone_kept :
    KeepsSettings plainMode generateTextConfig
      (WorkflowVersion.draft catalogueVersioning (textGraph [("tone", .str "calm")]) none none 1).graphJson 0
      calmValues := by
  have hread : modelValidate plainMode.intOfText
      (textGraph [("tone", .str "calm")]).modelDump = some (textGraph [("tone", .str "calm")]) := rfl
  have hscrub : sanitizeWorkflowGraph plainMode.intOfText
      (textGraph [("tone", .str "calm")]).modelDump = some (textGraph [("tone", .str "calm")]) := by
    rfl
  have hentry : ("generate_text", generateTextConfig) ∈ configSchemas := by simp [configSchemas]
  exact ((persisted_config_iff hentry hread rfl rfl rfl hscrub (.inr ⟨1, rfl⟩)).mpr
    ⟨fun _ ↦ rfl, fun hcondition ↦ absurd hcondition (by decide)⟩).1

end ContentGenerator.Workflows
