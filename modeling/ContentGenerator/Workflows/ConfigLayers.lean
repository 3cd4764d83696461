import ContentGenerator.Lib.JsonMerge
import ContentGenerator.Workflows.NodeConfigs

/-!
# Layers of node configuration

The configuration of the nodes that a run starts with (`config_resolver.py`, `config_layers.py`,
`config_merge.py`): the settings of the brand and its profile, of the automation, of the accounts and of the
run, each merged from several rows and scrubbed, then merged over the defaults of the node type and the
configuration in the graph.

Each layer has its content, what it sets before it is scrubbed, and what is left of it.
-/

namespace ContentGenerator.Workflows

open Lib JsonObject
open Json (mergeAll str)

/-! ### Helpers -/

/-- `as_mapping`: a copy of a dictionary. -/
def asMapping : Option Json → JsonObject
  | some (.obj fields) => update [] fields
  | _ => []

def applyKeyAliases (payload : JsonObject) : JsonObject :=
  match payload.get "max_length" with
  | some value =>
    if (payload.get "max_tokens").isSome then payload else payload.set "max_tokens" value
  | none => payload

def pickAllowedKeys (payload : JsonObject) (allowed : List String) : JsonObject :=
  payload.filter fun field ↦ field.1 ∈ allowed

/-- A text column that may be empty. -/
def nullableText : Option String → Json
  | some text => .str text
  | none => .null

def textList (texts : List String) : Json := .arr (texts.map str)

/-! ### The rows -/

/-- The columns of `brands` that a layer reads. -/
structure BrandRow where
  niche : String := "general"
  styleGuide : Json := .obj []
  allowedTopics : List String := []
  blockedTopics : List String := []
  targetPlatforms : List String := []
  riskPolicy : Json := .obj []
  postingPolicy : Json := .obj []

/-- The columns of `brand_profiles` that a layer reads. -/
structure BrandProfileRow where
  niche : String := "general"
  tone : String := "authoritative"
  audience : String := "General social audience"
  voiceNotes : Option String := none
  preferredPlatforms : List String := []
  defaultCta : Option String := none
  hashtagsStrategy : String := "balanced"
  riskTolerance : String := "medium"
  guardrails : Json := .obj []
  visualStyle : Json := .obj []

structure AutomationTargetRow where
  socialAccountId : ℕ
  overridesJson : Json := .obj []

/-- The row of `brand_social_accounts` of an account. -/
structure BrandSocialAccountRow where
  generationOverrides : Json := .obj []
  publishingPolicy : Json := .obj []
  platformPolicy : Json := .obj []
  defaultContentFormat : Option String := none

/-- What `build_snapshot` has loaded, and its arguments: the settings of the automation, the accounts in the
order of their ids, and the rows of the accounts for the brand. -/
structure ConfigRows where
  automation : Option Json := none
  brand : Option BrandRow := none
  profile : Option BrandProfileRow := none
  targets : List AutomationTargetRow := []
  accounts : List ℕ := []
  bsaByAccount : List (ℕ × BrandSocialAccountRow) := []
  initialInputs : JsonObject := []
  triggerPayload : JsonObject := []
  runConfig : JsonObject := []

/-! ### The layers -/

/-- What `brand_layer` merges. -/
def brandContent (brand : Option BrandRow) (profile : Option BrandProfileRow) : JsonObject :=
  let layer : JsonObject :=
    match brand with
    | none => []
    | some brand =>
      mergeAll
        [[], asMapping (some brand.styleGuide),
          [("niche", .str brand.niche), ("allowed_topics", textList brand.allowedTopics),
            ("blocked_topics", textList brand.blockedTopics),
            ("target_platforms", textList brand.targetPlatforms)],
          asMapping (some brand.riskPolicy), asMapping (some brand.postingPolicy)]
  match profile with
  | none => layer
  | some profile =>
    mergeAll
      [layer,
        [("tone", .str profile.tone), ("audience", .str profile.audience),
          ("voice_notes", nullableText profile.voiceNotes), ("niche", .str profile.niche),
          ("default_cta", nullableText profile.defaultCta),
          ("hashtags_strategy", .str profile.hashtagsStrategy), ("risk_tolerance", .str profile.riskTolerance),
          ("preferred_platforms", textList profile.preferredPlatforms)],
        asMapping (some profile.guardrails), asMapping (some profile.visualStyle)]

def brandLayer (brand : Option BrandRow) (profile : Option BrandProfileRow) : JsonObject :=
  sanitizeMapping (brandContent brand profile)

/-- What `automation_layers` merges for all nodes. -/
def automationContent (automation : Option Json) : JsonObject :=
  let settings := asMapping automation
  mergeAll [asMapping (settings.get "config"), asMapping (settings.get "editorial")]

def automationOverrides (automation : Option Json) : JsonObject :=
  asMapping ((asMapping automation).get "node_overrides")

def automationLayers (automation : Option Json) : JsonObject × JsonObject :=
  match automation with
  | none => ([], [])
  | some _ => (sanitizeMapping (automationContent automation), sanitizeMapping (automationOverrides automation))

/-- `account_bits`, with its node overrides. -/
def accountBits (rows : ConfigRows) (account : ℕ) : JsonObject :=
  let target := rows.targets.reverse.find? fun target ↦ target.socialAccountId = account
  let bsa := (rows.bsaByAccount.reverse.find? fun entry ↦ entry.1 = account).map Prod.snd
  mergeAll
    [asMapping (target.map AutomationTargetRow.overridesJson),
      asMapping (bsa.map BrandSocialAccountRow.generationOverrides),
      asMapping (bsa.map BrandSocialAccountRow.publishingPolicy),
      asMapping (bsa.map BrandSocialAccountRow.platformPolicy),
      match (bsa.bind BrandSocialAccountRow.defaultContentFormat).filter (· ≠ "") with
      | some contentFormat => [("default_content_format", .str contentFormat)]
      | none => []]

/-- The overrides of one account for the nodes, merged over those of the accounts before it. -/
def addNodeOverrides (nodeOverrides perNode : JsonObject) : JsonObject :=
  perNode.foldl (fun acc entry ↦
    acc.set entry.1
      (.obj (mergeAll [asMapping (acc.get entry.1), asMapping (some entry.2)]))) nodeOverrides

/-- What `account_layers` merges: for all nodes, and by node id. -/
def accountContents (rows : ConfigRows) : JsonObject × JsonObject :=
  rows.accounts.foldl (fun acc account ↦
    let bits := accountBits rows account
    (mergeAll [acc.1, bits.filter fun field ↦ field.1 ≠ "node_overrides"],
      addNodeOverrides acc.2 (asMapping (bits.get "node_overrides")))) ([], [])

def accountLayers (rows : ConfigRows) : JsonObject × JsonObject :=
  (sanitizeMapping (accountContents rows).1, sanitizeMapping (accountContents rows).2)

/-- What `run_layer` merges. -/
def runContent (rows : ConfigRows) : JsonObject :=
  mergeAll
    [asMapping (rows.initialInputs.get "config"),
      asMapping (rows.triggerPayload.get "config"), update [] rows.runConfig]

def runLayer (rows : ConfigRows) : JsonObject := sanitizeMapping (runContent rows)

/-! ### The resolver -/

/-- `ConfigSchema().model_dump()`. -/
def ConfigSchema.defaults (schema : ConfigSchema) : JsonObject :=
  schema.fields.map fun field ↦ (field.name, field.default)

/-- `registry.get`; every node type has version 1. -/
def registeredSchema (nodeType : String) (nodeVersion : ℕ) : Option ConfigSchema :=
  if nodeVersion = 1 then (configSchemas.find? fun entry ↦ entry.1 = nodeType).map Prod.snd else none

def resolveNodeConfig (lax : LaxMode) (schema : ConfigSchema)
    (graphConfig brandLayer automationLayer automationNodeOverrides accountLayer accountNodeOverrides
      runLayer : JsonObject) : Option JsonObject :=
  let merged := mergeAll
    [schema.defaults, applyKeyAliases graphConfig, applyKeyAliases brandLayer, applyKeyAliases automationLayer,
      applyKeyAliases automationNodeOverrides, applyKeyAliases accountLayer,
      applyKeyAliases accountNodeOverrides, applyKeyAliases runLayer]
  schema.modelValidate lax (pickAllowedKeys merged (schema.fields.map ConfigField.name))

/-- The resolved configuration of a node, as `build_snapshot` calls for it. -/
def resolveNode (lax : LaxMode) (rows : ConfigRows) (node : GraphNode) : Option JsonObject := do
  let schema ← registeredSchema node.type node.version
  resolveNodeConfig lax schema (update [] node.config) (brandLayer rows.brand rows.profile)
    (automationLayers rows.automation).1
    (asMapping (JsonObject.get (automationLayers rows.automation).2 node.id)) (accountLayers rows).1
    (asMapping (JsonObject.get (accountLayers rows).2 node.id)) (runLayer rows)

/-- `resolved_node_configs` of `build_snapshot`; a node whose configuration its type refuses ends it. -/
def resolvedNodeConfigs (lax : LaxMode) (rows : ConfigRows) (graph : WorkflowGraph) :
    Option (List (String × JsonObject)) :=
  graph.nodes.mapM fun node ↦ (resolveNode lax rows node).map fun config ↦ (node.id, config)

end ContentGenerator.Workflows
