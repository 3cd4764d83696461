import ContentGenerator.Lib.Uuid
import ContentGenerator.Workflows.NodeConfigs
import ContentGenerator.Workflows.Scheduler

/-!
# Creating webhook automations

`create_automation` and `update_automation` scrub the submitted trigger configuration before they normalize
it for a webhook or event automation. The scrubbing drops every key that looks like a secret, and
`signing_secret_ref`, the one reference a webhook configuration needs, does (`get_sanitized_secret_ref`).

Main result: `webhook_automation_refused`, no webhook configuration can be submitted.
-/

namespace ContentGenerator.Workflows

open Lib JsonObject

/-! ### The configuration model -/

/-- `_ENDPOINT_RE`. -/
def matchesEndpoint (text : String) : Bool :=
  8 ≤ text.length ∧ text.length ≤ 64 ∧ text.toList.all fun c ↦ c.isAlphanum ∨ c ∈ ['_', '-']

/-- `_REF_RE`. -/
def matchesRef (text : String) : Bool :=
  1 ≤ text.length ∧ text.length ≤ 256 ∧ text.toList.all fun c ↦ c.isAlphanum ∨ c ∈ ['_', '.', ':', '/', '-']

/-- The field `endpoint_id` with its validator. -/
def readEndpointId : Json → Option Json
  | .str value =>
    if 8 ≤ value.length ∧ value.length ≤ 64 ∧ matchesEndpoint (pyStrip value) then some (.str (pyStrip value))
    else none
  | _ => none

/-- The field `signing_secret_ref` with its validator. -/
def readSecretRef : Json → Option Json
  | .str value =>
    let raw := pyStrip value
    if 1 ≤ value.length ∧ value.length ≤ 256 ∧
        ¬ (["password", "secret=", "token="].any fun token ↦ pyIn token (pyLower raw)) ∧ matchesRef raw then
      some (.str raw)
    else none
  | _ => none

/-- The fields of `WebhookTriggerConfig` that have a default. -/
def webhookConfigFields : List ConfigField :=
  [{ name := "provider", type := .text (some ["generic_hmac", "hmac_sha256"]) none,
     default := .str "generic_hmac" },
    { name := "signature_header", type := .text none (some 128), default := .str "X-SignalForge-Signature" },
    { name := "timestamp_header", type := .text none (some 128), default := .str "X-SignalForge-Timestamp" },
    { name := "idempotency_header", type := .text none (some 128), default := .str "X-Idempotency-Key" },
    { name := "max_skew_seconds", type := .int (some 30) (some 3600), default := .int 300 },
    { name := "require_timestamp", type := .bool, default := .bool true }]

/-- `WebhookTriggerConfig.model_validate`, as the dictionary that `model_dump` makes of the model. Equally
`parse_webhook_trigger_config`. -/
def parseWebhookTriggerConfig (lax : LaxMode) (raw : JsonObject) : Option JsonObject := do
  let endpointId ← (raw.get "endpoint_id").bind readEndpointId
  let secretRef ← (raw.get "signing_secret_ref").bind readSecretRef
  let values ← webhookConfigFields.mapM fun field ↦
    (field.read lax (raw.get field.name)).map fun value ↦ (field.name, value)
  return ("endpoint_id", endpointId) :: ("signing_secret_ref", secretRef) :: values

/-- What the code of other packages gives: the conversions of the models, a fresh endpoint id, the text of a
validation error, and `str` of floats and containers. -/
structure WebhookSupport where
  lax : LaxMode
  newEndpointId : String
  validationError : JsonObject → String
  render : Json → String

/-- `normalize_webhook_trigger_config`; an error is the text of a `ValueError`. -/
def normalizeWebhookTriggerConfig (support : WebhookSupport) (raw : JsonObject)
    (existingEndpointId : Option String) : Except String JsonObject :=
  let payload :=
    if (getTruthy raw "endpoint_id").isSome then raw
    else raw.set "endpoint_id"
      (.str ((existingEndpointId.filter (· ≠ "")).getD support.newEndpointId))
  let secretRef := (getTruthy payload "signing_secret_ref").map (Json.text support.render)
  if pyStrip (secretRef.getD "") = "" then .error "signing_secret_ref is required for webhook triggers"
  else
    let banned := ["signing_secret", "secret", "webhook_secret", "hmac_secret"]
    let cleaned := payload.filter fun field ↦ field.1 ∉ banned
    match parseWebhookTriggerConfig support.lax cleaned with
    | some config => .ok config
    | none => .error (support.validationError cleaned)

/-! ### The service -/

/-- The columns of an automation that the service writes. -/
structure StoredAutomation where
  name : String
  workflowVersionId : Uuid
  brandId : Uuid
  enabled : Bool
  triggerType : AutomationTriggerType
  triggerConfig : JsonObject
  timezone : String
  settings : JsonObject
  webhookEndpointId : Option String

structure AutomationCreateRequest where
  name : String
  enabled : Bool := false
  triggerType : AutomationTriggerType := .manual
  triggerConfig : JsonObject := []
  timezone : String := "UTC"
  settings : JsonObject := []

structure AutomationUpdateRequest where
  name : Option String := none
  workflowVersionId : Option Uuid := none
  brandId : Option Uuid := none
  enabled : Option Bool := none
  triggerType : Option AutomationTriggerType := none
  triggerConfig : Option JsonObject := none
  timezone : Option String := none
  settings : Option JsonObject := none

/-- `trigger_type in {"webhook", "event"}`. -/
def AutomationTriggerType.isWebhook : AutomationTriggerType → Bool
  | .webhook | .event => true
  | .manual | .schedule => false

/-- `str(config["endpoint_id"])`. -/
def endpointOf (support : WebhookSupport) (config : JsonObject) : String :=
  ((config.get "endpoint_id").map (Json.text support.render)).getD ""

/-- The submitted configuration as it is stored, with the endpoint: normalized for a webhook. -/
def storedTriggerConfig (support : WebhookSupport) (triggerType : AutomationTriggerType) (config : JsonObject)
    (existingEndpointId : Option String) : Except PyException (JsonObject × Option String) :=
  if triggerType.isWebhook then
    match normalizeWebhookTriggerConfig support config existingEndpointId with
    | .error message => .error (httpException 422 message)
    | .ok normalized => .ok (normalized, some (endpointOf support normalized))
  else .ok (config, none)

/-- `create_automation`. `checks` are its checks of the workflow, the version, the brand and the accounts,
which give the version and the brand. -/
def createAutomation (support : WebhookSupport) (checks : Except PyException (Uuid × Uuid))
    (payload : AutomationCreateRequest) : Except PyException StoredAutomation := do
  let (versionId, brandId) ← checks
  let (config, endpoint) ← storedTriggerConfig support payload.triggerType
    (sanitizeMapping payload.triggerConfig) none
  return { name := pyStrip payload.name
           workflowVersionId := versionId
           brandId := brandId
           enabled := payload.enabled
           triggerType := payload.triggerType
           triggerConfig := config
           timezone := payload.timezone
           settings := sanitizeMapping payload.settings
           webhookEndpointId := endpoint }

/-- The checks of `update_automation` on what the request names. -/
structure UpdateChecks where
  version : Except PyException Unit := .ok ()
  brand : Except PyException Unit := .ok ()
  accounts : Except PyException Unit := .ok ()

/-- The check is made when the request names the thing. -/
def checkIf {α : Type} (named : Option α) (check : Except PyException Unit) : Except PyException Unit :=
  if named.isSome then check else .ok ()

/-- The trigger configuration and the endpoint after `update_automation`. -/
def updatedTriggerConfig (support : WebhookSupport) (automation : StoredAutomation)
    (payload : AutomationUpdateRequest) : Except PyException (JsonObject × Option String) :=
  let triggerType := payload.triggerType.getD automation.triggerType
  match payload.triggerConfig with
  | some config => storedTriggerConfig support triggerType (sanitizeMapping config) automation.webhookEndpointId
  | none =>
    match payload.triggerType with
    | some named =>
      if named.isWebhook then
        storedTriggerConfig support named automation.triggerConfig automation.webhookEndpointId
      else .ok (automation.triggerConfig, none)
    | none => .ok (automation.triggerConfig, automation.webhookEndpointId)

/-- `update_automation` on the automation it has loaded. -/
def updateAutomation (support : WebhookSupport) (checks : UpdateChecks) (automation : StoredAutomation)
    (payload : AutomationUpdateRequest) : Except PyException StoredAutomation := do
  checkIf payload.workflowVersionId checks.version
  checkIf payload.brandId checks.brand
  let (config, endpoint) ← updatedTriggerConfig support automation payload
  checks.accounts
  return { name := (payload.name.map pyStrip).getD automation.name
           workflowVersionId := payload.workflowVersionId.getD automation.workflowVersionId
           brandId := payload.brandId.getD automation.brandId
           enabled := payload.enabled.getD automation.enabled
           triggerType := payload.triggerType.getD automation.triggerType
           triggerConfig := config
           timezone := payload.timezone.getD automation.timezone
           settings := (payload.settings.map sanitizeMapping).getD automation.settings
           webhookEndpointId := endpoint }

/-! ### No webhook configuration passes -/

def secretRefRequired : PyException := httpException 422 "signing_secret_ref is required for webhook triggers"

/-- Scrubbing drops the reference of the signing secret. -/
theorem get_sanitized_secret_ref (config : JsonObject) :
    (sanitizeMapping config).get "signing_secret_ref" = none :=
  Json.get_dropFields_of_unwanted isSecretKey (by decide +kernel) config

/-- A configuration without the reference is not normalized, whether it brings its endpoint or is given one. -/
theorem normalizeWebhookTriggerConfig_error {support : WebhookSupport} {raw : JsonObject}
    {existingEndpointId : Option String} (hraw : raw.get "signing_secret_ref" = none) :
    normalizeWebhookTriggerConfig support raw existingEndpointId =
      .error "signing_secret_ref is required for webhook triggers" := by
  have hempty : pyStrip "" = "" := by decide +kernel
  have hnamed (value : Json) :
      (JsonObject.set raw "endpoint_id" value).get "signing_secret_ref" = none := by
    rw [get_set_of_ne _ _ (by decide), hraw]
  unfold normalizeWebhookTriggerConfig
  dsimp only
  split_ifs with hpresent hblank hblank
  · rfl
  · simp [getTruthy, hraw, hempty] at hblank
  · rfl
  · simp [getTruthy, hnamed, hempty] at hblank

/-- A submitted configuration of a webhook is refused. -/
theorem storedTriggerConfig_sanitizeMapping {support : WebhookSupport} {triggerType : AutomationTriggerType}
    (hwebhook : triggerType.isWebhook) (config : JsonObject) (existingEndpointId : Option String) :
    storedTriggerConfig support triggerType (sanitizeMapping config) existingEndpointId =
      .error secretRefRequired := by
  rw [storedTriggerConfig, if_pos hwebhook,
    normalizeWebhookTriggerConfig_error (get_sanitized_secret_ref config)]
  rfl

theorem createAutomation_error {support : WebhookSupport} {ids : Uuid × Uuid}
    {payload : AutomationCreateRequest} (hwebhook : payload.triggerType.isWebhook) :
    createAutomation support (.ok ids) payload = .error secretRefRequired := by
  unfold createAutomation
  rw [storedTriggerConfig_sanitizeMapping hwebhook]
  rfl

theorem updateAutomation_error {support : WebhookSupport} {checks : UpdateChecks}
    {automation : StoredAutomation} {payload : AutomationUpdateRequest} {config : JsonObject}
    (hversion : checkIf payload.workflowVersionId checks.version = .ok ())
    (hbrand : checkIf payload.brandId checks.brand = .ok ())
    (hconfig : payload.triggerConfig = some config)
    (hwebhook : (payload.triggerType.getD automation.triggerType).isWebhook) :
    updateAutomation support checks automation payload = .error secretRefRequired := by
  unfold updateAutomation updatedTriggerConfig
  rw [hversion, hbrand, hconfig]
  dsimp only
  rw [storedTriggerConfig_sanitizeMapping hwebhook]
  rfl

def ReadsBack (support : WebhookSupport) (config : JsonObject) (result : Except PyException StoredAutomation) :
    Prop :=
  ∃ stored, result = .ok stored ∧
    parseWebhookTriggerConfig support.lax stored.triggerConfig = parseWebhookTriggerConfig support.lax config

/-- No configuration, however valid, can be submitted for a webhook or an event: whatever the other checks say,
neither path stores it, and where they pass the answer is that `signing_secret_ref` is missing. -/
theorem webhook_automation_refused (support : WebhookSupport) {triggerType : AutomationTriggerType}
    (hwebhook : triggerType.isWebhook) (config : JsonObject) :
    (∀ checks payload, payload.triggerType = triggerType → payload.triggerConfig = config →
      ¬ ReadsBack support config (createAutomation support checks payload) ∧
      ∀ ids, checks = .ok ids → createAutomation support checks payload = .error secretRefRequired) ∧
    ∀ checks automation payload, payload.triggerType.getD automation.triggerType = triggerType →
      payload.triggerConfig = some config →
      ¬ ReadsBack support config (updateAutomation support checks automation payload) ∧
      (checkIf payload.workflowVersionId checks.version = .ok () →
        checkIf payload.brandId checks.brand = .ok () →
        updateAutomation support checks automation payload = .error secretRefRequired) := by
  refine ⟨fun checks payload htype _ ↦ ?_, fun checks automation payload htype hconfig ↦ ?_⟩
  · rw [← htype] at hwebhook
    refine ⟨?_, ?_⟩
    · rintro ⟨stored, hstored, _⟩
      cases checks with
      | error error => cases hstored
      | ok ids =>
        rw [createAutomation_error hwebhook] at hstored
        cases hstored
    · rintro ids rfl
      exact createAutomation_error hwebhook
  · rw [← htype] at hwebhook
    refine ⟨?_, fun hversion hbrand ↦ updateAutomation_error hversion hbrand hconfig hwebhook⟩
    rintro ⟨stored, hstored, _⟩
    cases hversion : checkIf payload.workflowVersionId checks.version with
    | error error =>
      unfold updateAutomation at hstored
      rw [hversion] at hstored
      cases hstored
    | ok _ =>
      cases hbrand : checkIf payload.brandId checks.brand with
      | error error =>
        unfold updateAutomation at hstored
        rw [hversion, hbrand] at hstored
        cases hstored
      | ok _ =>
        rw [updateAutomation_error hversion hbrand hconfig hwebhook] at hstored
        cases hstored

/-- Support that reads no text and renders nothing. -/
def plainSupport : WebhookSupport :=
  { lax := plainMode
    newEndpointId := "Zm9vYmFyYmF6cXV4"
    validationError := fun _ ↦ "validation error"
    render := fun _ ↦ "" }

def primaryWebhook : JsonObject :=
  [("endpoint_id", .str "endpoint_01"), ("signing_secret_ref", .str "tenant.webhook.primary")]

def primaryRequest : AutomationCreateRequest :=
  { name := "On publish", triggerType := .webhook, triggerConfig := primaryWebhook }

/-- The model accepts the configuration, and creating an automation with it is refused. -/
theorem primary_webhook_is_refused :
    (parseWebhookTriggerConfig plainSupport.lax primaryWebhook).isSome ∧
      createAutomation plainSupport (.ok (⟨fun _ ↦ 1⟩, ⟨fun _ ↦ 2⟩)) primaryRequest = .error secretRefRequired :=
  ⟨by decide +kernel, createAutomation_error rfl⟩

theorem primary_webhook_is_not_stored :
    ¬ ReadsBack plainSupport primaryWebhook
      (createAutomation plainSupport (.ok (⟨fun _ ↦ 1⟩, ⟨fun _ ↦ 2⟩)) primaryRequest) :=
  ((webhook_automation_refused plainSupport (rfl : AutomationTriggerType.webhook.isWebhook = true) primaryWebhook).1 _ _ rfl rfl).1

end ContentGenerator.Workflows
