import ContentGenerator.Approvals.Models

/-!
# The handlers of the approval channels

`ApprovalService` as actions: sending a request, applying a decision, the buttons of the Telegram cards,
the WhatsApp inbox, the dashboard, and the expiry of overdue requests. `ApprovalOp.apply` is one operation
of a channel with its transaction.

Answers to the chat are left out. A request that is looked up stays in the table, so the case that it is
missing later never arises.
-/

namespace ContentGenerator.Approvals

open Lib Workflows JsonObject Json

variable {σ : Type}

/-! ### Exceptions -/

def typeError (message : String) : PyException := { className := "TypeError", message := message }

def valueError (message : String) : PyException := { className := "ValueError", message := message }

/-! ### Sending a request -/

def hour : Time := 3600000000

def riskPayloadForJob (p : Platform σ) (grounding : Json) : JsonObject :=
  let bundle : JsonObject :=
    match grounding with
    | .obj fields => fields
    | _ => []
  let review : JsonObject :=
    match bundle.get "risk_review" with
    | some (.obj fields) => fields
    | _ => []
  let label := ((getTruthy review "label").or
    (getTruthy bundle "risk_label")).getD (.str "low")
  [("risk_label", .str (Json.text p.render label)), ("risk_review", .obj review)]

/-- `risk_payload["risk_label"] == "blocked"`. -/
def isBlocked (payload : JsonObject) : Bool := payload.get "risk_label" = some (.str "blocked")

def World.latestRequest (w : World σ) (matching : ApprovalRequest → Bool) : Option ℕ :=
  (w.db.requests.entries.reverse.find? fun entry ↦ matching entry.2).map Prod.fst

/-- `get_request_for_content_job`. -/
def World.requestForContentJob (w : World σ) (contentJobId : ℕ) : Option ℕ :=
  w.latestRequest fun request ↦ request.contentJobId = some contentJobId

/-- `get_request_for_related_entity`. -/
def World.requestForRelatedEntity (w : World σ) (tenantId entityType entityId approvalType : String) :
    Option ℕ :=
  w.latestRequest fun request ↦
    request.tenantId = tenantId ∧ request.relatedEntityType = some entityType ∧
      request.relatedEntityId = some entityId ∧ request.approvalType = approvalType

def World.nextId (w : World σ) : ℕ := (w.db.requests.entries.map Prod.fst).foldr max 0 + 1

def World.create (w : World σ) (request : ApprovalRequest) : World σ :=
  { w with db := { w.db with requests := w.db.requests.insertNew w.nextId request } }

/-- `create_or_refresh_request` finds this request. -/
def World.requestToRefresh (w : World σ) (tenantId : String) (contentJobId : Option ℕ)
    (approvalType : String) (relatedEntityType relatedEntityId : Option String) : Option ℕ :=
  match contentJobId, relatedEntityType.filter (· ≠ ""), relatedEntityId.filter (· ≠ "") with
  | some job, _, _ => w.requestForContentJob job
  | none, some entityType, some entityId =>
    w.requestForRelatedEntity tenantId entityType entityId approvalType
  | none, _, _ => none

def createOrRefreshRequest (tenantId : String) (contentJobId : Option ℕ)
    (recipient approvalType : String) (relatedEntityType relatedEntityId : Option String)
    (expiresAt : Time) : Approval σ ℕ := do
  match ← .read fun w ↦
    w.requestToRefresh tenantId contentJobId approvalType relatedEntityType relatedEntityId with
  | some id =>
    updateRequest id fun request ↦
      { request with
        status := .pending
        recipient := recipient
        approvalType := approvalType
        relatedEntityType := relatedEntityType
        relatedEntityId := relatedEntityId
        expiresAt := some expiresAt }
    return id
  | none =>
    let id ← .read World.nextId
    .modify fun w ↦ w.create
      { tenantId, contentJobId, recipient, approvalType, relatedEntityType, relatedEntityId
        expiresAt := some expiresAt }
    return id

/-- The channels a caller names, without blanks and in lower case. -/
def normalizedChannels (channels : List String) : List String :=
  ((channels.map pyStrip).filter (· ≠ "")).map pyLower

/-- `ApprovalDeliveryService.deliver` on one channel. -/
def deliverTo (p : Platform σ) (tenantId : String) (id contentJobId : ℕ) (channel : String) :
    Approval σ Unit := do
  if channel = "telegram" then
    if ← ask (p.sendAssetCard tenantId id contentJobId) then
      updateRequest id fun request ↦ { request with channel := "telegram" }
  else if channel = "whatsapp" ∨ channel = "wa" then
    if ← ask (p.sendWhatsappMessage tenantId id contentJobId) then
      updateRequest id fun request ↦ { request with channel := "whatsapp" }
  else pure ()

/-- `ApprovalDeliveryService.deliver`. -/
def deliverAll (p : Platform σ) (tenantId : String) (id contentJobId : ℕ) (channels : List String) :
    Approval σ Unit :=
  .forEach (if channels = [] then ["in_app"] else channels) (deliverTo p tenantId id contentJobId)

/-- The payload `send_for_approval` leaves on the request. -/
def mergedPayload (prior current risk : JsonObject) : JsonObject :=
  let merged := update (update prior current) risk
  match prior.get "workflow" with
  | some binding => setDefault merged "workflow" binding
  | none => merged

def sendForApproval (p : Platform σ) (now : Time) (tenantId : String) (contentJobId : ℕ)
    (recipient : Option String) (channels : List String) (deliver : Bool) : Approval σ ℕ := do
  let configured ← ask (p.resolveWhatsappRecipient tenantId)
  let resolved := pyStrip ((recipient.filter (· ≠ "")).getD
    (if configured ≠ "" then configured else p.whatsappDefaultRecipient))
  let channelList := normalizedChannels (if channels = [] then ["telegram", "whatsapp"] else channels)
  if (channelList.any (· ≠ "in_app")) ∧ resolved = "" then
    .raise (httpException 400 "No approval recipient configured for this tenant")
  else
    match ← .read fun w : World σ ↦ p.groundingBundle tenantId contentJobId w.db.rest with
    | none => .raise (httpException 404 "Content job not found")
    | some grounding =>
      let risk := riskPayloadForJob p grounding
      if isBlocked risk then
        .raise (httpException 422 "Risk review blocked this content from operator approval")
      else
        let prior ← .read fun w : World σ ↦
          (((w.requestForContentJob contentJobId).bind w.request).map
            ApprovalRequest.responsePayloadJson).getD []
        let id ← createOrRefreshRequest tenantId (some contentJobId)
          (if resolved = "" then "in_app" else resolved) "asset" (some "content_job")
          (some (p.uuidText contentJobId)) (now + 48 * hour)
        (if deliver then deliverAll p tenantId id contentJobId channelList else pure ())
        updateRequest id fun request ↦
          { request with responsePayloadJson := mergedPayload prior request.responsePayloadJson risk }
        touch (p.markJobClusterState tenantId contentJobId "asset_review")
        return id

def sendTopicForApproval (p : Platform σ) (now : Time) (tenantId candidateId : String)
    (recipient : Option String) : Approval σ ℕ := do
  match ← .read fun w : World σ ↦ p.scoreExplanation tenantId candidateId w.db.rest with
  | none => .raise (httpException 404 "Trend candidate not found")
  | some explanation =>
    let (chatId, configured) ← ask (p.telegramRuntime tenantId)
    let resolved := (recipient.filter (· ≠ "")).getD
      (if chatId ≠ "" then chatId else p.whatsappDefaultRecipient)
    let id ← createOrRefreshRequest tenantId none resolved "topic" (some "trend_candidate")
      (some candidateId) (now + 18 * hour)
    if ¬ configured then
      .raise (httpException 422 "Telegram is not configured for topic approvals")
    else
      ask (p.sendTopicCard tenantId id)
      updateRequest id fun request ↦
        { request with
          responsePayloadJson := update request.responsePayloadJson
            [("risk_label", .str (Json.text p.render
                ((explanation.get "review_risk_label").getD (.str "low")))),
              ("topic_categories", (explanation.get "topic_categories").getD (.arr []))] }
      return id

/-- `send_publish_for_approval`. The payload of the request is replaced. -/
def sendPublishForApproval (p : Platform σ) (now : Time) (tenantId : String) (contentJobId : ℕ)
    (platforms : List String) (scheduledFor : Option Time) (recipient : Option String) :
    Approval σ ℕ := do
  let (chatId, configured) ← ask (p.telegramRuntime tenantId)
  let resolved := (recipient.filter (· ≠ "")).getD
    (if chatId ≠ "" then chatId else p.whatsappDefaultRecipient)
  match ← .read fun w : World σ ↦ p.groundingBundle tenantId contentJobId w.db.rest with
  | none => .raise (httpException 404 "Content job not found")
  | some grounding =>
    let risk := riskPayloadForJob p grounding
    if isBlocked risk then
      .raise (httpException 422 "Risk review blocked this content from publish approval")
    else
      let id ← createOrRefreshRequest tenantId (some contentJobId) resolved "publish"
        (some "content_job") (some (p.uuidText contentJobId)) (now + 24 * hour)
      setPayload id (update
        [("platforms", .arr (platforms.map .str)),
          ("scheduled_for", (scheduledFor.map fun time ↦ str (p.isoFormat time)).getD .null)]
        risk)
      if ¬ configured then
        .raise (httpException 422 "Telegram is not configured for publish approvals")
      else
        ask (p.sendPublishCard tenantId id)
        return id

/-! ### Applying a decision -/

def textsOf (p : Platform σ) (items : List Json) : List String := items.map (Json.text p.render)

/-- `list(binding.get("channels") or [])`. -/
def bindingChannels (binding : JsonObject) : Option (List Json) :=
  ((getTruthy binding "channels").map pyList).getD (some [])

/-- The decision the node of a bound request is told. -/
def decisionPayload (p : Platform σ) (id : ℕ) (request : ApprovalRequest) (binding : JsonObject)
    (channels : List Json) : JsonObject :=
  [("approval_request_id", .str (p.uuidText id)), ("status", .str request.status.value),
    ("content_job_id", (request.contentJobId.map fun job ↦ str (p.uuidText job)).getD .null),
    ("revision_count", .int request.revisionCount),
    ("on_timeout", (binding.get "on_timeout").getD (.str "stop")), ("channels", .arr channels)]

def maybeResumeWorkflowFromApproval (p : Platform σ) (id : ℕ) : Approval σ Unit := do
  match ← getRequestById id with
  | none => pure ()
  | some request =>
    match getWorkflowBinding request, request.status.outcome with
    | some binding, some outcome =>
      match bindingChannels binding with
      | none => .raise (typeError "object is not iterable")
      | some channels =>
        let token := Json.text p.render ((binding.get "resume_token").getD .null)
        callFor (.resume id request.tenantId token outcome) (.resumed id request.tenantId token outcome)
          (p.resumeWaitingNode request.tenantId token outcome (decisionPayload p id request binding channels))
    | _, _ => pure ()

/-- `list(payload.get("platforms", [])) or None`, validated. -/
def readPlatforms (payload : JsonObject) : Except PyException (Option (List String)) :=
  match pyList ((payload.get "platforms").getD (.arr [])) with
  | none => .error (typeError "object is not iterable")
  | some items =>
    match items.mapM fun | .str text => some text | _ => none with
    | none => .error { className := "ValidationError", message := "Input should be a valid string" }
    | some [] => .ok none
    | some platforms => .ok (some platforms)

/-- `datetime.fromisoformat(value)` of a text, and nothing of another value. -/
def readScheduledFor (p : Platform σ) (payload : JsonObject) : Except PyException (Option Time) :=
  match payload.get "scheduled_for" with
  | some (.str text) =>
    match p.fromIsoFormat text with
    | none => .error (valueError "Invalid isoformat string")
    | some time => .ok (some time)
  | _ => .ok none

/-- The publishing an approval leads to when no workflow node owns it. -/
def publishApproved (p : Platform σ) (id : ℕ) (request : ApprovalRequest) (contentJobId : ℕ) :
    Approval σ Unit := do
  if request.approvalType = "publish" then
    let platforms ← .readOr fun _ ↦ readPlatforms request.responsePayloadJson
    let scheduledFor ← .readOr fun _ ↦ readScheduledFor p request.responsePayloadJson
    callFor (.publishNow id) (.published id)
      (p.publishNow request.tenantId { contentJobId, platforms, scheduledFor })
  else if request.approvalType = "asset" then
    callFor (.publishNow id) (.published id) (p.publishNow request.tenantId { contentJobId })
  else pure ()

def applyApprove (p : Platform σ) (id : ℕ) : Approval σ Unit := do
  setStatus id .approved
  match ← getRequestById id with
  | none => pure ()
  | some request =>
    match request.contentJobId with
    | none => pure ()
    | some job =>
      touch (p.recordPreference request.tenantId job "approve")
      -- the publish node of a workflow owns its publishing
      if (getWorkflowBinding request).isSome then pure () else publishApproved p id request job

def maxRevisions : ℕ := 5

/-- The part of `_apply_revise` after the checks. -/
def reviseContent (p : Platform σ) (now : Time) (id : ℕ) (feedback : String)
    (request : ApprovalRequest) (job : ℕ) : Approval σ Unit := do
  let binding := getWorkflowBinding request
  touch (p.recordPreference request.tenantId job "revise")
  let revised ← call (p.regenerateWithFeedback request.tenantId job feedback request.channel)
  updateRequest id fun request ↦
    stampWorkflowBinding binding { request with contentJobId := some revised, status := .pending }
  match binding.map bindingChannels with
  | some none => .raise (typeError "object is not iterable")
  | channels =>
    let _ ← sendForApproval p now request.tenantId revised (some request.recipient)
      (textsOf p ((channels.getD none).getD [])) true
    updateRequest id (stampWorkflowBinding binding)

/-- `_apply_revise` rejects the request: its node allows no revision, or there have been too many. -/
def refusesRevision (request : ApprovalRequest) : Bool :=
  ((getWorkflowBinding request).bind fun binding ↦ binding.get "allow_revision") =
      some (.bool false) ∨
    maxRevisions ≤ request.revisionCount

/-- The request while its revision is being made. -/
def ApprovalRequest.beginRevision (request : ApprovalRequest) : ApprovalRequest :=
  { request with status := .revisionRequested, revisionCount := request.revisionCount + 1 }

def applyRevise (p : Platform σ) (now : Time) (id : ℕ) (feedback : String) : Approval σ Unit := do
  match ← getRequestById id with
  | none => pure ()
  | some request =>
    if refusesRevision request then setStatus id .rejected
    else
      updateRequest id ApprovalRequest.beginRevision
      match request.contentJobId with
      | none => pure ()
      | some job => reviseContent p now id feedback request job

def applyReject (p : Platform σ) (id : ℕ) : Approval σ Unit := do
  setStatus id .rejected
  match ← getRequestById id with
  | none => pure ()
  | some request =>
    match request.contentJobId with
    | none => pure ()
    | some job => touch (p.recordPreference request.tenantId job "reject")

/-- What `apply_intent` does for an intent, if it knows it. -/
def intentAction (p : Platform σ) (now : Time) (id : ℕ) (intent : String) (feedback : Option String) :
    Option (Approval σ Unit) :=
  if intent = "approve" then some (applyApprove p id)
  else if intent = "revise" then
    (feedback.filter (· ≠ "")).map fun text ↦ applyRevise p now id text
  else if intent = "reject" then some (applyReject p id)
  else none

def applyIntent (p : Platform σ) (now : Time) (id : ℕ) (intent : String) (feedback : Option String) :
    Approval σ Unit :=
  match intentAction p now id intent feedback with
  | none => pure ()
  | some action => do
    action
    maybeResumeWorkflowFromApproval p id

end ContentGenerator.Approvals
