import ContentGenerator.Approvals.Telegram

/-!
# The operations on approval requests

The WhatsApp inbox, the dashboard, the expiry of overdue requests, the approval node of a workflow and the
timeout of its wait. `ApprovalOp.apply` is one operation of a channel with its transaction.

The signature of a WhatsApp delivery is checked by `webhookTenant`, which also resolves the tenant.
-/

namespace ContentGenerator.Approvals

open Lib Workflows

variable {σ : Type}

/-! ### The WhatsApp inbox -/

/-- Assignments to the columns of an inbox row. -/
def updateInbox (inboxId : ℕ) (f : WebhookInbox → WebhookInbox) : Approval σ Unit :=
  .modify fun w ↦ { w with db := { w.db with inbox := w.db.inbox.modify inboxId f } }

/-- `handle_webhook`: a delivery is stored once. -/
def handleWebhook (p : Platform σ) (raw : String) : Approval σ Unit := do
  let tenantId ← ask (p.webhookTenant raw)
  .modify fun w ↦
    if w.db.inbox.entries.any fun entry ↦ entry.2.dedupeKey = p.digest raw then w
    else
      { w with
        db := { w.db with
          inbox := w.db.inbox.insertNew ((w.db.inbox.entries.map Prod.fst).foldr max 0 + 1)
            { tenantId, dedupeKey := p.digest raw, raw } } }
  commit

/-- The request a message is about: the one the provider found, or the second word of the text. -/
def messageRequest (p : Platform σ) (message : ParsedWhatsAppMessage) : Option ℕ :=
  message.approvalRequestId.or ((pyWords message.rawText)[1]?.bind p.parseUuid)

/-- One message of `process_webhook_inbox`. The request is looked up whatever its tenant. -/
def applyMessage (p : Platform σ) (now : Time) (message : ParsedWhatsAppMessage) : Approval σ Unit :=
  match messageRequest p message with
  | none => pure ()
  | some id => do
    match ← getRequestById id with
    | none => pure ()
    | some _ => applyIntent p now id message.intent message.feedback

/-- What `process_webhook_inbox` does with the messages. -/
def applyMessages (p : Platform σ) (now : Time)
    (parse : String → Except PyException (List ParsedWhatsAppMessage)) (raw : String) :
    Approval σ Unit := do
  let messages ← .readOr fun _ ↦ parse raw
  .forEach messages (applyMessage p now)

/-- The error handler of `process_webhook_inbox`: it commits what the messages have done so far. -/
def commitInboxError (inboxId : ℕ) (exc : PyException) : Approval σ Unit := do
  updateInbox inboxId fun inbox ↦
    { inbox with status := "error", errorMessage := some exc.message }
  commit
  .raise exc

def processWebhookInbox (p : Platform σ) (now : Time) (inboxId : ℕ) : Approval σ Unit := do
  match ← .read fun w : World σ ↦ w.db.inbox.find inboxId with
  | none => pure ()
  | some inbox =>
    if inbox.status ≠ "received" then pure ()
    else if ¬ p.isJson inbox.raw then
      updateInbox inboxId fun inbox ↦
        { inbox with status := "error", errorMessage := some "JSON parse failed" }
      commit
    else
      let parse ← ask (p.whatsappParser inbox.tenantId)
      updateInbox inboxId fun inbox ↦ { inbox with status := "processing" }
      .tryCatch (applyMessages p now parse inbox.raw) (commitInboxError inboxId)
      updateInbox inboxId fun inbox ↦ { inbox with status := "processed" }
      commit

/-! ### The dashboard -/

structure SendApprovalRequest where
  contentJobId : Option ℕ := none
  recipient : Option String := none
  approvalType : String := "asset"
  relatedEntityId : Option String := none
  selectedPlatforms : List String := []
  scheduledFor : Option Time := none

/-- `UUID(text)` of the candidate of a topic request, written back. -/
def candidateId (p : Platform σ) (text : String) : Except PyException String :=
  match p.parseUuid text with
  | none => .error (valueError "badly formed hexadecimal UUID string")
  | some id => .ok (p.uuidText id)

/-- `POST /approvals`. -/
def sendApproval (p : Platform σ) (now : Time) (tenantId : String) (payload : SendApprovalRequest) :
    Approval σ Unit :=
  if payload.approvalType = "topic" then
    match payload.relatedEntityId.filter (· ≠ "") with
    | none => .raise (httpException 422 "related_entity_id is required for topic approval")
    | some entityId => do
      let candidate ← .readOr fun _ ↦ candidateId p entityId
      let _ ← sendTopicForApproval p now tenantId candidate payload.recipient
  else if payload.approvalType = "publish" then
    match payload.contentJobId with
    | none => .raise (httpException 422 "content_job_id is required for publish approval")
    | some job => do
      let _ ← sendPublishForApproval p now tenantId job payload.selectedPlatforms payload.scheduledFor
        payload.recipient
  else
    match payload.contentJobId with
    | none => .raise (httpException 422 "content_job_id is required for asset approval")
    | some job => do
      let _ ← sendForApproval p now tenantId job payload.recipient [] true

/-- `get_request`: the request with an id, if it is one of the tenant. -/
def getRequest (tenantId : String) (id : ℕ) : Approval σ (Option ApprovalRequest) :=
  .read fun w ↦ (w.request id).filter fun request ↦ request.tenantId = tenantId

/-- `list(payload.get("platforms", []))`. -/
def resentPlatforms (p : Platform σ) (payload : JsonObject) : Except PyException (List String) :=
  match Json.pyList ((payload.get "platforms").getD (.arr [])) with
  | none => .error (typeError "object is not iterable")
  | some items => .ok (textsOf p items)

def resendRequest (p : Platform σ) (now : Time) (tenantId : String) (id : ℕ) : Approval σ Unit := do
  match ← getRequest tenantId id with
  | none => .raise (httpException 404 "Approval request not found")
  | some request =>
    if request.approvalType = "asset" then
      match request.contentJobId with
      | none => .raise (httpException 422 "Approval request has no content job")
      | some job =>
        let _ ← sendForApproval p now tenantId job (some request.recipient) [] true
    else if request.approvalType = "publish" then
      match request.contentJobId with
      | none => .raise (httpException 422 "Approval request has no content job")
      | some job =>
        let platforms ← .readOr fun _ ↦ resentPlatforms p request.responsePayloadJson
        let scheduledFor ← .readOr fun _ ↦ readScheduledFor p request.responsePayloadJson
        let _ ← sendPublishForApproval p now tenantId job platforms scheduledFor (some request.recipient)
    else
      match request.topicEntity with
      | none => .raise (httpException 422 "Approval request type cannot be resent")
      | some entityId =>
        let candidate ← .readOr fun _ ↦ candidateId p entityId
        let _ ← sendTopicForApproval p now tenantId candidate (some request.recipient)

/-- The `regenerate` action of the dashboard. -/
def regenerateRequest (p : Platform σ) (id : ℕ) (request : ApprovalRequest) (feedback : Option String) :
    Approval σ Unit :=
  match request.contentJobId with
  | none => .raise (httpException 422 "Regenerate is only supported for content-backed approvals")
  | some job => do
    let revised ← call (p.regenerateWithFeedback request.tenantId job
      ((feedback.filter (· ≠ "")).getD "Regenerate with a fresher angle and tighter structure.")
      "dashboard")
    updateRequest id fun request ↦
      { request with
        contentJobId := some revised, status := .pending, revisionCount := request.revisionCount + 1 }

def operatorAction (p : Platform σ) (now : Time) (tenantId : String) (id : ℕ) (action : String)
    (feedback : Option String) : Approval σ Unit := do
  match ← getRequest tenantId id with
  | none => .raise (httpException 404 "Approval request not found")
  | some request =>
    if pyLower action = "regenerate" then regenerateRequest p id request feedback
    else if pyLower action ∈ ["approve", "reject", "revise"] then
      applyIntent p now id (pyLower action) feedback
    else .raise (httpException 422 ("Unsupported approval action '" ++ action ++ "'"))

/-! ### Expiry -/

/-- `list_expired_pending_requests`. -/
def World.overdue (w : World σ) (now : Time) : List ℕ :=
  (w.db.requests.entries.filter fun entry ↦
    entry.2.status = .pending ∧ entry.2.expiresAt.any (· ≤ now)).map Prod.fst

/-- One overdue request of `expire_stale_approvals_task`. -/
def expireRequest (p : Platform σ) (id : ℕ) : Approval σ Unit := do
  setStatus id .expired
  maybeResumeWorkflowFromApproval p id

/-- `expire_stale_approvals_task`: all overdue requests in one transaction. -/
def expireStaleApprovals (p : Platform σ) (now : Time) : Approval σ Unit := do
  let expired ← .read fun w : World σ ↦ w.overdue now
  .forEach expired (expireRequest p)

/-! ### The workflow -/

/-- What an approval node of a workflow asks for: its inputs, its configuration and its place in the
run. -/
structure ApprovalNodeCall where
  tenantId : String
  contentJobId : ℕ
  recipient : Option String := none
  channels : List String := ["in_app", "telegram"]
  timeoutSeconds : ℕ := 86400
  onTimeout : String := "stop"
  allowRevision : Bool := true
  workflowRunId : String
  workflowNodeRunId : String
  nodeId : String
  resumeToken : String

def ApprovalNodeCall.binding (args : ApprovalNodeCall) : JsonObject :=
  buildWorkflowBinding (some args.workflowRunId) (some args.workflowNodeRunId) (some args.nodeId)
    (some args.resumeToken) args.onTimeout args.allowRevision args.channels

/-- The request of an approval node: sent, delivered and bound to the node. -/
def requestNodeApproval (p : Platform σ) (now : Time) (args : ApprovalNodeCall) : Approval σ ℕ := do
  let id ← sendForApproval p now args.tenantId args.contentJobId args.recipient args.channels false
  deliverAll p args.tenantId id args.contentJobId (normalizedChannels args.channels)
  if args.resumeToken = "" then return id
  else
    updateRequest id fun request ↦
      { request with
        responsePayloadJson := request.responsePayloadJson.set "workflow" (.obj args.binding)
        expiresAt := some (now + args.timeoutSeconds * 1000000) }
    return id

/-- The request `_expire_bound_approval_request` looks up. -/
def boundRequest (p : Platform σ) (payload : JsonObject) : Option ℕ :=
  if payload.get "kind" = some (.str "approval_timeout") then
    (payload.getTruthy "approval_request_id").bind fun rawId ↦
      p.parseUuid (Json.text p.render rawId)
  else none

/-- An expired wait of `wake_due_workflow_waits`: the request it names expires, and a message resumes the
node of the wait. -/
def wakeExpiredWait (p : Platform σ) (tenantId resumeToken : String) (payload : JsonObject) :
    Approval σ Unit :=
  match boundRequest p payload with
  | none => pure ()
  | some id => do
    updateRequest id fun request ↦
      if request.status = .pending then { request with status := .expired } else request
    note (.resumeSent id tenantId resumeToken "expired")

/-! ### Operations -/

/-- What comes in from outside: a button, a message in a chat, a WhatsApp delivery, and the processing of a
delivery that has been stored. -/
inductive InboundMessage
  | telegramCallback (data cbChatId : String)
  | telegramMessage (chatId text : String)
  | whatsappWebhook (raw : String)
  | whatsappInbox (inboxId : ℕ)

inductive ApprovalOp
  | inbound (message : InboundMessage)
  | send (tenantId : String) (payload : SendApprovalRequest)
  | resend (tenantId : String) (id : ℕ)
  | operator (tenantId : String) (id : ℕ) (action : String) (feedback : Option String)
  | node (args : ApprovalNodeCall)
  | expireStale
  | expiredWait (tenantId resumeToken : String) (payload : JsonObject)

def InboundMessage.handler (p : Platform σ) (now : Time) : InboundMessage → Approval σ Unit
  | .telegramCallback data cbChatId => handleTelegramCallback p now data cbChatId
  | .telegramMessage chatId text => do
    let _ ← handleTelegramMessage now chatId text
  | .whatsappWebhook raw => handleWebhook p raw
  | .whatsappInbox inboxId => processWebhookInbox p now inboxId

def ApprovalOp.handler (p : Platform σ) (now : Time) : ApprovalOp → Approval σ Unit
  | .inbound message => message.handler p now
  | .send tenantId payload => sendApproval p now tenantId payload
  | .resend tenantId id => resendRequest p now tenantId id
  | .operator tenantId id action feedback => operatorAction p now tenantId id action feedback
  | .node args => do
    let _ ← requestNodeApproval p now args
  | .expireStale => expireStaleApprovals p now
  | .expiredWait tenantId resumeToken payload => wakeExpiredWait p tenantId resumeToken payload

/-- A session of its own, in which no call has been made. -/
def World.opened (w : World σ) : World σ := { w with db := w.stored, calls := [] }

def ApprovalOp.apply (p : Platform σ) (w : World σ) (op : Time × ApprovalOp) : World σ :=
  (transaction (op.2.handler p op.1)).final w.opened

end ContentGenerator.Approvals
