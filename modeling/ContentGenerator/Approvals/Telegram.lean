import ContentGenerator.Approvals.Service

/-!
# Telegram

The buttons of the approval cards and the replies to them: `dispatch_intent` with a handler for each intent,
`handle_telegram_callback` and `handle_telegram_message`.

What a callback answers to the chat is left out; `dispatchIntent` is `none` where the source ignores it.
-/

namespace ContentGenerator.Approvals

open Lib Workflows

variable {σ : Type}

/-! ### Revision sessions -/

/-- `REVISION_TTL_SECONDS`. -/
def revisionTtl : Time := 600000000

def setRevisionSession (now : Time) (chatId : String) (id : ℕ) : Approval σ Unit :=
  if chatId = "" then pure ()
  else .modify fun w ↦
    { w with
      revisionSessions := (chatId, id, now + revisionTtl) ::
        w.revisionSessions.filter fun session ↦ session.1 ≠ chatId }

/-- The request whose revision notes a chat is asked for. -/
def World.pendingRevision (w : World σ) (now : Time) (chatId : String) : Option ℕ :=
  (w.revisionSessions.find? fun session ↦ session.1 = chatId ∧ now < session.2.2).map fun session ↦
    session.2.1

/-! ### The handlers of the intents -/

def markJobClusterState (p : Platform σ) (request : ApprovalRequest) (state : String) : Approval σ Unit :=
  match request.contentJobId with
  | none => pure ()
  | some job => touch (p.markJobClusterState request.tenantId job state)

/-- The trend candidate a topic request is about. -/
def ApprovalRequest.topicEntity (request : ApprovalRequest) : Option String :=
  if request.approvalType = "topic" then request.relatedEntityId.filter (· ≠ "") else none

def decideTopic (p : Platform σ) (id : ℕ) (request : ApprovalRequest) (entityId candidateStatus : String)
    (status : ApprovalStatus) (decision : String) : Approval σ Unit :=
  if p.parseUuid entityId = none then .raise (valueError "badly formed hexadecimal UUID string")
  else do
    touch (p.setCandidateStatus request.tenantId entityId candidateStatus)
    setStatus id status
    setPayload id [("decision", .str decision)]

/-- `handle_approve`. A failure of the decision is answered and forgotten. -/
def handleApprove (p : Platform σ) (now : Time) (id : ℕ) (request : ApprovalRequest) : Approval σ Unit :=
  match request.topicEntity with
  | some entityId => decideTopic p id request entityId "approved_topic" .approved "approved_topic"
  | none =>
    .tryCatch
      (do
        applyIntent p now id "approve" none
        if request.approvalType = "asset" then markJobClusterState p request "publish_ready" else pure ())
      fun _ ↦ pure ()

def handleReject (p : Platform σ) (now : Time) (id : ℕ) (request : ApprovalRequest) : Approval σ Unit :=
  match request.topicEntity with
  | some entityId => decideTopic p id request entityId "rejected_topic" .rejected "rejected_topic"
  | none => do
    applyIntent p now id "reject" none
    markJobClusterState p request "rejected"

def handleRevise (p : Platform σ) (now : Time) (id : ℕ) (request : ApprovalRequest) (chatId : String) :
    Approval σ Unit := do
  setRevisionSession now chatId id
  setStatus id .pending
  markJobClusterState p request "asset_generation"

def handleTrimOrCta (now : Time) (id : ℕ) (request : ApprovalRequest) (chatId intent : String) :
    Approval σ Unit := do
  setRevisionSession now chatId id
  setStatus id .pending
  setPayload id (request.responsePayloadJson.set "revision_mode" (.str intent))

/-- `handle_publish_gate` of a request for a content job. -/
def handlePublishGate (p : Platform σ) (now : Time) (request : ApprovalRequest) (contentJobId : ℕ) :
    Approval σ Unit := do
  let platforms ← .read fun w : World σ ↦ p.assetPlatforms contentJobId w.db.rest
  let _ ← sendPublishForApproval p now request.tenantId contentJobId platforms none
    (some request.recipient)

/-- `handle_hold`. The payload of the request is replaced. -/
def handleHold (id : ℕ) : Approval σ Unit := do
  setStatus id .pending
  setPayload id [("decision", .str "held")]

/-- `handle_cancel_publish`. The payload of the request is replaced. -/
def handleCancelPublish (id : ℕ) : Approval σ Unit := do
  setStatus id .rejected
  setPayload id [("decision", .str "cancelled")]

def handleSchedulePublish (p : Platform σ) (now : Time) (id : ℕ) (request : ApprovalRequest) :
    Approval σ Unit := do
  setStatus id .pending
  setPayload id (request.responsePayloadJson.set "scheduled_for"
    (.str (p.isoFormat (now + 2 * hour))))

def handleApprovePlatform (p : Platform σ) (now : Time) (id : ℕ) (request : ApprovalRequest)
    (intent : String) : Approval σ Unit := do
  setPayload id (request.responsePayloadJson.set "platforms"
    (.arr [.str (pyRemoveStart "approve_" intent)]))
  applyIntent p now id "approve" none

/-- `handle_safer_topic`. The payload of the request is replaced. -/
def handleSaferTopic (id : ℕ) (intent : String) : Approval σ Unit := do
  setStatus id .revisionRequested
  setPayload id [("decision", .str intent)]

def dispatchIntent (p : Platform σ) (now : Time) (id : ℕ) (request : ApprovalRequest)
    (intent chatId cbChatId : String) : Option (Approval σ Unit) :=
  if intent ∈ ["approve", "approve_topic", "approve_publish"] then some (handleApprove p now id request)
  else if intent ∈ ["reject", "reject_topic"] then some (handleReject p now id request)
  else if intent = "revise" then some (handleRevise p now id request chatId)
  else if intent ∈ ["trim", "edit_cta"] then some (handleTrimOrCta now id request cbChatId intent)
  else if intent = "publish_gate" then request.contentJobId.map (handlePublishGate p now request)
  else if intent ∈ ["hold_topic", "hold_publish"] then some (handleHold id)
  else if intent = "cancel_publish" then some (handleCancelPublish id)
  else if intent = "schedule_publish" then some (handleSchedulePublish p now id request)
  else if pyStartsWith "approve_" intent ∧ request.approvalType = "publish" then
    some (handleApprovePlatform p now id request intent)
  else if intent ∈ ["safer_topic", "regen_topic"] then some (handleSaferTopic id intent)
  else none

/-! ### Updates -/

/-- `verify_signed_callback_data`: whether the data is valid, the intent and the request. -/
def verifySignedCallbackData (p : Platform σ) (data : String) : Bool × String × String :=
  match pySplit ':' data with
  | action :: identifier :: signature :: _ =>
    (signature = p.signTelegramCallback (action ++ ":" ++ identifier), action, identifier)
  | [action, identifier] => (true, action, identifier)
  | _ => (false, "", "")

/-- `_resolve_telegram_chat`: the chat the card is in. -/
def resolveTelegramChat (p : Platform σ) (request : ApprovalRequest) (cbChatId : String) (rest : σ) :
    String :=
  match p.telegramRuntime request.tenantId rest with
  | .ok (chatId, _) => if cbChatId = "" then chatId else cbChatId
  | .error _ => cbChatId

def handleTelegramCallback (p : Platform σ) (now : Time) (data cbChatId : String) : Approval σ Unit :=
  match verifySignedCallbackData p data with
  | (false, _, _) => commit
  | (true, intent, identifier) =>
    match p.parseUuid identifier with
    | none => pure ()
    | some id => do
      match ← getRequestById id with
      | none => pure ()
      | some request =>
        let chatId ← .read fun w : World σ ↦ resolveTelegramChat p request cbChatId w.db.rest
        match dispatchIntent p now id request intent chatId cbChatId with
        | none => pure ()
        | some handler =>
          handler
          commit

/-- `handle_telegram_message`: whether the message has been taken as revision notes. A pending session is
read as a text (`decode_responses`), and a text has no `decode`: the handler of `AttributeError` answers. -/
def handleTelegramMessage (now : Time) (chatId rawText : String) : Approval σ Bool :=
  if pyStrip rawText = "" ∨ chatId = "" then pure false
  else do
    match ← .read fun w : World σ ↦ w.pendingRevision now chatId with
    | none => pure false
    | some _ => pure false

end ContentGenerator.Approvals
