import ContentGenerator.Lib.Action
import ContentGenerator.Workflows.RunModels

/-!
# Approval requests

The rows of the approval channels, the binding of a request to a waiting workflow node, and the state the
channel handlers work on: what their session sees, what has been committed, and the pending revision
sessions of the chats. Everything the handlers call outside of the approvals module is a `Platform`; its
part of the database is the type `σ`.

The delivery columns of a request, its messages and the audit trail are left out: no handler reads them.
-/

namespace ContentGenerator.Approvals

open Lib Workflows

/-! ### Rows -/

inductive ApprovalStatus
  | pending | revisionRequested | approved | rejected | expired
  deriving DecidableEq

def ApprovalStatus.value : ApprovalStatus → String
  | .pending => "pending"
  | .revisionRequested => "revision_requested"
  | .approved => "approved"
  | .rejected => "rejected"
  | .expired => "expired"

/-- `_STATUS_OUTCOME`: what a decided request says to the workflow. -/
def ApprovalStatus.outcome : ApprovalStatus → Option String
  | .approved => some "approved"
  | .rejected => some "rejected"
  | .expired => some "expired"
  | .pending | .revisionRequested => none

structure ApprovalRequest where
  tenantId : String
  contentJobId : Option ℕ := none
  status : ApprovalStatus := .pending
  channel : String := "telegram"
  recipient : String
  approvalType : String := "asset"
  relatedEntityType : Option String := none
  relatedEntityId : Option String := none
  revisionCount : ℕ := 0
  expiresAt : Option Time := none
  responsePayloadJson : JsonObject := []
  deriving DecidableEq

structure WebhookInbox where
  tenantId : Option String
  dedupeKey : String
  raw : String
  status : String := "received"
  errorMessage : Option String := none

structure ParsedWhatsAppMessage where
  approvalRequestId : Option ℕ := none
  rawText : String
  intent : String
  feedback : Option String := none

/-- `PublishNowRequest`, as the approval handlers fill it. -/
structure PublishNowRequest where
  contentJobId : ℕ
  platforms : Option (List String) := none
  scheduledFor : Option Time := none

/-! ### The workflow binding -/

def getWorkflowBinding (request : ApprovalRequest) : Option JsonObject :=
  match request.responsePayloadJson.get "workflow" with
  | some (.obj binding) =>
    if (JsonObject.getTruthy binding "resume_token").isSome then some binding else none
  | _ => none

def buildWorkflowBinding (workflowRunId workflowNodeRunId nodeId resumeToken : Option String)
    (onTimeout : String) (allowRevision : Bool) (channels : List String) : JsonObject :=
  let text (value : Option String) : Json := (value.map Json.str).getD .null
  [("workflow_run_id", text workflowRunId), ("workflow_node_run_id", text workflowNodeRunId),
    ("node_id", text nodeId), ("resume_token", text resumeToken), ("on_timeout", .str onTimeout),
    ("allow_revision", .bool allowRevision), ("channels", .arr (channels.map .str))]

def stampWorkflowBinding (binding : Option JsonObject) (request : ApprovalRequest) : ApprovalRequest :=
  match binding.filter (· ≠ []) with
  | none => request
  | some fields =>
    { request with
      responsePayloadJson := request.responsePayloadJson.set "workflow" (.obj fields) }

/-! ### The state of the handlers -/

/-- What is in the database: the requests in the order of their creation, the inbox, and the rest. -/
structure Db (σ : Type) where
  requests : KeyedTable ℕ ApprovalRequest := ⟨[], List.nodup_nil⟩
  inbox : KeyedTable ℕ WebhookInbox := ⟨[], List.nodup_nil⟩
  rest : σ

/-- A call that leaves the approvals module on behalf of a request, that it has returned, and a message that
resumes a node. -/
inductive ServiceCall
  | publishNow (requestId : ℕ)
  | published (requestId : ℕ)
  | resume (requestId : ℕ) (tenantId resumeToken outcome : String)
  | resumed (requestId : ℕ) (tenantId resumeToken outcome : String)
  | resumeSent (requestId : ℕ) (tenantId resumeToken outcome : String)
  deriving DecidableEq

/-- What the session sees, what is committed, and the revision session of each chat with its end. `calls`
is a ghost: the calls the operation has made so far, and their returns. -/
structure World (σ : Type) where
  db : Db σ
  stored : Db σ
  revisionSessions : List (String × ℕ × Time) := []
  calls : List ServiceCall := []

abbrev Approval (σ α : Type) := Action (World σ) PyException α

/-- What a call has done: its result, the rest of the database afterwards, and as it was when the call
last committed, if it did. -/
structure Reply (σ α : Type) where
  result : Except PyException α
  rest : σ
  committed : Option σ := none

structure Platform (σ : Type) where
  parseUuid : String → Option ℕ
  uuidText : ℕ → String
  render : Json → String
  signTelegramCallback : String → String
  isoFormat : Time → String
  fromIsoFormat : String → Option Time
  whatsappDefaultRecipient : String
  resolveWhatsappRecipient : String → σ → Except PyException String
  telegramRuntime : String → σ → Except PyException (String × Bool)
  isJson : String → Bool
  digest : String → String
  webhookTenant : String → σ → Except PyException (Option String)
  whatsappParser : Option String → σ →
    Except PyException (String → Except PyException (List ParsedWhatsAppMessage))
  groundingBundle : String → ℕ → σ → Option Json
  assetPlatforms : ℕ → σ → List String
  scoreExplanation : String → String → σ → Option JsonObject
  sendAssetCard : String → ℕ → ℕ → σ → Except PyException Bool
  sendWhatsappMessage : String → ℕ → ℕ → σ → Except PyException Bool
  sendTopicCard : String → ℕ → σ → Except PyException Unit
  sendPublishCard : String → ℕ → σ → Except PyException Unit
  recordPreference : String → ℕ → String → σ → σ
  markJobClusterState : String → ℕ → String → σ → σ
  setCandidateStatus : String → String → String → σ → σ
  regenerateWithFeedback : String → ℕ → String → String → σ → Reply σ ℕ
  publishNow : String → PublishNowRequest → σ → Reply σ Unit
  resumeWaitingNode : String → String → String → JsonObject → σ → Reply σ Unit

variable {σ α : Type}

/-! ### Elementary actions -/

def World.request (w : World σ) (id : ℕ) : Option ApprovalRequest := w.db.requests.find id

def getRequestById (id : ℕ) : Approval σ (Option ApprovalRequest) := .read fun w ↦ w.request id

def World.update (w : World σ) (id : ℕ) (f : ApprovalRequest → ApprovalRequest) : World σ :=
  { w with db := { w.db with requests := w.db.requests.modify id f } }

def updateRequest (id : ℕ) (f : ApprovalRequest → ApprovalRequest) : Approval σ Unit :=
  .modify fun w ↦ w.update id f

/-- `request.status = status`. -/
def setStatus (id : ℕ) (status : ApprovalStatus) : Approval σ Unit :=
  updateRequest id fun request ↦ { request with status := status }

/-- `request.response_payload_json = payload`. -/
def setPayload (id : ℕ) (payload : JsonObject) : Approval σ Unit :=
  updateRequest id fun request ↦ { request with responsePayloadJson := payload }

/-- A change of the rest of the database that cannot fail. -/
def touch (f : σ → σ) : Approval σ Unit :=
  .modify fun w ↦ { w with db := { w.db with rest := f w.db.rest } }

def World.after (w : World σ) (reply : Reply σ α) : World σ :=
  { w with
    db := { w.db with rest := reply.rest }
    stored := match reply.committed with
      | none => w.stored
      | some rest => { w.db with rest := rest } }

def call (f : σ → Reply σ α) : Approval σ α := fun w ↦
  ((f w.db.rest).result, w.after (f w.db.rest))

/-- A question to the platform, which may raise. -/
def ask (f : σ → Except PyException α) : Approval σ α := .readOr fun w ↦ f w.db.rest

def note (entry : ServiceCall) : Approval σ Unit :=
  .modify fun w ↦ { w with calls := w.calls ++ [entry] }

/-- A call on behalf of a request. -/
def callFor (made returned : ServiceCall) (f : σ → Reply σ Unit) : Approval σ Unit := do
  note made
  call f
  note returned

def commit : Approval σ Unit := .modify fun w ↦ { w with stored := w.db }

/-- The transaction of an entry point: committed when the handler returns, rolled back when it raises. -/
def transaction (handler : Approval σ α) : Approval σ α := fun w ↦
  match handler w with
  | (.ok a, w') => (.ok a, { w' with stored := w'.db })
  | (.error e, w') => (.error e, { w' with db := w'.stored })

/-! ### A platform at rest -/

/-- A platform on which everything succeeds, with the messages of every WhatsApp delivery. -/
def mockPlatform (messages : List ParsedWhatsAppMessage) : Platform σ where
  parseUuid text := if text = "1" then some 1 else if text = "2" then some 2 else none
  uuidText id := toString id
  render _ := ""
  signTelegramCallback _ := "signature"
  isoFormat _ := "2030-01-01T00:00:00+00:00"
  fromIsoFormat _ := some 0
  whatsappDefaultRecipient := ""
  resolveWhatsappRecipient _ _ := .ok "recipient"
  telegramRuntime _ _ := .ok ("chat", true)
  isJson _ := true
  digest raw := raw
  webhookTenant _ _ := .ok (some "tenant")
  whatsappParser _ _ := .ok fun _ ↦ .ok messages
  groundingBundle _ _ _ := some (.obj [])
  assetPlatforms _ _ := []
  scoreExplanation _ _ _ := none
  sendAssetCard _ _ _ _ := .ok true
  sendWhatsappMessage _ _ _ _ := .ok true
  sendTopicCard _ _ _ := .ok ()
  sendPublishCard _ _ _ := .ok ()
  recordPreference _ _ _ rest := rest
  markJobClusterState _ _ _ rest := rest
  setCandidateStatus _ _ _ rest := rest
  regenerateWithFeedback _ _ _ _ rest := { result := .ok 20, rest := rest }
  publishNow _ _ rest := { result := .ok (), rest := rest }
  resumeWaitingNode _ _ _ _ rest := { result := .ok (), rest := rest }

end ContentGenerator.Approvals
